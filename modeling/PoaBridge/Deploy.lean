import PoaBridge.Lib.Decimal
import PoaBridge.DatabaseText
import PoaBridge.Relay
import PoaBridge.Timer

/-!
# The start of the process

`execute` of `cli/src/main.rs` up to the call of `create_bridge`, with `ChainIdRetrieval`
of `bridge/src/bridge/chain_id.rs` and `Deploy` of `bridge/src/bridge/deploy.rs`.

The process asks both nodes for their chain ids and for the nonces of its accounts.
Then it loads the database.  If there is none, and it is built for this, it creates
the two contracts, and the database begins at the blocks of their receipts.

The two contracts are created by two futures that run side by side.  Each of them is
the only user of the nonce counter of its node at that time, so the counter is a part
of its state.  `Deploy.poll_spec` says where a new database comes from.
-/

namespace PoaBridge

open PollLoop

variable {Digest : Type}

/-! ## Chain ids -/

/-- `u64::from_str`. -/
def parseU64 (text : Bytes) : Option UInt64 :=
  let digits := if text.head? = some 43 then text.tail else text
  if digits ≠ [] ∧ (digits.all fun b => decide (Decimal.IsDigit b)) ∧
      Decimal.value digits < 2 ^ 64 then
    some (UInt64.ofNat (Decimal.value digits))
  else none

/-- What `event_loop.run` gives for a future, and `expect`. -/
def expect {α : Type} (message : String) : Except Error α → Except Error α
  | .ok value => .ok value
  | .error _ => .error (.panic message)

/-- `ChainIdRetrieval::poll`, with the answer to `net_version`. -/
def chainIdRetrieval (answer : Except Error Bytes) : Except Error UInt64 := do
  let value ← answer
  match parseU64 value with
  | some id => .ok id
  | none => .error (.panic "called `Result::unwrap()` on an `Err` value")

/-- What the nodes answer before the database is loaded. -/
structure StartAnswers where
  homeChainId : Except Error Bytes
  foreignChainId : Except Error Bytes
  homeNonce : Except Error U256
  foreignNonce : Except Error U256

/-! ## Receipts of creations -/

/-- The fields of `web3::types::TransactionReceipt` that the process reads. -/
structure TransactionReceipt (Digest : Type) where
  transactionHash : Digest
  blockNumber : U256
  contractAddress : Option Address

/-- `TransactionWithConfirmation::ignore`. -/
def TransactionReceipt.ignore (hash : Digest) : TransactionReceipt Digest := ⟨hash, 0, none⟩

/-- The wallet of a `NonceCheck` over `TransactionWithConfirmation`: a transaction that
the node has already is reported by a receipt with its hash and nothing else. -/
def Wallet.confirming (wallet : Wallet Digest) : Wallet (TransactionReceipt Digest) where
  transactionHash tx chainId := .ignore (wallet.transactionHash tx chainId)
  sign account receipt := wallet.sign account receipt.transactionHash
  encode := wallet.encode

/-- The configuration that only the deployment reads. -/
structure DeployConfig where
  /-- The feature `deploy`. -/
  enabled : Bool
  databasePath : String
  homeBin : Bytes
  foreignBin : Bytes
  requiredSignatures : UInt32
  accounts : List Address
  estimatedGasCostOfWithdraw : UInt32
  homeDeploy : Config.TransactionConfig
  foreignDeploy : Config.TransactionConfig

/-- The code of a contract and the arguments of its constructor, which are the same for
both contracts. -/
def Abi.constructorInput (bin : Bytes) (requiredSignatures : UInt32) (accounts : List Address)
    (estimatedGasCostOfWithdraw : UInt32) : Bytes :=
  bin ++ wordBytes (BitVec.ofNat 256 requiredSignatures.toNat) ++ wordBytes 96
    ++ wordBytes (BitVec.ofNat 256 estimatedGasCostOfWithdraw.toNat)
    ++ dynamicWords (accounts.map addressWord)

/-- The transaction that creates a contract. -/
def DeployConfig.creation (self : DeployConfig) (bin : Bytes) (txs : Config.TransactionConfig) :
    Transaction where
  nonce := 0
  gasPrice := BitVec.ofNat 256 txs.gasPrice.toNat
  gas := BitVec.ofNat 256 txs.gas.toNat
  action := .create
  value := 0
  data := Abi.constructorInput bin self.requiredSignatures self.accounts
    self.estimatedGasCostOfWithdraw

/-! ## The database file -/

/-- The file, as the process finds it when it starts. -/
inductive DatabaseFile where
  | missing
  | unreadable
  | holds (database : Database)

/-- The database of a file that can be read. -/
def DatabaseFile.database? : DatabaseFile → Option Database
  | .holds database => some database
  | _ => none

/-- The file cannot be opened, or it cannot be read. -/
inductive LoadFault where
  | cannotOpen
  | cannotRead (kind : IoErrorKind)

/-- `Database::load`. -/
def DatabaseFile.load (self : DatabaseFile) (path : String) (fault : Option LoadFault) :
    Except Error Database :=
  match fault, self with
  | some .cannotOpen, _ => .error (.msg "Cannot open database")
  | _, .missing => .error (.missingFile path)
  | some (.cannotRead kind), _ => .error (.io kind)
  | none, .unreadable => .error (.msg "Cannot parse database")
  | none, .holds database => .ok database

/-! ## The deployment -/

inductive Deployed where
  | new (database : Database)
  | existing (database : Database)

/-- A future that creates a contract, with the counter of its node. -/
abbrev Creation := NonceCheck × U256

/-- The two futures.  Each of them leaves its receipt and the counter. -/
abbrev Creations (Digest : Type) :=
  Join Creation (TransactionReceipt Digest × U256) Creation (TransactionReceipt Digest × U256)

inductive DeployState (Digest : Type) where
  | checkIfNeeded
  | deploying (futures : Creations Digest)

structure Deploy (Digest : Type) where
  state : DeployState Digest
  homeChainId : UInt64
  foreignChainId : UInt64
  homeNonce : U256
  foreignNonce : U256

/-- `create_deploy`. -/
def createDeploy (homeChainId foreignChainId : UInt64) (homeNonce foreignNonce : U256) :
    Deploy Digest :=
  ⟨.checkIfNeeded, homeChainId, foreignChainId, homeNonce, foreignNonce⟩

namespace Deploy

/-- What happens in one iteration. -/
structure Answers (Digest : Type) where
  fault : Option LoadFault
  home : List (NonceCheck.Answers (TransactionReceipt Digest))
  foreign : List (NonceCheck.Answers (TransactionReceipt Digest))

/-- One of the futures is polled. -/
def pollCreation (wallet : Wallet Digest)
    (script : List (NonceCheck.Answers (TransactionReceipt Digest))) (future : Creation) :
    Creation × Poll (TransactionReceipt Digest × U256) :=
  let (future, result) := NonceCheck.poll wallet.confirming future script
  match result with
  | .ok (.ready receipt) => (future, .ok (.ready (receipt, future.2)))
  | .ok .notReady => (future, .ok .notReady)
  | .error e => (future, .error e)

/-- `contract_address.expect(..)`. -/
def address (receipt : TransactionReceipt Digest) : Except Error Address :=
  match receipt.contractAddress with
  | some address => .ok address
  | none => .error (.panic "contract creation receipt must have an address; qed")

/-- The database of two new contracts. -/
def database (main test : TransactionReceipt Digest) : Except Error Database := do
  let homeContractAddress ← address main
  let foreignContractAddress ← address test
  return {
    homeContractAddress := homeContractAddress
    foreignContractAddress := foreignContractAddress
    homeDeploy := some (lowU64 main.blockNumber)
    foreignDeploy := some (lowU64 test.blockNumber)
    checkedDepositRelay := lowU64 main.blockNumber
    checkedWithdrawRelay := lowU64 test.blockNumber
    checkedWithdrawConfirm := lowU64 test.blockNumber }

/-- The future that creates the contract of a side, as it is made. -/
def creation (app : App Digest) (config : DeployConfig) (self : Deploy Digest) :
    Side → NonceCheck
  | .home => sendTransactionWithNonce app.home.account self.homeChainId
      (config.creation config.homeBin config.homeDeploy)
  | .foreign => sendTransactionWithNonce app.foreign.account self.foreignChainId
      (config.creation config.foreignBin config.foreignDeploy)

/-- `main_future.join(test_future)`. -/
def futures (app : App Digest) (config : DeployConfig) (self : Deploy Digest) :
    Creations Digest where
  first := .pending (creation app config self .home, self.homeNonce)
  second := .pending (creation app config self .foreign, self.foreignNonce)

/-- One iteration of the loop in `Deploy::poll`. -/
def body (app : App Digest) (config : DeployConfig) (file : DatabaseFile) (self : Deploy Digest)
    (answers : Answers Digest) : Flow (Deploy Digest) (Poll Deployed) :=
  match self.state with
  | .checkIfNeeded =>
    match file.load config.databasePath answers.fault with
    | .ok database => .ret self (.ok (.ready (.existing database)))
    | .error (.missingFile filename) =>
      if config.enabled then .next { self with state := .deploying (futures app config self) }
      else .ret self (.error (.missingFile filename))
    | .error e => .ret self (.error e)
  | .deploying futures =>
    let (futures, result) :=
      futures.poll (pollCreation app.wallet answers.home) (pollCreation app.wallet answers.foreign)
    let self := { self with state := .deploying futures }
    tryReady self result fun ((main, homeNonce), (test, foreignNonce)) =>
      let self := { self with homeNonce := homeNonce, foreignNonce := foreignNonce }
      match database main test with
      | .ok database => .ret self (.ok (.ready (.new database)))
      | .error e => .ret self (.error e)

/-- `Deploy::poll`. -/
def poll (app : App Digest) (config : DeployConfig) (file : DatabaseFile) (self : Deploy Digest)
    (script : List (Answers Digest)) : Deploy Digest × Poll Deployed :=
  run (body app config file) (.ok .notReady) self script

/-! ## Where a new database comes from -/

/-- The node has confirmed the transaction of a future, with a signature and under some
nonce, and it reports the receipt. -/
def Created (wallet : Wallet Digest) (confirmed : Bytes → TransactionReceipt Digest → Prop)
    (start : NonceCheck) (receipt : TransactionReceipt Digest) : Prop :=
  ∃ nonce raw,
    prepareRawTransaction wallet start.account start.chainId
      { start.transaction with nonce := nonce } = .ok raw ∧ confirmed raw receipt

/-- The nodes report only receipts of transactions that they confirm. -/
def Answers.Honest (confirmed : Side → Bytes → TransactionReceipt Digest → Prop)
    (self : Answers Digest) : Prop :=
  (∀ answers ∈ self.home, ∀ raw receipt, answers.send raw = .ok (.ready receipt) →
    confirmed .home raw receipt) ∧
  ∀ answers ∈ self.foreign, ∀ raw receipt, answers.send raw = .ok (.ready receipt) →
    confirmed .foreign raw receipt

/-- The database is that of two contracts whose creation the nodes have confirmed. -/
def IsNew (app : App Digest) (config : DeployConfig)
    (confirmed : Side → Bytes → TransactionReceipt Digest → Prop) (deployed : Database) : Prop :=
  ∃ (self : Deploy Digest) (main test : TransactionReceipt Digest),
    Created app.wallet (confirmed .home) (creation app config self .home) main ∧
    Created app.wallet (confirmed .foreign) (creation app config self .foreign) test ∧
    database main test = .ok deployed

variable {app : App Digest} {config : DeployConfig} {file : DatabaseFile}
  {confirmed : Side → Bytes → TransactionReceipt Digest → Prop}

/-- A future that is done, with the address of a contract, has had its transaction
confirmed: the receipt for a transaction that the node had already has no address. -/
theorem polled_creation {wallet : Wallet Digest}
    {confirmed : Bytes → TransactionReceipt Digest → Prop} {start : NonceCheck}
    {script : List (NonceCheck.Answers (TransactionReceipt Digest))} {future : Creation}
    (hscript : ∀ answers ∈ script, ∀ raw receipt, answers.send raw = .ok (.ready receipt) →
      confirmed raw receipt)
    (h : NonceCheck.Sends wallet.confirming start future.1) :
    Polled (fun future => NonceCheck.Sends wallet.confirming start future.1)
      (fun result => result.1.contractAddress ≠ none → Created wallet confirmed start result.1)
      (pollCreation wallet script future) := by
  obtain ⟨hsends, haccepted⟩ := NonceCheck.poll_spec script h
  unfold pollCreation
  generalize NonceCheck.poll wallet.confirming future script = polled at hsends haccepted
  rcases polled with ⟨future', e | _ | receipt⟩
  · exact ⟨nofun, nofun⟩
  · exact ⟨fun _ => hsends, nofun⟩
  · refine ⟨nofun, ?_⟩
    intro result heq
    cases heq
    intro haddress
    obtain ⟨answers, hmem, nonce, raw, hraw, hsend | ⟨err, -, -, rfl⟩⟩ := haccepted receipt rfl
    · exact ⟨nonce, raw, hraw, hscript answers hmem raw receipt hsend⟩
    · exact absurd rfl haddress

/-- What holds of the two futures. -/
def Sat (app : App Digest) (config : DeployConfig)
    (confirmed : Side → Bytes → TransactionReceipt Digest → Prop) (self : Deploy Digest)
    (futures : Creations Digest) : Prop :=
  futures.first.Sat
    (fun future => NonceCheck.Sends app.wallet.confirming (creation app config self .home) future.1)
    (fun result => result.1.contractAddress ≠ none →
      Created app.wallet (confirmed .home) (creation app config self .home) result.1) ∧
  futures.second.Sat
    (fun future =>
      NonceCheck.Sends app.wallet.confirming (creation app config self .foreign) future.1)
    (fun result => result.1.contractAddress ≠ none →
      Created app.wallet (confirmed .foreign) (creation app config self .foreign) result.1)

/-- Contracts are created only when there is no file, by a process that is built for it. -/
structure Inv (app : App Digest) (config : DeployConfig)
    (confirmed : Side → Bytes → TransactionReceipt Digest → Prop) (file : DatabaseFile)
    (task : Deploy Digest) : Prop where
  missing : ∀ futures, task.state = .deploying futures → file = .missing ∧ config.enabled = true
  futures : ∀ futures, task.state = .deploying futures → Sat app config confirmed task futures

/-- What a result says: the file holds the database, or there was none and the database
is new. -/
def Post (app : App Digest) (config : DeployConfig)
    (confirmed : Side → Bytes → TransactionReceipt Digest → Prop) (file : DatabaseFile) :
    Poll Deployed → Prop
  | .ok (.ready (.existing database)) => file = .holds database
  | .ok (.ready (.new database)) =>
    file = .missing ∧ config.enabled = true ∧ IsNew app config confirmed database
  | _ => True

theorem inv_createDeploy (homeChainId foreignChainId : UInt64) (homeNonce foreignNonce : U256) :
    Inv app config confirmed file
      (createDeploy homeChainId foreignChainId homeNonce foreignNonce) :=
  ⟨nofun, nofun⟩

theorem load_eq_ok {fault : Option LoadFault} {path : String} {database : Database}
    (h : file.load path fault = .ok database) : file = .holds database := by
  unfold DatabaseFile.load at h
  split at h <;> cases h
  rfl

theorem load_eq_missingFile {fault : Option LoadFault} {path filename : String}
    (h : file.load path fault = .error (.missingFile filename)) : file = .missing := by
  unfold DatabaseFile.load at h
  split at h <;> cases h
  rfl

theorem body_sat {self : Deploy Digest} {answers : Answers Digest}
    (hanswers : answers.Honest confirmed) (h : Inv app config confirmed file self) :
    (body app config file self answers).Sat (Inv app config confirmed file)
      (fun self' result => (result = .ok .notReady → Inv app config confirmed file self') ∧
        Post app config confirmed file result) := by
  unfold body
  cases hstate : self.state with
  | checkIfNeeded =>
    dsimp only
    split
    · rename_i database hload
      exact ⟨nofun, load_eq_ok hload⟩
    · rename_i filename hload
      split
      · rename_i henabled
        refine ⟨fun _ _ => ⟨load_eq_missingFile hload, henabled⟩, ?_⟩
        rintro futures heq
        cases heq
        exact ⟨NonceCheck.sends_start _ _ _ _, NonceCheck.sends_start _ _ _ _⟩
      · exact ⟨nofun, trivial⟩
    · exact ⟨nofun, trivial⟩
  | deploying futures =>
    obtain ⟨hmissing, henabled⟩ := h.missing futures hstate
    have hpolled := Join.poll_spec (h.futures futures hstate)
      (fun future hfuture => polled_creation hanswers.1 hfuture)
      (fun future hfuture => polled_creation hanswers.2 hfuture)
    dsimp only
    generalize futures.poll (pollCreation app.wallet answers.home)
      (pollCreation app.wallet answers.foreign) = polled at hpolled ⊢
    obtain ⟨futures', result⟩ := polled
    refine tryReady_sat ?_ ?_ ?_
    · exact fun e _ => ⟨nofun, trivial⟩
    · intro hresult
      refine ⟨fun _ => ⟨fun _ _ => ⟨hmissing, henabled⟩, ?_⟩, trivial⟩
      intro futures'' heq
      cases heq
      exact hpolled.1 hresult
    · rintro ⟨⟨main, homeNonce⟩, test, foreignNonce⟩ hresult
      obtain ⟨hmain, htest⟩ := hpolled.2 _ hresult
      dsimp only
      split
      · rename_i deployed hdatabase
        refine ⟨nofun, hmissing, henabled, self, main, test, hmain ?_, htest ?_, hdatabase⟩
        · intro hnone
          rw [database, address, hnone] at hdatabase
          cases hdatabase
        · intro hnone
          obtain ⟨a, ha, hrest⟩ := Results.exists_of_bind_eq_ok hdatabase
          rw [address, hnone] at hrest
          cases hrest
      · exact ⟨nofun, trivial⟩

/-- The specification of `Deploy::poll`. -/
theorem poll_spec {self : Deploy Digest} {script : List (Answers Digest)}
    (hscript : ∀ answers ∈ script, answers.Honest confirmed)
    (h : Inv app config confirmed file self) :
    ((poll app config file self script).2 = .ok .notReady →
      Inv app config confirmed file (poll app config file self script).1) ∧
    Post app config confirmed file (poll app config file self script).2 := by
  refine run_sat (P := Inv app config confirmed file)
    (Q := fun self' result => (result = .ok .notReady → Inv app config confirmed file self') ∧
      Post app config confirmed file result) ?_ script self ?_ h
  · exact fun self hself => ⟨fun _ => hself, trivial⟩
  · intro answers hmem self hself
    have hbody := body_sat (hscript answers hmem) hself
    cases hflow : body app config file self answers with
    | next self' =>
      rw [hflow] at hbody
      exact hbody
    | ret self' result =>
      rw [hflow] at hbody
      exact hbody

end Deploy

end PoaBridge
