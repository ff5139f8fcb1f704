import PoaBridge.Relay

/-!
# The deposit relay

`bridge/src/bridge/deposit_relay.rs`: every `Deposit` log of `HomeBridge` is
turned into a transaction that calls `deposit` of `ForeignBridge`.

`poll_spec` is what the rest of the process uses: a poll keeps the invariant, and
a block that it reports has no deposit left to relay.
-/

namespace PoaBridge

open PollLoop

/-- `deposits_filter`. -/
def depositsFilter (abi : Abi) (address : Address) : Filter :=
  web3Filter abi.depositTopic [address]

/-- `deposit_relay_payload`. -/
def depositRelayPayload (abi : Abi) (log : Log) : Except Error Bytes :=
  match abi.parseDeposit log.rawLog with
  | none => .error .ethabi
  | some depositLog =>
    match log.transactionHash with
    | none => .error (.panic "log to be mined and contain `transaction_hash`")
    | some hash => .ok (abi.depositInput depositLog.recipient depositLog.value hash)

variable {Digest : Type}

/-- `DepositRelayState`. -/
inductive DepositRelayState (Digest : Type) where
  | wait
  | relayDeposits (future : Batch Digest) (block : UInt64)
  | yield (block : Option UInt64)

structure DepositRelay (Digest : Type) where
  logs : LogStream
  state : DepositRelayState Digest
  foreignContract : Address
  foreignChainId : UInt64

/-- `create_deposit_relay`. -/
def createDepositRelay (app : App Digest) (init : Database) (foreignChainId : UInt64) :
    DepositRelay Digest where
  logs := logStream {
    after := init.checkedDepositRelay
    confirmations := app.home.requiredConfirmations
    filter := depositsFilter app.abi init.homeContractAddress }
  state := .wait
  foreignContract := init.foreignContractAddress
  foreignChainId := foreignChainId

namespace DepositRelay

/-- What the nodes answer in one iteration. -/
structure Answers (Digest : Type) where
  logs : List LogStream.Answers
  future : Batch.Script Digest

/-- The transactions for the logs of an item, if the balance allows them.  Every
transaction stays with its log. -/
def transactions (app : App Digest) (self : DepositRelay Digest) (gasPrice : UInt64)
    (foreignBalance : U256) (item : LogStreamItem) : Except Error (List (Log × Transaction)) :=
  if foreignBalance.toNat < balanceRequired app.depositRelayGas gasPrice item.logs.length then
    .error .insufficientFunds
  else
    item.logs.mapM fun log => do
      let payload ← depositRelayPayload app.abi log
      pure (log, callTransaction (BitVec.ofNat 256 app.depositRelayGas.toNat)
        (BitVec.ofNat 256 gasPrice.toNat) self.foreignContract payload)

/-- One iteration of the loop in `DepositRelay::poll`. -/
def body (app : App Digest) (self : DepositRelay Digest × Shared Digest)
    (answers : Answers Digest) :
    Flow (DepositRelay Digest × Shared Digest) (Poll (Option BridgeChecked)) :=
  let (relay, shared) := self
  match relay.state with
  | .wait =>
    match shared.foreignBalance with
    | none => .ret self (.ok .notReady)
    | some foreignBalance =>
      awaitItem "polling home for deposits" relay.logs answers.logs shared
        (fun logs => { relay with logs := logs }) fun item relay =>
          match relay.transactions app shared.foreignGasPrice foreignBalance item with
          | .error e => .ret (relay, shared) (.error e)
          | .ok deposits =>
            let future := sendAll app.foreign.account relay.foreignChainId deposits
            .next ({ relay with state := .relayDeposits future item.toBlock }, shared)
  | .relayDeposits future block =>
    awaitBatch app .depositRelay .foreign "relaying deposit to foreign" future answers.future
      shared (fun future => { relay with state := .relayDeposits future block })
      { relay with state := .yield (some block) }
  | .yield none => .next ({ relay with state := .wait }, shared)
  | .yield (some block) =>
    .ret ({ relay with state := .yield none }, shared)
      (.ok (.ready (some (.depositRelay block))))

/-- The iteration in which the stream emits an item. -/
theorem body_of_item {app : App Digest} {relay : DepositRelay Digest} {shared : Shared Digest}
    {answers : Answers Digest} {balance : U256} {logs : LogStream} {item : LogStreamItem}
    (hwait : relay.state = .wait) (hbalance : shared.foreignBalance = some balance)
    (hitem : relay.logs.poll answers.logs = (logs, .ok (.ready (some item)))) :
    body app (relay, shared) answers
      = match { relay with logs := logs }.transactions app shared.foreignGasPrice balance item with
        | .error e => .ret ({ relay with logs := logs }, shared) (.error e)
        | .ok deposits => .next ({ relay with
            logs := logs
            state := .relayDeposits (sendAll app.foreign.account relay.foreignChainId deposits)
              item.toBlock }, shared) := by
  obtain ⟨stream, state, contract, chainId⟩ := relay
  dsimp only at hwait hitem
  subst hwait
  rw [body]
  dsimp only [awaitItem]
  rw [hbalance, hitem]
  rfl

/-- `DepositRelay::poll`. -/
def poll (app : App Digest) (self : DepositRelay Digest × Shared Digest)
    (script : List (Answers Digest)) :
    (DepositRelay Digest × Shared Digest) × Poll (Option BridgeChecked) :=
  run (body app) (.ok .notReady) self script

/-! ## What the relay is for -/

/-- The future calls `deposit` with the data of the log. -/
def Relays (app : App Digest) (foreignContract : Address) (log : Log) (future : NonceCheck) :
    Prop :=
  ∃ payload, depositRelayPayload app.abi log = .ok payload ∧
    Calls app.foreign.account foreignContract payload future

/-- Every deposit of the home chain has to be relayed. -/
def spec (app : App Digest) (init : Database) (home : Nat → List Log) : Spec where
  relay := .depositRelay
  blocks := home
  filter := depositsFilter app.abi init.homeContractAddress
  duty := fun _ => true
  relays := Relays app init.foreignContractAddress

/-- The logs of the jobs in progress. -/
def pending (self : DepositRelay Digest) : List Log :=
  match self.state with
  | .relayDeposits future _ => future.jobs.map Job.log
  | _ => []

/-- The block that is reported next. -/
def block (self : DepositRelay Digest) : Option UInt64 :=
  match self.state with
  | .wait => none
  | .relayDeposits _ block => some block
  | .yield block => block

/-- The invariant of the relay. -/
structure Inv (app : App Digest) (init : Database) (home : Nat → List Log) (floor : Nat)
    (relay : DepositRelay Digest) (shared : Shared Digest) : Prop where
  contract : relay.foreignContract = init.foreignContractAddress
  progress : (spec app init home).Progress init.checkedDepositRelay.toNat floor relay.logs
    relay.pending relay.block shared
  futures : ∀ future block, relay.state = .relayDeposits future block →
    (spec app init home).Futures app future

variable {app : App Digest} {init : Database} {home : Nat → List Log} {floor : Nat}

/-- A relay that starts from a saved database. -/
theorem inv_createDepositRelay {database : Database} {shared : Shared Digest} (chainId : UInt64)
    (hhome : database.homeContractAddress = init.homeContractAddress)
    (hforeign : database.foreignContractAddress = init.foreignContractAddress)
    (hinit : init.checkedDepositRelay.toNat ≤ database.checkedDepositRelay.toNat)
    (hcovered : ((spec app init home).duties init.checkedDepositRelay.toNat
      database.checkedDepositRelay.toNat).Subperm ((shared.done .depositRelay).map Job.log)) :
    Inv app init home database.checkedDepositRelay.toNat
      (createDepositRelay app database chainId) shared := by
  refine ⟨hforeign, Spec.progress_start ?_ hinit hcovered, fun _ _ h => by cases h⟩
  show depositsFilter app.abi database.homeContractAddress = _
  rw [hhome]
  rfl

/-- The polls of the other relays. -/
theorem Inv.frame {relay : DepositRelay Digest} {shared shared' : Shared Digest}
    (h : Inv app init home floor relay shared)
    (hdone : shared'.done .depositRelay = shared.done .depositRelay) :
    Inv app init home floor relay shared' :=
  ⟨h.contract, h.progress.frame hdone, h.futures⟩

theorem Inv.setFloor {relay : DepositRelay Digest} {shared : Shared Digest}
    (h : Inv app init home floor relay shared) {floor' : Nat} (hfloor : floor ≤ floor')
    (hle : floor' ≤ relay.logs.position) : Inv app init home floor' relay shared :=
  ⟨h.contract, h.progress.setFloor (h.progress.init_le.trans hfloor) hle, h.futures⟩

/-- Every log of the item has its transaction, and the transaction relays it. -/
theorem transactions_eq_ok {self : DepositRelay Digest} {gasPrice : UInt64}
    {foreignBalance : U256} {item : LogStreamItem} {deposits : List (Log × Transaction)}
    (h : self.transactions app gasPrice foreignBalance item = .ok deposits) (chainId : UInt64) :
    deposits.map Prod.fst = item.logs ∧
      ∀ p ∈ deposits, Relays app self.foreignContract p.1
        (sendTransactionWithNonce app.foreign.account chainId p.2) := by
  unfold transactions at h
  split at h
  · cases h
  · refine ⟨?_, ?_⟩
    · rw [Results.map_eq_of_mapM_eq_ok (k := id) h, List.map_id]
      intro log p hp
      obtain ⟨payload, -, hp⟩ := Results.exists_of_bind_eq_ok hp
      cases hp
      rfl
    · intro p hp
      obtain ⟨log, -, hp⟩ := Results.exists_mem_of_mapM_eq_ok h hp
      obtain ⟨payload, hpayload, hp⟩ := Results.exists_of_bind_eq_ok hp
      cases hp
      exact ⟨payload, hpayload, calls_callTransaction _ _ _ _ _ _⟩

theorem body_sat {start : Shared Digest} {self : DepositRelay Digest × Shared Digest}
    {answers : Answers Digest} (hanswers : ∀ a ∈ answers.logs, Complete home a)
    (h : (spec app init home).Kept app (Inv app init home floor) start self) :
    (body app self answers).Sat ((spec app init home).Kept app (Inv app init home floor) start)
      ((spec app init home).Post app init.checkedDepositRelay.toNat floor
        (Inv app init home floor) logs start) := by
  obtain ⟨⟨logs, state, contract, chainId⟩, shared⟩ := self
  obtain ⟨hstep, hcontract, hprogress, hfutures⟩ := h
  dsimp only at hstep hcontract
  subst hcontract
  cases state with
  | wait =>
    rw [body]
    dsimp only
    split
    · exact Spec.post_nothing hstep ⟨rfl, hprogress, hfutures⟩ (by simp)
    · apply Spec.awaitItem_sat hanswers hstep hprogress
      · exact fun logs hlogs => ⟨rfl, hlogs, fun _ _ h => (by cases h)⟩
      · intro item logs hitem
        split
        · exact Spec.post_error hstep _
        · rename_i deposits hdeposits
          obtain ⟨hlogs, hrelays⟩ := transactions_eq_ok hdeposits chainId
          refine ⟨hstep, rfl, ?_, ?_⟩
          · simp only [spec, List.filter_true] at hitem
            simp only [pending, block, Spec.jobs_sendAll, hlogs]
            exact hitem
          · intro future block heq
            cases heq
            exact Spec.futures_sendAll hrelays
  | relayDeposits future block =>
    rw [body]
    apply Spec.awaitBatch_sat hstep (hfutures future block rfl) hprogress
    · intro future' shared' hfuture' hprogress'
      refine ⟨rfl, hprogress', ?_⟩
      intro f b heq
      cases heq
      exact hfuture'
    · exact fun shared' hprogress' => ⟨rfl, hprogress', fun _ _ h => (by cases h)⟩
  | yield block =>
    cases block with
    | none => exact ⟨hstep, rfl, hprogress, fun _ _ h => (by cases h)⟩
    | some block =>
      exact Spec.post_event hstep ⟨rfl, hprogress.clearBlock, fun _ _ h => (by cases h)⟩ rfl
        hprogress

/-- The specification of `DepositRelay::poll`. -/
theorem poll_spec {relay : DepositRelay Digest} {shared : Shared Digest}
    {script : List (Answers Digest)}
    (hscript : ∀ answers ∈ script, ∀ a ∈ answers.logs, Complete home a)
    (h : Inv app init home floor relay shared) :
    (spec app init home).Post app init.checkedDepositRelay.toNat floor (Inv app init home floor)
      logs shared (poll app (relay, shared) script).1 (poll app (relay, shared) script).2 := by
  refine run_sat (P := (spec app init home).Kept app (Inv app init home floor) shared) ?_ script
    (relay, shared) ?_ ⟨Spec.Step.refl shared, h⟩
  · exact fun s hs => Spec.post_nothing hs.1 hs.2 (by simp)
  · exact fun answers hmem s hs => body_sat (hscript answers hmem) hs

end DepositRelay

end PoaBridge
