import PoaBridge.Relay
import PoaBridge.Signature

/-!
# The relay of withdrawals

`bridge/src/bridge/withdraw_relay.rs`: for every `CollectedSignatures` log of
`ForeignBridge` that names this authority, the message and the signatures are
fetched from `ForeignBridge`, and a transaction that calls `withdraw` of
`HomeBridge` is sent.

`poll_spec` is what the rest of the process uses: a poll keeps the invariant, and
a block that it reports has no withdrawal of this authority left to relay.
-/

namespace PoaBridge

open PollLoop BigEndian

variable {Digest : Type}

/-- `collected_signatures_filter`. -/
def collectedSignaturesFilter (abi : Abi) (addresses : List Address) : Filter :=
  web3Filter abi.collectedSignaturesTopic addresses

/-- `RelayAssignment`. -/
structure RelayAssignment where
  signaturePayloads : List Bytes
  messagePayload : Bytes
deriving DecidableEq, Repr

/-- `signatures_payload`.  `none` is a log that another authority relays.  The
number of signatures goes through the encoder of `message`, and its low 32 bits
count. -/
def signaturesPayload (app : App Digest) (log : Log) : Except Error (Option RelayAssignment) :=
  match app.abi.parseCollectedSignatures log.rawLog with
  | none => .error .ethabi
  | some collectedSignatures =>
    if collectedSignatures.authorityResponsibleForRelay ≠ app.foreign.account then do
      infoTransactionHash app log
      pure none
    else
      let requiredSignatures :=
        decode ((app.abi.messageInput collectedSignatures.numberOfCollectedSignatures).drop 4)
      .ok (some {
        signaturePayloads := (List.range (requiredSignatures % 2 ^ 32)).map fun index =>
          app.abi.signatureInput collectedSignatures.messageHash (BitVec.ofNat 256 index)
        messagePayload := app.abi.messageInput collectedSignatures.messageHash })

/-- The `eth_call`s of the messages and of the signatures.  A call that is not
done is its payload. -/
abbrev Fetch :=
  Join (JoinAll Bytes Bytes) (List Bytes)
    (JoinAll (JoinAll Bytes Bytes) (List Bytes)) (List (List Bytes))

/-- `WithdrawRelayState`.  The logs that the calls are for stay with them. -/
inductive WithdrawRelayState (Digest : Type) where
  | wait
  | fetchMessagesSignatures (assignments : List (Log × RelayAssignment)) (future : Fetch)
    (block : UInt64)
  | relayWithdraws (future : Batch Digest) (block : UInt64)
  | yield (block : Option UInt64)

structure WithdrawRelay (Digest : Type) where
  logs : LogStream
  state : WithdrawRelayState Digest
  foreignContract : Address
  homeContract : Address
  homeChainId : UInt64

/-- `create_withdraw_relay`. -/
def createWithdrawRelay (app : App Digest) (init : Database) (homeChainId : UInt64) :
    WithdrawRelay Digest where
  logs := logStream {
    after := init.checkedWithdrawRelay
    confirmations := app.foreign.requiredConfirmations
    filter := collectedSignaturesFilter app.abi [init.foreignContractAddress] }
  state := .wait
  foreignContract := init.foreignContractAddress
  homeContract := init.homeContractAddress
  homeChainId := homeChainId

namespace WithdrawRelay

/-- One of the calls of a batch: the index of the message, and the index of the
signature. -/
inductive Call where
  | message (i : Nat)
  | signature (i j : Nat)

/-- What the nodes answer in one iteration.  An answer to `eth_call` is a function
of the contract and of the payload. -/
structure Answers (Digest : Type) where
  logs : List LogStream.Answers
  call : Call → Address → Bytes → Poll Bytes
  future : Batch.Script Digest

/-- The assignments of the logs that this authority relays. -/
def assignments (app : App Digest) (logs : List Log) :
    Except Error (List (Log × RelayAssignment)) := do
  let assignments ← logs.mapM fun log => do
    let assignment ← signaturesPayload app log
    pure (log, assignment)
  pure (assignments.filterMap fun (log, assignment) => assignment.map (log, ·))

/-- `join_all(message_calls).join(join_all(signature_calls))`. -/
def fetch (assignments : List (Log × RelayAssignment)) : Fetch where
  first := .pending (assignments.map fun assignment => .pending assignment.2.messagePayload)
  second := .pending (assignments.map fun assignment =>
    .pending (assignment.2.signaturePayloads.map .pending))

def pollFetch (call : Call → Bytes → Poll Bytes) (self : Fetch) :
    Fetch × Poll (List Bytes × List (List Bytes)) :=
  self.poll
    (JoinAll.poll fun i payload => (payload, call (.message i) payload))
    (JoinAll.poll fun i => JoinAll.poll fun j payload => (payload, call (.signature i j) payload))

/-- `message().output(..)`. -/
def decodeMessage (abi : Abi) (raw : Bytes) : Except Error Bytes :=
  match abi.messageOutput raw with
  | none => .error .ethabi
  | some message => .ok message

/-- `Signature::from_bytes(signature().output(..)?)`. -/
def decodeSignature (abi : Abi) (raw : Bytes) : Except Error Signature :=
  match abi.signatureOutput raw with
  | none => .error .ethabi
  | some signature => Signature.fromBytes signature

/-- The payload that calls `withdraw`. -/
def withdrawPayload (abi : Abi) (message : Bytes) (signatures : List Signature) : Bytes :=
  abi.withdrawInput (signatures.map Signature.v) (signatures.map Signature.r)
    (signatures.map Signature.s) message

/-- The transaction for one assignment.  Its gas price is the one in the
message. -/
def relay (app : App Digest) (self : WithdrawRelay Digest) (log : Log) (message : Bytes)
    (signatures : List Signature) : Except Error (Log × Transaction) := do
  let payload := withdrawPayload app.abi message signatures
  let parsed ← MessageToMainnet.fromBytes message
  pure (log, callTransaction (BitVec.ofNat 256 app.withdrawRelayGas.toNat)
    parsed.mainnetGasPrice self.homeContract payload)

/-- The transactions for what was fetched, if the balance allows them. -/
def transactions (app : App Digest) (self : WithdrawRelay Digest) (gasPrice : UInt64)
    (homeBalance : U256) (assignments : List (Log × RelayAssignment)) (messagesRaw : List Bytes)
    (signaturesRaw : List (List Bytes)) : Except Error (List (Log × Transaction)) := do
  if messagesRaw.length ≠ signaturesRaw.length then
    .error (.panic "assertion failed: `(left == right)`")
  else if homeBalance.toNat
      < balanceRequired app.withdrawRelayGas gasPrice messagesRaw.length then
    .error .insufficientFunds
  else
    let messages ← messagesRaw.mapM (decodeMessage app.abi)
    let signatures ← signaturesRaw.mapM fun signatures =>
      signatures.mapM (decodeSignature app.abi)
    (assignments.zip (messages.zip signatures)).mapM fun p =>
      self.relay app p.1.1 p.2.1 p.2.2

/-- The transactions do not depend on the state of the loop. -/
theorem transactions_setState (app : App Digest) (self : WithdrawRelay Digest)
    (state : WithdrawRelayState Digest) :
    transactions app { self with state := state } = transactions app self := rfl

/-- The state `FetchMessagesSignatures`. -/
def awaitFetch (app : App Digest) (relay : WithdrawRelay Digest) (shared : Shared Digest)
    (answers : Answers Digest) (assignments : List (Log × RelayAssignment)) (future : Fetch)
    (block : UInt64) :
    Flow (WithdrawRelay Digest × Shared Digest) (Poll (Option BridgeChecked)) :=
  match shared.homeBalance with
  | none => .ret (relay, shared) (.ok .notReady)
  | some homeBalance =>
    let (future, result) := pollFetch (answers.call · relay.foreignContract) future
    let relay := { relay with state := .fetchMessagesSignatures assignments future block }
    tryReady (relay, shared)
      (withContext "fetching messages and signatures from foreign" result)
      fun (messagesRaw, signaturesRaw) =>
        match relay.transactions app shared.homeGasPrice homeBalance assignments messagesRaw
          signaturesRaw with
        | .error e => .ret (relay, shared) (.error e)
        | .ok relays =>
          let future := sendAll app.home.account relay.homeChainId relays
          .next ({ relay with state := .relayWithdraws future block }, shared)

/-- One iteration of the loop in `WithdrawRelay::poll`. -/
def body (app : App Digest) (self : WithdrawRelay Digest × Shared Digest)
    (answers : Answers Digest) :
    Flow (WithdrawRelay Digest × Shared Digest) (Poll (Option BridgeChecked)) :=
  let (relay, shared) := self
  match relay.state with
  | .wait =>
    awaitItem "polling foreign for collected signatures" relay.logs answers.logs shared
      (fun logs => { relay with logs := logs }) fun item relay =>
        match assignments app item.logs with
        | .error e => .ret (relay, shared) (.error e)
        | .ok assignments =>
          .next ({ relay with
            state := .fetchMessagesSignatures assignments (fetch assignments) item.toBlock },
            shared)
  | .fetchMessagesSignatures assignments future block =>
    awaitFetch app relay shared answers assignments future block
  | .relayWithdraws future block =>
    awaitBatch app .withdrawRelay .home "sending withdrawal to home" future answers.future shared
      (fun future => { relay with state := .relayWithdraws future block })
      { relay with state := .yield (some block) }
  | .yield none => .next ({ relay with state := .wait }, shared)
  | .yield (some block) =>
    .ret ({ relay with state := .yield none }, shared)
      (.ok (.ready (some (.withdrawRelay block))))

/-- The iteration in which the stream emits an item. -/
theorem body_of_item {app : App Digest} {relay : WithdrawRelay Digest} {shared : Shared Digest}
    {answers : Answers Digest} {logs : LogStream} {item : LogStreamItem}
    (hwait : relay.state = .wait)
    (hitem : relay.logs.poll answers.logs = (logs, .ok (.ready (some item)))) :
    body app (relay, shared) answers
      = match assignments app item.logs with
        | .error e => .ret ({ relay with logs := logs }, shared) (.error e)
        | .ok assignments => .next ({ relay with
            logs := logs
            state := .fetchMessagesSignatures assignments (fetch assignments) item.toBlock },
            shared) := by
  obtain ⟨stream, state, foreignContract, homeContract, chainId⟩ := relay
  dsimp only at hwait hitem
  subst hwait
  rw [body]
  dsimp only [awaitItem]
  rw [hitem]
  rfl

/-- An iteration that finds the relay fetching. -/
theorem body_of_fetching {app : App Digest} {relay : WithdrawRelay Digest}
    {shared : Shared Digest} {answers : Answers Digest} {balance : U256}
    {assignments : List (Log × RelayAssignment)} {future : Fetch} {block : UInt64}
    (hstate : relay.state = .fetchMessagesSignatures assignments future block)
    (hbalance : shared.homeBalance = some balance) :
    let polled := pollFetch (answers.call · relay.foreignContract) future
    let relay' := { relay with state := .fetchMessagesSignatures assignments polled.1 block }
    body app (relay, shared) answers
      = match withContext "fetching messages and signatures from foreign" polled.2 with
        | .error e => .ret (relay', shared) (.error e)
        | .ok .notReady => .ret (relay', shared) (.ok .notReady)
        | .ok (.ready raws) =>
          match relay.transactions app shared.homeGasPrice balance assignments raws.1 raws.2 with
          | .error e => .ret (relay', shared) (.error e)
          | .ok relays => .next ({ relay with
              state := .relayWithdraws (sendAll app.home.account relay.homeChainId relays) block },
              shared) := by
  obtain ⟨stream, state, foreignContract, homeContract, chainId⟩ := relay
  dsimp only at hstate
  subst hstate
  rw [body]
  unfold awaitFetch
  dsimp only
  rw [hbalance]
  dsimp only
  generalize withContext "fetching messages and signatures from foreign"
    (pollFetch (answers.call · foreignContract) future).2 = result
  rcases result with e | _ | raws <;> rfl

/-- Without a balance nothing is fetched. -/
theorem body_of_unknown_balance {app : App Digest} {relay : WithdrawRelay Digest}
    {shared : Shared Digest} {answers : Answers Digest}
    {assignments : List (Log × RelayAssignment)} {future : Fetch} {block : UInt64}
    (hstate : relay.state = .fetchMessagesSignatures assignments future block)
    (hbalance : shared.homeBalance = none) :
    body app (relay, shared) answers = .ret (relay, shared) (.ok .notReady) := by
  unfold body
  dsimp only
  rw [hstate]
  unfold awaitFetch
  dsimp only
  rw [hbalance]

/-- `WithdrawRelay::poll`. -/
def poll (app : App Digest) (self : WithdrawRelay Digest × Shared Digest)
    (script : List (Answers Digest)) :
    (WithdrawRelay Digest × Shared Digest) × Poll (Option BridgeChecked) :=
  run (body app) (.ok .notReady) self script

/-! ## What the relay is for -/

/-- The message and the signatures are what the calls of the assignment
returned. -/
structure Fetched (app : App Digest) (called : Bytes → Bytes → Prop)
    (assignment : RelayAssignment) (message : Bytes) (signatures : List Signature) : Prop where
  message : ∃ raw, called assignment.messagePayload raw ∧ decodeMessage app.abi raw = .ok message
  signatures : List.Forall₂
    (fun payload signature => ∃ raw, called payload raw ∧
      decodeSignature app.abi raw = .ok signature)
    assignment.signaturePayloads signatures

/-- The future calls `withdraw` with the message and the signatures that the log
announces. -/
def Relays (app : App Digest) (init : Database) (called : Address → Bytes → Bytes → Prop)
    (log : Log) (future : NonceCheck) : Prop :=
  ∃ assignment message signatures, signaturesPayload app log = .ok (some assignment) ∧
    Fetched app (called init.foreignContractAddress) assignment message signatures ∧
    Calls app.home.account init.homeContractAddress (withdrawPayload app.abi message signatures)
      future

/-- The log does not name another authority. -/
def duty (app : App Digest) (log : Log) : Bool :=
  match app.abi.parseCollectedSignatures log.rawLog with
  | none => true
  | some collectedSignatures =>
    collectedSignatures.authorityResponsibleForRelay = app.foreign.account

/-- The withdrawals for which this authority is responsible have to be
relayed. -/
def spec (app : App Digest) (init : Database) (foreign : Nat → List Log)
    (called : Address → Bytes → Bytes → Prop) : Spec where
  relay := .withdrawRelay
  blocks := foreign
  filter := collectedSignaturesFilter app.abi [init.foreignContractAddress]
  duty := duty app
  relays := Relays app init called

/-- The node reports all logs, and `called` is what it answers to `eth_call`. -/
structure Answers.Honest (foreign : Nat → List Log) (called : Address → Bytes → Bytes → Prop)
    (answers : Answers Digest) : Prop where
  logs : ∀ a ∈ answers.logs, Complete foreign a
  call : ∀ id contract payload raw, answers.call id contract payload = .ok (.ready raw) →
    called contract payload raw

/-- The logs of the jobs in progress. -/
def pending (self : WithdrawRelay Digest) : List Log :=
  match self.state with
  | .fetchMessagesSignatures assignments _ _ => assignments.map Prod.fst
  | .relayWithdraws future _ => future.jobs.map Job.log
  | _ => []

/-- The block that is reported next. -/
def block (self : WithdrawRelay Digest) : Option UInt64 :=
  match self.state with
  | .wait => none
  | .fetchMessagesSignatures _ _ block => some block
  | .relayWithdraws _ block => some block
  | .yield block => block

/-! ## Fetching -/

/-- What the call of the message of an assignment returned. -/
abbrev MessageAnswer (called : Bytes → Bytes → Prop) (assignment : Log × RelayAssignment)
    (raw : Bytes) : Prop :=
  called assignment.2.messagePayload raw

/-- What the calls of the signatures of an assignment returned. -/
abbrev SignatureAnswers (called : Bytes → Bytes → Prop) (assignment : Log × RelayAssignment)
    (raws : List Bytes) : Prop :=
  List.Forall₂ called assignment.2.signaturePayloads raws

/-- The calls that are not done, and the answers of those that are, belong to the
assignments. -/
def Fetching (called : Bytes → Bytes → Prop) (assignments : List (Log × RelayAssignment))
    (future : Fetch) : Prop :=
  future.first.Sat
    (JoinAll.Sat (fun assignment payload => payload = assignment.2.messagePayload)
      (MessageAnswer called) assignments)
    (List.Forall₂ (MessageAnswer called) assignments) ∧
  future.second.Sat
    (JoinAll.Sat
      (fun assignment => JoinAll.Sat (fun origin payload => payload = origin) called
        assignment.2.signaturePayloads)
      (SignatureAnswers called) assignments)
    (List.Forall₂ (SignatureAnswers called) assignments)

theorem fetching_fetch (called : Bytes → Bytes → Prop)
    (assignments : List (Log × RelayAssignment)) :
    Fetching called assignments (fetch assignments) :=
  ⟨JoinAll.sat_pending assignments _ fun _ => rfl,
    JoinAll.sat_pending assignments _ fun _ => JoinAll.sat_pending _ id fun _ => rfl⟩

/-- A call that is polled. -/
theorem polled_call {called : Bytes → Bytes → Prop} {call : Bytes → Poll Bytes}
    (hcall : ∀ payload raw, call payload = .ok (.ready raw) → called payload raw)
    {origin payload : Bytes} (h : payload = origin) :
    Polled (fun payload => payload = origin) (called origin) (payload, call payload) := by
  subst h
  exact ⟨fun _ => rfl, fun raw hraw => hcall payload raw hraw⟩

theorem pollFetch_spec {called : Bytes → Bytes → Prop} {call : Call → Bytes → Poll Bytes}
    {assignments : List (Log × RelayAssignment)} {future : Fetch}
    (hcall : ∀ id payload raw, call id payload = .ok (.ready raw) → called payload raw)
    (h : Fetching called assignments future) :
    Polled (Fetching called assignments)
      (fun r => List.Forall₂ (MessageAnswer called) assignments r.1 ∧
        List.Forall₂ (SignatureAnswers called) assignments r.2) (pollFetch call future) := by
  refine Join.poll_spec h ?_ ?_
  · intro calls hcalls
    refine JoinAll.poll_spec hcalls ?_
    exact fun i assignment payload hpayload => polled_call (hcall (.message i)) hpayload
  · intro calls hcalls
    refine JoinAll.poll_spec hcalls ?_
    intro i assignment calls hcalls
    refine JoinAll.poll_spec hcalls ?_
    exact fun j origin payload hpayload => polled_call (hcall (.signature i j)) hpayload

/-! ## The transactions -/

variable {app : App Digest} {init : Database} {foreign : Nat → List Log}
  {called : Address → Bytes → Bytes → Prop} {floor : Nat}

theorem isSome_of_signaturesPayload {log : Log} {assignment : Option RelayAssignment}
    (h : signaturesPayload app log = .ok assignment) : assignment.isSome = duty app log := by
  unfold signaturesPayload at h
  unfold duty
  split at h
  · cases h
  · rename_i collectedSignatures hparse
    split at h
    · rename_i hother
      obtain ⟨-, -, h⟩ := Results.exists_of_bind_eq_ok h
      cases h
      simp [hother]
    · rename_i hself
      cases h
      simp [not_not.1 hself]

/-- The assignments are for the logs that do not name another authority. -/
theorem assignments_eq_ok {logs : List Log} {result : List (Log × RelayAssignment)}
    (h : assignments app logs = .ok result) :
    result.map Prod.fst = logs.filter (duty app) ∧
      ∀ p ∈ result, signaturesPayload app p.1 = .ok (some p.2) := by
  obtain ⟨pairs, hpairs, h'⟩ := Results.exists_of_bind_eq_ok h
  cases h'
  have hall := Results.forall₂_of_mapM_eq_ok hpairs
  clear h hpairs
  induction hall with
  | nil => exact ⟨rfl, by simp⟩
  | @cons log pair logs pairs hpair _ ih =>
    obtain ⟨assignment, hassignment, hpair⟩ := Results.exists_of_bind_eq_ok hpair
    cases hpair
    have hsome := isSome_of_signaturesPayload hassignment
    cases assignment with
    | none =>
      have hduty : duty app log = false := by simpa using hsome.symm
      rw [List.filter_cons_of_neg (by simp [hduty])]
      exact ih
    | some assignment =>
      have hduty : duty app log = true := by simpa using hsome.symm
      rw [List.filter_cons_of_pos hduty]
      refine ⟨congrArg (log :: ·) ih.1, ?_⟩
      intro p hp
      rcases List.mem_cons.1 hp with rfl | hp
      · exact hassignment
      · exact ih.2 p hp

/-- What the transaction for an assignment is. -/
theorem relay_eq_ok {self : WithdrawRelay Digest} {log : Log} {message : Bytes}
    {signatures : List Signature} {p : Log × Transaction}
    (h : self.relay app log message signatures = .ok p) :
    ∃ parsed, MessageToMainnet.fromBytes message = .ok parsed ∧
      p = (log, callTransaction (BitVec.ofNat 256 app.withdrawRelayGas.toNat)
        parsed.mainnetGasPrice self.homeContract (withdrawPayload app.abi message signatures)) := by
  obtain ⟨parsed, hparsed, h⟩ := Results.exists_of_bind_eq_ok h
  exact ⟨parsed, hparsed, (Except.ok.inj h).symm⟩

/-- Every assignment has its transaction, with the message and the signatures that
were fetched for it. -/
theorem transactions_eq_ok {self : WithdrawRelay Digest} {gasPrice : UInt64} {homeBalance : U256}
    {assignments : List (Log × RelayAssignment)} {messagesRaw : List Bytes}
    {signaturesRaw : List (List Bytes)} {result : List (Log × Transaction)}
    {called : Bytes → Bytes → Prop}
    (h : self.transactions app gasPrice homeBalance assignments messagesRaw signaturesRaw
      = .ok result)
    (hmessages : List.Forall₂ (MessageAnswer called) assignments messagesRaw)
    (hsignatures : List.Forall₂ (SignatureAnswers called) assignments signaturesRaw) :
    result.map Prod.fst = assignments.map Prod.fst ∧
      ∀ p ∈ result, ∃ assignment message signatures, (p.1, assignment) ∈ assignments ∧
        Fetched app called assignment message signatures ∧
        self.relay app p.1 message signatures = .ok p := by
  unfold transactions at h
  split at h
  · cases h
  split at h
  · cases h
  obtain ⟨messages, hdecoded, h⟩ := Results.exists_of_bind_eq_ok h
  obtain ⟨signatures, hdecoded', h⟩ := Results.exists_of_bind_eq_ok h
  have hfetched : List.Forall₂ (fun assignment p =>
      Fetched app called assignment.2 p.1 p.2) assignments (messages.zip signatures) := by
    have hfirst := Results.forall₂_comp hmessages (Results.forall₂_of_mapM_eq_ok hdecoded)
    have hsecond := Results.forall₂_comp hsignatures (Results.forall₂_of_mapM_eq_ok hdecoded')
    refine (Results.forall₂_zip_right hfirst hsecond).imp ?_
    intro assignment p hp
    obtain ⟨hmessage, raws, hraws, hsigs⟩ := hp
    exact ⟨hmessage, Results.forall₂_comp hraws (Results.forall₂_of_mapM_eq_ok hsigs)⟩
  refine ⟨?_, ?_⟩
  · have hfst : result.map Prod.fst
        = (assignments.zip (messages.zip signatures)).map fun p => p.1.1 := by
      apply Results.map_eq_of_mapM_eq_ok h
      intro p q hq
      obtain ⟨parsed, -, rfl⟩ := relay_eq_ok hq
      rfl
    have hzip := List.map_fst_zip (le_of_eq hfetched.length_eq)
    rw [hfst, ← hzip, List.map_map, hzip]
    rfl
  · intro p hp
    obtain ⟨⟨⟨log, assignment⟩, message, signatures⟩, hq, hrelay⟩ :=
      Results.exists_mem_of_mapM_eq_ok h hp
    obtain ⟨parsed, -, rfl⟩ := relay_eq_ok hrelay
    exact ⟨assignment, message, signatures, (List.of_mem_zip hq).1,
      List.forall₂_zip hfetched hq, hrelay⟩

/-! ## The loop -/

/-- The invariant of the relay. -/
structure Inv (app : App Digest) (init : Database) (foreign : Nat → List Log)
    (called : Address → Bytes → Bytes → Prop) (floor : Nat) (relay : WithdrawRelay Digest)
    (shared : Shared Digest) : Prop where
  homeContract : relay.homeContract = init.homeContractAddress
  foreignContract : relay.foreignContract = init.foreignContractAddress
  progress : (spec app init foreign called).Progress init.checkedWithdrawRelay.toNat floor
    relay.logs relay.pending relay.block shared
  fetching : ∀ assignments future block,
    relay.state = .fetchMessagesSignatures assignments future block →
    (∀ p ∈ assignments, signaturesPayload app p.1 = .ok (some p.2)) ∧
      Fetching (called init.foreignContractAddress) assignments future
  futures : ∀ future block, relay.state = .relayWithdraws future block →
    (spec app init foreign called).Futures app future

/-- A relay that starts from a saved database. -/
theorem inv_createWithdrawRelay {database : Database} {shared : Shared Digest} (chainId : UInt64)
    (hhome : database.homeContractAddress = init.homeContractAddress)
    (hforeign : database.foreignContractAddress = init.foreignContractAddress)
    (hinit : init.checkedWithdrawRelay.toNat ≤ database.checkedWithdrawRelay.toNat)
    (hcovered : ((spec app init foreign called).duties init.checkedWithdrawRelay.toNat
      database.checkedWithdrawRelay.toNat).Subperm ((shared.done .withdrawRelay).map Job.log)) :
    Inv app init foreign called database.checkedWithdrawRelay.toNat
      (createWithdrawRelay app database chainId) shared := by
  refine ⟨hhome, hforeign, Spec.progress_start ?_ hinit hcovered, fun _ _ _ h => (by cases h),
    fun _ _ h => by cases h⟩
  show collectedSignaturesFilter app.abi [database.foreignContractAddress] = _
  rw [hforeign]
  rfl

/-- The polls of the other relays. -/
theorem Inv.frame {relay : WithdrawRelay Digest} {shared shared' : Shared Digest}
    (h : Inv app init foreign called floor relay shared)
    (hdone : shared'.done .withdrawRelay = shared.done .withdrawRelay) :
    Inv app init foreign called floor relay shared' :=
  ⟨h.homeContract, h.foreignContract, h.progress.frame hdone, h.fetching, h.futures⟩

theorem Inv.setFloor {relay : WithdrawRelay Digest} {shared : Shared Digest}
    (h : Inv app init foreign called floor relay shared) {floor' : Nat} (hfloor : floor ≤ floor')
    (hle : floor' ≤ relay.logs.position) : Inv app init foreign called floor' relay shared :=
  ⟨h.homeContract, h.foreignContract,
    h.progress.setFloor (h.progress.init_le.trans hfloor) hle, h.fetching, h.futures⟩

/-- The state in which the messages and the signatures are fetched. -/
theorem awaitFetch_sat {start shared : Shared Digest} {answers : Answers Digest}
    {logs : LogStream} {assignments : List (Log × RelayAssignment)} {future : Fetch}
    {block chainId : UInt64} (hanswers : answers.Honest foreign called)
    (hstep : (spec app init foreign called).Step app start shared)
    (hprogress : (spec app init foreign called).Progress init.checkedWithdrawRelay.toNat floor
      logs (assignments.map Prod.fst) (some block) shared)
    (hpayloads : ∀ p ∈ assignments, signaturesPayload app p.1 = .ok (some p.2))
    (hfetch : Fetching (called init.foreignContractAddress) assignments future) :
    (awaitFetch app ⟨logs, .fetchMessagesSignatures assignments future block,
      init.foreignContractAddress, init.homeContractAddress, chainId⟩ shared answers assignments
      future block).Sat
      ((spec app init foreign called).Kept app (Inv app init foreign called floor) start)
      ((spec app init foreign called).Post app init.checkedWithdrawRelay.toNat floor
        (Inv app init foreign called floor) WithdrawRelay.logs start) := by
  have hpolled := pollFetch_spec
    (fun id payload raw hraw => hanswers.call id init.foreignContractAddress payload raw hraw)
    hfetch
  have hinv : ∀ future, Fetching (called init.foreignContractAddress) assignments future →
      Inv app init foreign called floor ⟨logs, .fetchMessagesSignatures assignments future block,
        init.foreignContractAddress, init.homeContractAddress, chainId⟩ shared := by
    intro future hfuture
    refine ⟨rfl, rfl, hprogress, ?_, fun _ _ h => (by cases h)⟩
    intro assignments' future' block' heq
    cases heq
    exact ⟨hpayloads, hfuture⟩
  unfold awaitFetch
  dsimp only
  split
  · exact Spec.post_nothing hstep (hinv future hfetch) (by simp)
  · refine tryReady_sat ?_ ?_ ?_
    · exact fun e _ => Spec.post_error hstep e
    · intro hp
      rw [withContext_eq_ok] at hp
      exact Spec.post_nothing hstep (hinv _ (hpolled.1 hp)) (by simp)
    · intro raws hp
      rw [withContext_eq_ok] at hp
      obtain ⟨hmessages, hsignatures⟩ := hpolled.2 raws hp
      split
      · exact Spec.post_error hstep _
      · rename_i relays hrelays
        obtain ⟨hlogs, hcalls⟩ := transactions_eq_ok hrelays hmessages hsignatures
        refine ⟨hstep, rfl, rfl, ?_, fun _ _ _ h => (by cases h), ?_⟩
        · simp only [pending, WithdrawRelay.block, Spec.jobs_sendAll, hlogs]
          exact hprogress
        · intro future' block' heq
          cases heq
          apply Spec.futures_sendAll
          intro p hp
          obtain ⟨assignment, message, signatures, hmem, hfetched, hrelay⟩ := hcalls p hp
          obtain ⟨parsed, -, htx⟩ := relay_eq_ok hrelay
          refine ⟨assignment, message, signatures, hpayloads _ hmem, hfetched, ?_⟩
          rw [htx]
          exact calls_callTransaction _ _ _ _ _ _

theorem body_sat {start : Shared Digest} {self : WithdrawRelay Digest × Shared Digest}
    {answers : Answers Digest} (hanswers : answers.Honest foreign called)
    (h : (spec app init foreign called).Kept app (Inv app init foreign called floor) start self) :
    (body app self answers).Sat
      ((spec app init foreign called).Kept app (Inv app init foreign called floor) start)
      ((spec app init foreign called).Post app init.checkedWithdrawRelay.toNat floor
        (Inv app init foreign called floor) logs start) := by
  obtain ⟨⟨logs, state, foreignContract, homeContract, chainId⟩, shared⟩ := self
  obtain ⟨hstep, hhome, hforeign, hprogress, hfetching, hfutures⟩ := h
  dsimp only at hstep hhome hforeign
  subst hhome hforeign
  cases state with
  | wait =>
    rw [body]
    apply Spec.awaitItem_sat hanswers.logs hstep hprogress
    · exact fun logs hlogs =>
        ⟨rfl, rfl, hlogs, fun _ _ _ h => (by cases h), fun _ _ h => (by cases h)⟩
    · intro item logs hitem
      split
      · exact Spec.post_error hstep _
      · rename_i assignments hassignments
        obtain ⟨hlogs, hpayloads⟩ := assignments_eq_ok hassignments
        refine ⟨hstep, rfl, rfl, ?_, ?_, fun _ _ h => (by cases h)⟩
        · simp only [pending, block, hlogs]
          exact hitem
        · intro assignments' future block heq
          cases heq
          exact ⟨hpayloads, fetching_fetch _ _⟩
  | fetchMessagesSignatures assignments future block =>
    obtain ⟨hpayloads, hfetch⟩ := hfetching assignments future block rfl
    rw [body]
    exact awaitFetch_sat hanswers hstep hprogress hpayloads hfetch
  | relayWithdraws future block =>
    rw [body]
    apply Spec.awaitBatch_sat hstep (hfutures future block rfl) hprogress
    · intro future' shared' hfuture' hprogress'
      refine ⟨rfl, rfl, hprogress', fun _ _ _ h => (by cases h), ?_⟩
      intro f b heq
      cases heq
      exact hfuture'
    · exact fun shared' hprogress' =>
        ⟨rfl, rfl, hprogress', fun _ _ _ h => (by cases h), fun _ _ h => (by cases h)⟩
  | yield block =>
    cases block with
    | none =>
      exact ⟨hstep, rfl, rfl, hprogress, fun _ _ _ h => (by cases h), fun _ _ h => (by cases h)⟩
    | some block =>
      exact Spec.post_event hstep ⟨rfl, rfl, hprogress.clearBlock, fun _ _ _ h => (by cases h),
        fun _ _ h => (by cases h)⟩ rfl hprogress

/-- The specification of `WithdrawRelay::poll`. -/
theorem poll_spec {relay : WithdrawRelay Digest} {shared : Shared Digest}
    {script : List (Answers Digest)}
    (hscript : ∀ answers ∈ script, answers.Honest foreign called)
    (h : Inv app init foreign called floor relay shared) :
    (spec app init foreign called).Post app init.checkedWithdrawRelay.toNat floor
      (Inv app init foreign called floor) logs shared (poll app (relay, shared) script).1
      (poll app (relay, shared) script).2 := by
  refine run_sat
    (P := (spec app init foreign called).Kept app (Inv app init foreign called floor) shared) ?_
    script (relay, shared) ?_ ⟨Spec.Step.refl shared, h⟩
  · exact fun s hs => Spec.post_nothing hs.1 hs.2 (by simp)
  · exact fun answers hmem s hs => body_sat (hscript answers hmem) hs

end WithdrawRelay

end PoaBridge
