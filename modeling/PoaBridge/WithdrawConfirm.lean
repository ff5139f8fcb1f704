import PoaBridge.Relay

/-!
# The confirmation of withdrawals

`bridge/src/bridge/withdraw_confirm.rs`: every `Withdraw` log of
`ForeignBridge` is turned into a message, the message is signed, and the
signature is submitted to `ForeignBridge`.

`poll_spec` is what the rest of the process uses: a poll keeps the invariant, and
a block that it reports has no withdrawal left to confirm.
-/

namespace PoaBridge

open PollLoop

/-- `withdraws_filter`. -/
def withdrawsFilter (abi : Abi) (address : Address) : Filter :=
  web3Filter abi.withdrawTopic [address]

/-- The message of a log: `MessageToMainnet::from_log(log)?.to_bytes()`. -/
def withdrawMessage (abi : Abi) (log : Log) : Except Error Bytes :=
  match MessageToMainnet.fromLog abi log with
  | .error e => .error e
  | .ok message => .ok message.toBytes

theorem withdrawMessage_eq_ok {abi : Abi} {log : Log} {bytes : Bytes}
    (h : withdrawMessage abi log = .ok bytes) :
    ∃ message, MessageToMainnet.fromLog abi log = .ok message ∧ bytes = message.toBytes := by
  unfold withdrawMessage at h
  split at h
  · cases h
  · rename_i message hmessage
    exact ⟨message, hmessage, (Except.ok.inj h).symm⟩

/-- `withdraw_submit_signature_payload`, which asserts the length. -/
def withdrawSubmitSignaturePayload (abi : Abi) (withdrawMessage signature : Bytes) :
    Except Error Bytes :=
  if withdrawMessage.length = messageLength then
    .ok (abi.submitSignatureInput signature withdrawMessage)
  else .error (.panic "ForeignBridge never accepts messages with len != 116 bytes; qed")

variable {Digest : Type}

/-- `WithdrawConfirmState`. -/
inductive WithdrawConfirmState (Digest : Type) where
  | wait
  | confirmWithdraws (future : Batch Digest) (block : UInt64)
  | yield (block : Option UInt64)

structure WithdrawConfirm (Digest : Type) where
  logs : LogStream
  state : WithdrawConfirmState Digest
  foreignContract : Address
  foreignChainId : UInt64

/-- `create_withdraw_confirm`. -/
def createWithdrawConfirm (app : App Digest) (init : Database) (foreignChainId : UInt64) :
    WithdrawConfirm Digest where
  logs := logStream {
    after := init.checkedWithdrawConfirm
    confirmations := app.foreign.requiredConfirmations
    filter := withdrawsFilter app.abi init.foreignContractAddress }
  state := .wait
  foreignContract := init.foreignContractAddress
  foreignChainId := foreignChainId

namespace WithdrawConfirm

/-- What the node answers in one iteration. -/
structure Answers (Digest : Type) where
  logs : List LogStream.Answers
  future : Batch.Script Digest

/-- The messages of the logs.  Every message stays with its log. -/
def messages (app : App Digest) (logs : List Log) : Except Error (List (Log × Bytes)) :=
  logs.mapM fun log => do
    infoTransactionHash app log
    let message ← withdrawMessage app.abi log
    pure (log, message)

/-- The signatures of the messages. -/
def signatures (app : App Digest) (messages : List (Log × Bytes)) :
    Except Error (List (Log × Bytes × Bytes)) :=
  messages.mapM fun (log, message) =>
    match app.wallet.sign app.foreign.account (ethDataHash app.keccak256 message) with
    | none => .error .signError
    | some signature => .ok (log, message, signature)

/-- The transactions that submit the signatures. -/
def confirmations (app : App Digest) (self : WithdrawConfirm Digest) (gasPrice : UInt64)
    (signatures : List (Log × Bytes × Bytes)) : Except Error (List (Log × Transaction)) :=
  signatures.mapM fun (log, message, signature) => do
    let payload ← withdrawSubmitSignaturePayload app.abi message signature
    pure (log, callTransaction (BitVec.ofNat 256 app.withdrawConfirmGas.toNat)
      (BitVec.ofNat 256 gasPrice.toNat) self.foreignContract payload)

/-- The transactions for the logs of an item, if the balance allows them. -/
def transactions (app : App Digest) (self : WithdrawConfirm Digest) (gasPrice : UInt64)
    (foreignBalance : U256) (item : LogStreamItem) : Except Error (List (Log × Transaction)) := do
  let messages ← messages app item.logs
  let signatures ← signatures app messages
  if foreignBalance.toNat < balanceRequired app.withdrawConfirmGas gasPrice signatures.length then
    .error .insufficientFunds
  else self.confirmations app gasPrice signatures

/-- One iteration of the loop in `WithdrawConfirm::poll`. -/
def body (app : App Digest) (self : WithdrawConfirm Digest × Shared Digest)
    (answers : Answers Digest) :
    Flow (WithdrawConfirm Digest × Shared Digest) (Poll (Option BridgeChecked)) :=
  let (relay, shared) := self
  match relay.state with
  | .wait =>
    match shared.foreignBalance with
    | none => .ret self (.ok .notReady)
    | some foreignBalance =>
      awaitItem "polling foreign for withdrawals" relay.logs answers.logs shared
        (fun logs => { relay with logs := logs }) fun item relay =>
          match relay.transactions app shared.foreignGasPrice foreignBalance item with
          | .error e => .ret (relay, shared) (.error e)
          | .ok confirmations =>
            let future := sendAll app.foreign.account relay.foreignChainId confirmations
            .next ({ relay with state := .confirmWithdraws future item.toBlock }, shared)
  | .confirmWithdraws future block =>
    awaitBatch app .withdrawConfirm .foreign "sending signature submissions to foreign" future
      answers.future shared (fun future => { relay with state := .confirmWithdraws future block })
      { relay with state := .yield (some block) }
  | .yield none => .next ({ relay with state := .wait }, shared)
  | .yield (some block) =>
    .ret ({ relay with state := .yield none }, shared)
      (.ok (.ready (some (.withdrawConfirm block))))

/-- The iteration in which the stream emits an item. -/
theorem body_of_item {app : App Digest} {relay : WithdrawConfirm Digest} {shared : Shared Digest}
    {answers : Answers Digest} {balance : U256} {logs : LogStream} {item : LogStreamItem}
    (hwait : relay.state = .wait) (hbalance : shared.foreignBalance = some balance)
    (hitem : relay.logs.poll answers.logs = (logs, .ok (.ready (some item)))) :
    body app (relay, shared) answers
      = match { relay with logs := logs }.transactions app shared.foreignGasPrice balance item with
        | .error e => .ret ({ relay with logs := logs }, shared) (.error e)
        | .ok confirmations => .next ({ relay with
            logs := logs
            state := .confirmWithdraws (sendAll app.foreign.account relay.foreignChainId
              confirmations) item.toBlock }, shared) := by
  obtain ⟨stream, state, contract, chainId⟩ := relay
  dsimp only at hwait hitem
  subst hwait
  rw [body]
  dsimp only [awaitItem]
  rw [hbalance, hitem]
  rfl

/-- `WithdrawConfirm::poll`. -/
def poll (app : App Digest) (self : WithdrawConfirm Digest × Shared Digest)
    (script : List (Answers Digest)) :
    (WithdrawConfirm Digest × Shared Digest) × Poll (Option BridgeChecked) :=
  run (body app) (.ok .notReady) self script

/-! ## What the relay is for -/

/-- The future submits a signature of the message of the log. -/
def Relays (app : App Digest) (foreignContract : Address) (log : Log) (future : NonceCheck) :
    Prop :=
  ∃ message signature, withdrawMessage app.abi log = .ok message ∧
    app.wallet.sign app.foreign.account (ethDataHash app.keccak256 message) = some signature ∧
    Calls app.foreign.account foreignContract (app.abi.submitSignatureInput signature message)
      future

/-- Every withdrawal of the foreign chain has to be confirmed. -/
def spec (app : App Digest) (init : Database) (foreign : Nat → List Log) : Spec where
  relay := .withdrawConfirm
  blocks := foreign
  filter := withdrawsFilter app.abi init.foreignContractAddress
  duty := fun _ => true
  relays := Relays app init.foreignContractAddress

/-- The logs of the jobs in progress. -/
def pending (self : WithdrawConfirm Digest) : List Log :=
  match self.state with
  | .confirmWithdraws future _ => future.jobs.map Job.log
  | _ => []

/-- The block that is reported next. -/
def block (self : WithdrawConfirm Digest) : Option UInt64 :=
  match self.state with
  | .wait => none
  | .confirmWithdraws _ block => some block
  | .yield block => block

/-- The invariant of the relay. -/
structure Inv (app : App Digest) (init : Database) (foreign : Nat → List Log) (floor : Nat)
    (relay : WithdrawConfirm Digest) (shared : Shared Digest) : Prop where
  contract : relay.foreignContract = init.foreignContractAddress
  progress : (spec app init foreign).Progress init.checkedWithdrawConfirm.toNat floor relay.logs
    relay.pending relay.block shared
  futures : ∀ future block, relay.state = .confirmWithdraws future block →
    (spec app init foreign).Futures app future

variable {app : App Digest} {init : Database} {foreign : Nat → List Log} {floor : Nat}

/-- A relay that starts from a saved database. -/
theorem inv_createWithdrawConfirm {database : Database} {shared : Shared Digest}
    (chainId : UInt64)
    (hforeign : database.foreignContractAddress = init.foreignContractAddress)
    (hinit : init.checkedWithdrawConfirm.toNat ≤ database.checkedWithdrawConfirm.toNat)
    (hcovered : ((spec app init foreign).duties init.checkedWithdrawConfirm.toNat
      database.checkedWithdrawConfirm.toNat).Subperm
        ((shared.done .withdrawConfirm).map Job.log)) :
    Inv app init foreign database.checkedWithdrawConfirm.toNat
      (createWithdrawConfirm app database chainId) shared := by
  refine ⟨hforeign, Spec.progress_start ?_ hinit hcovered, fun _ _ h => by cases h⟩
  show withdrawsFilter app.abi database.foreignContractAddress = _
  rw [hforeign]
  rfl

/-- The polls of the other relays. -/
theorem Inv.frame {relay : WithdrawConfirm Digest} {shared shared' : Shared Digest}
    (h : Inv app init foreign floor relay shared)
    (hdone : shared'.done .withdrawConfirm = shared.done .withdrawConfirm) :
    Inv app init foreign floor relay shared' :=
  ⟨h.contract, h.progress.frame hdone, h.futures⟩

theorem Inv.setFloor {relay : WithdrawConfirm Digest} {shared : Shared Digest}
    (h : Inv app init foreign floor relay shared) {floor' : Nat} (hfloor : floor ≤ floor')
    (hle : floor' ≤ relay.logs.position) : Inv app init foreign floor' relay shared :=
  ⟨h.contract, h.progress.setFloor (h.progress.init_le.trans hfloor) hle, h.futures⟩

theorem messages_eq_ok {logs : List Log} {result : List (Log × Bytes)}
    (h : messages app logs = .ok result) :
    result.map Prod.fst = logs ∧ ∀ p ∈ result, withdrawMessage app.abi p.1 = .ok p.2 := by
  have hbody : ∀ log p, (do
      infoTransactionHash app log
      let message ← withdrawMessage app.abi log
      pure (log, message) : Except Error (Log × Bytes)) = .ok p →
      p.1 = log ∧ withdrawMessage app.abi log = .ok p.2 := by
    intro log p hp
    obtain ⟨-, -, hp⟩ := Results.exists_of_bind_eq_ok hp
    obtain ⟨message, hmessage, hp⟩ := Results.exists_of_bind_eq_ok hp
    cases hp
    exact ⟨rfl, hmessage⟩
  refine ⟨?_, ?_⟩
  · rw [Results.map_eq_of_mapM_eq_ok (k := id) h fun log p hp => (hbody log p hp).1, List.map_id]
  · intro p hp
    obtain ⟨log, -, hp⟩ := Results.exists_mem_of_mapM_eq_ok h hp
    obtain ⟨hlog, hmessage⟩ := hbody log p hp
    rw [hlog]
    exact hmessage

theorem signatures_eq_ok {messages : List (Log × Bytes)} {result : List (Log × Bytes × Bytes)}
    (h : signatures app messages = .ok result) :
    result.map (fun p => (p.1, p.2.1)) = messages ∧
      ∀ p ∈ result, app.wallet.sign app.foreign.account
        (ethDataHash app.keccak256 p.2.1) = some p.2.2 := by
  have hbody : ∀ (m : Log × Bytes) (p : Log × Bytes × Bytes),
      (match app.wallet.sign app.foreign.account (ethDataHash app.keccak256 m.2) with
        | none => .error .signError
        | some signature => .ok (m.1, m.2, signature) : Except Error _) = .ok p →
      (p.1, p.2.1) = m ∧ app.wallet.sign app.foreign.account
        (ethDataHash app.keccak256 p.2.1) = some p.2.2 := by
    intro m p hp
    split at hp
    · cases hp
    · rename_i signature hsign
      cases hp
      exact ⟨rfl, hsign⟩
  refine ⟨?_, ?_⟩
  · rw [Results.map_eq_of_mapM_eq_ok (k := id) h fun m p hp => (hbody m p hp).1, List.map_id]
  · intro p hp
    obtain ⟨m, -, hp⟩ := Results.exists_mem_of_mapM_eq_ok h hp
    exact (hbody m p hp).2

theorem confirmations_eq_ok {self : WithdrawConfirm Digest} {gasPrice : UInt64}
    {signatures : List (Log × Bytes × Bytes)} {result : List (Log × Transaction)}
    (h : self.confirmations app gasPrice signatures = .ok result) (chainId : UInt64) :
    result.map Prod.fst = signatures.map Prod.fst ∧
      ∀ p ∈ result, ∃ s ∈ signatures, s.1 = p.1 ∧
        Calls app.foreign.account self.foreignContract
          (app.abi.submitSignatureInput s.2.2 s.2.1)
          (sendTransactionWithNonce app.foreign.account chainId p.2) := by
  refine ⟨?_, ?_⟩
  · apply Results.map_eq_of_mapM_eq_ok h
    intro s p hp
    obtain ⟨payload, -, hp⟩ := Results.exists_of_bind_eq_ok hp
    cases hp
    rfl
  · intro p hp
    obtain ⟨s, hs, hp⟩ := Results.exists_mem_of_mapM_eq_ok h hp
    obtain ⟨payload, hpayload, hp⟩ := Results.exists_of_bind_eq_ok hp
    cases hp
    unfold withdrawSubmitSignaturePayload at hpayload
    split at hpayload
    · cases hpayload
      exact ⟨s, hs, rfl, calls_callTransaction _ _ _ _ _ _⟩
    · cases hpayload

/-- Every log of the item has its transaction, and the transaction submits a
signature for it. -/
theorem transactions_eq_ok {self : WithdrawConfirm Digest} {gasPrice : UInt64}
    {foreignBalance : U256} {item : LogStreamItem} {result : List (Log × Transaction)}
    (h : self.transactions app gasPrice foreignBalance item = .ok result) (chainId : UInt64) :
    result.map Prod.fst = item.logs ∧
      ∀ p ∈ result, Relays app self.foreignContract p.1
        (sendTransactionWithNonce app.foreign.account chainId p.2) := by
  obtain ⟨messages, hmessages, h⟩ := Results.exists_of_bind_eq_ok h
  obtain ⟨signatures, hsignatures, h⟩ := Results.exists_of_bind_eq_ok h
  obtain ⟨hlogs, hmessage⟩ := messages_eq_ok hmessages
  obtain ⟨hpairs, hsignature⟩ := signatures_eq_ok hsignatures
  split at h
  · cases h
  · obtain ⟨hfst, hcalls⟩ := confirmations_eq_ok h chainId
    refine ⟨?_, ?_⟩
    · rw [hfst, ← hlogs, ← hpairs, List.map_map]
      rfl
    · intro p hp
      obtain ⟨s, hs, hlog, hcall⟩ := hcalls p hp
      have hmem : (s.1, s.2.1) ∈ messages := by
        rw [← hpairs]
        exact List.mem_map.2 ⟨s, hs, rfl⟩
      rw [← hlog]
      exact ⟨s.2.1, s.2.2, hmessage _ hmem, hsignature s hs, hcall⟩

theorem body_sat {start : Shared Digest} {self : WithdrawConfirm Digest × Shared Digest}
    {answers : Answers Digest} (hanswers : ∀ a ∈ answers.logs, Complete foreign a)
    (h : (spec app init foreign).Kept app (Inv app init foreign floor) start self) :
    (body app self answers).Sat
      ((spec app init foreign).Kept app (Inv app init foreign floor) start)
      ((spec app init foreign).Post app init.checkedWithdrawConfirm.toNat floor
        (Inv app init foreign floor) logs start) := by
  obtain ⟨⟨logs, state, contract, chainId⟩, shared⟩ := self
  obtain ⟨hstep, hcontract, hprogress, hfutures⟩ := h
  dsimp only at hstep hcontract
  subst hcontract
  cases state with
  | wait =>
    rw [body]
    dsimp only
    split
    · exact Spec.post_nothing hstep ⟨rfl, hprogress, hfutures⟩ (by simp)
    · apply Spec.awaitItem_sat hanswers hstep hprogress
      · exact fun logs hlogs => ⟨rfl, hlogs, fun _ _ h => (by cases h)⟩
      · intro item logs hitem
        split
        · exact Spec.post_error hstep _
        · rename_i result hresult
          obtain ⟨hlogs, hrelays⟩ := transactions_eq_ok hresult chainId
          refine ⟨hstep, rfl, ?_, ?_⟩
          · simp only [spec, List.filter_true] at hitem
            simp only [pending, block, Spec.jobs_sendAll, hlogs]
            exact hitem
          · intro future block heq
            cases heq
            exact Spec.futures_sendAll hrelays
  | confirmWithdraws future block =>
    rw [body]
    apply Spec.awaitBatch_sat hstep (hfutures future block rfl) hprogress
    · intro future' shared' hfuture' hprogress'
      refine ⟨rfl, hprogress', ?_⟩
      intro f b heq
      cases heq
      exact hfuture'
    · exact fun shared' hprogress' => ⟨rfl, hprogress', fun _ _ h => (by cases h)⟩
  | yield block =>
    cases block with
    | none => exact ⟨hstep, rfl, hprogress, fun _ _ h => (by cases h)⟩
    | some block =>
      exact Spec.post_event hstep ⟨rfl, hprogress.clearBlock, fun _ _ h => (by cases h)⟩ rfl
        hprogress

/-- The specification of `WithdrawConfirm::poll`. -/
theorem poll_spec {relay : WithdrawConfirm Digest} {shared : Shared Digest}
    {script : List (Answers Digest)}
    (hscript : ∀ answers ∈ script, ∀ a ∈ answers.logs, Complete foreign a)
    (h : Inv app init foreign floor relay shared) :
    (spec app init foreign).Post app init.checkedWithdrawConfirm.toNat floor
      (Inv app init foreign floor) logs shared (poll app (relay, shared) script).1
      (poll app (relay, shared) script).2 := by
  refine run_sat (P := (spec app init foreign).Kept app (Inv app init foreign floor) shared) ?_
    script (relay, shared) ?_ ⟨Spec.Step.refl shared, h⟩
  · exact fun s hs => Spec.post_nothing hs.1 hs.2 (by simp)
  · exact fun answers hmem s hs => body_sat (hscript answers hmem) hs

end WithdrawConfirm

end PoaBridge
