import PoaBridge.BatchCost

/-!
# Panics

An answer of a node is data, and it can also be an error that the client library
reports.  What the relays make of it are values, `NotReady` and errors; but three of
their helpers unwrap the transaction hash of a log, and one asserts the length of
a message.

`Harmless` says of an iteration, in terms of the answers, that none of these is
reached with the wrong data.  `polls_harmless` is the result: in any state that a
relay reaches, a poll does not panic if and only if its iterations are harmless.
-/

namespace PoaBridge

open PollLoop

variable {Digest : Type}

/-- The process panics. -/
def Panics {α : Type} (result : Except Error α) : Prop :=
  ∃ message, result = .error (.panic message)

section Panics

variable {α β : Type}

theorem not_panics_ok (a : α) : ¬ Panics (.ok a : Except Error α) := by
  intro h
  obtain ⟨message, h⟩ := h
  cases h

theorem panics_error_iff {e : Error} :
    Panics (.error e : Except Error α) ↔ ∃ message, e = .panic message := by
  refine exists_congr fun message => ?_
  exact ⟨Except.error.inj, congrArg _⟩

/-- An error that is passed on. -/
theorem not_panics_of_error {result : Except Error α} {e : Error} (h : ¬ Panics result)
    (he : result = .error e) : ¬ Panics (.error e : Except Error β) := by
  rw [panics_error_iff]
  rw [he, panics_error_iff] at h
  exact h

theorem panics_map {result : Except Error α} {g : α → β} :
    Panics (result.map g) ↔ Panics result := by
  cases result with
  | error e => exact panics_error_iff.trans panics_error_iff.symm
  | ok a => exact iff_of_false (not_panics_ok _) (not_panics_ok _)

theorem panics_bind_iff {result : Except Error α} {next : α → Except Error β} :
    Panics (result >>= next) ↔ Panics result ∨ ∃ a, result = .ok a ∧ Panics (next a) := by
  cases result with
  | error e =>
    refine (panics_error_iff.trans panics_error_iff.symm).trans (or_iff_left ?_).symm
    simp
  | ok a =>
    refine (or_iff_right (not_panics_ok a)).trans ?_ |>.symm
    simp only [Except.ok.injEq, exists_eq_left']
    rfl

theorem panics_bind_pure_iff {result : Except Error α} {g : α → β} :
    Panics (result >>= fun a => pure (g a)) ↔ Panics result := by
  rw [panics_bind_iff]
  apply or_iff_left
  intro h
  obtain ⟨a, -, h⟩ := h
  exact not_panics_ok (g a) h

theorem panics_withContext {context : String} {result : Poll α} :
    Panics (withContext context result) ↔ Panics result := by
  cases result with
  | error e =>
    unfold withContext
    rw [panics_error_iff, panics_error_iff]
    cases e <;> simp [Error.context]
  | ok a => exact Iff.rfl

/-- The first element that is not good is bad. -/
def FirstFails (good bad : α → Prop) (xs : List α) : Prop :=
  ∃ before x after, xs = before ++ x :: after ∧ (∀ y ∈ before, good y) ∧ bad x

theorem panics_mapM_iff {f : α → Except Error β} {good bad : α → Prop}
    (hgood : ∀ x, (∃ b, f x = .ok b) ↔ good x) (hbad : ∀ x, Panics (f x) ↔ bad x) (xs : List α) :
    Panics (xs.mapM f) ↔ FirstFails good bad xs := by
  constructor
  · intro h
    obtain ⟨message, h⟩ := h
    obtain ⟨before, x, after, hxs, hbefore, hx⟩ := Results.mapM_eq_error_iff.1 h
    exact ⟨before, x, after, hxs, fun y hy => (hgood y).1 (hbefore y hy), (hbad x).1 ⟨_, hx⟩⟩
  · intro h
    obtain ⟨before, x, after, hxs, hbefore, hx⟩ := h
    obtain ⟨message, hx⟩ := (hbad x).2 hx
    exact ⟨message, Results.mapM_eq_error_iff.2
      ⟨before, x, after, hxs, fun y hy => (hgood y).2 (hbefore y hy), hx⟩⟩

theorem not_panics_mapM {f : α → Except Error β} {xs : List α} (h : ∀ x ∈ xs, ¬ Panics (f x)) :
    ¬ Panics (xs.mapM f) := by
  intro hpanics
  obtain ⟨message, hpanics⟩ := hpanics
  obtain ⟨before, x, after, hxs, -, hx⟩ := Results.mapM_eq_error_iff.1 hpanics
  exact h x (by simp [hxs]) ⟨message, hx⟩

end Panics

/-! ## What is below the relays -/

/-- The interval and the node answer with a value or an error. -/
structure LogStream.Answers.WellFormed (answers : LogStream.Answers) : Prop where
  interval : ¬ Panics answers.interval
  blockNumber : ¬ Panics answers.blockNumber
  logs : ∀ filter fromBlock toBlock, ¬ Panics (answers.logs filter fromBlock toBlock)

theorem LogStream.not_panics_poll {script : List LogStream.Answers}
    (h : ∀ answers ∈ script, answers.WellFormed) (self : LogStream) :
    ¬ Panics (self.poll script).2 := by
  refine @run_sat _ _ _ body (.ok .notReady) (fun _ => True) (fun _ r => ¬ Panics r)
    (fun _ _ => not_panics_ok _) script self (fun answers hmem s _ => ?_) trivial
  have hanswers := h answers hmem
  unfold body
  split
  · exact tryStream_sat (fun e => not_panics_of_error hanswers.interval)
      (fun _ => not_panics_ok _) (fun _ => not_panics_ok _) fun _ _ => trivial
  · refine tryReady_sat (fun e => not_panics_of_error hanswers.blockNumber)
      (fun _ => not_panics_ok _) fun blockNumber _ => ?_
    dsimp only
    split <;> trivial
  · exact tryReady_sat (fun e => not_panics_of_error (hanswers.logs _ _ _))
      (fun _ => not_panics_ok _) fun _ _ => trivial
  · trivial
  · exact not_panics_ok _

@[inherit_doc LogStream.Answers.WellFormed]
structure NonceCheck.Answers.WellFormed (answers : NonceCheck.Answers Digest) : Prop where
  nonce : ¬ Panics answers.nonce
  send : ∀ raw, ¬ Panics (answers.send raw)

/-- A transaction with a signature of the keystore can be encoded. -/
def Wallet.EncodesSigned (wallet : Wallet Digest) : Prop :=
  ∀ account tx chainId signature,
    wallet.sign account (wallet.transactionHash tx chainId) = some signature →
    wallet.encode tx signature chainId ≠ none

theorem not_panics_prepareRawTransaction {wallet : Wallet Digest} (h : wallet.EncodesSigned)
    (account : Address) (chainId : UInt64) (tx : Transaction) :
    ¬ Panics (prepareRawTransaction wallet account chainId tx) := by
  unfold prepareRawTransaction
  split
  · rw [panics_error_iff]
    simp
  · rename_i signature hsign
    split
    · rename_i hencode
      exact absurd hencode (h account tx chainId signature hsign)
    · exact not_panics_ok _

theorem NonceCheck.not_panics_poll {wallet : Wallet Digest} (hwallet : wallet.EncodesSigned)
    {script : List (NonceCheck.Answers Digest)} (h : ∀ answers ∈ script, answers.WellFormed)
    (self : NonceCheck × U256) : ¬ Panics (poll wallet self script).2 := by
  refine @run_sat _ _ _ (body wallet) (.ok .notReady) (fun _ => True) (fun _ r => ¬ Panics r)
    (fun _ _ => not_panics_ok _) script self (fun answers hmem s _ => ?_) trivial
  have hanswers := h answers hmem
  unfold body
  dsimp only
  split
  · trivial
  · trivial
  · exact tryReady_sat (fun e => not_panics_of_error hanswers.nonce)
      (fun _ => not_panics_ok _) fun _ _ => trivial
  · split
    · trivial
    · rename_i e herror
      exact not_panics_of_error (not_panics_prepareRawTransaction hwallet _ _ _) herror
  · split
    · exact not_panics_ok _
    · exact not_panics_ok _
    · split
      · trivial
      · split
        · exact not_panics_ok _
        · rw [Flow.sat_ret, panics_error_iff]
          simp
    · rename_i e _ herror
      exact not_panics_of_error (hanswers.send _) herror

/-- The answers for the futures of a batch. -/
def Batch.Script.WellFormed (script : Batch.Script Digest) : Prop :=
  ∀ p ∈ script, ∀ answers ∈ p.2, answers.WellFormed

theorem Batch.not_panics_poll {app : App Digest} (hwallet : app.wallet.EncodesSigned)
    {script : Batch.Script Digest} (h : script.WellFormed) (relay : Relay) (side : Side)
    (self : Batch Digest × Shared Digest) : ¬ Panics (Batch.poll app relay side self script).2 := by
  intro hpanics
  obtain ⟨message, hpanics⟩ := hpanics
  obtain ⟨answers, hmem, job, future, shared, herror⟩ := Collect.exists_of_poll_eq_error hpanics
  have hfuture := NonceCheck.not_panics_poll hwallet (h answers hmem) (future, shared.nonce side)
  apply hfuture
  refine ⟨message, ?_⟩
  unfold pollJob at herror
  dsimp only at herror
  split at herror
  · rename_i hash hready
    rw [hready] at herror
    cases herror
  · exact herror

/-! ## The iterations of a relay -/

/-- An iteration goes well if and only if `C` holds. -/
def Decides {σ α : Type} (C : Prop) (flow : Flow σ (Poll α)) : Prop :=
  flow.Sat (fun _ => C) fun _ r => ¬ Panics r ↔ C

section Decides

variable {σ α β : Type} {C : Prop}

theorem decides_ret {s : σ} {result : Poll α} (h : ¬ Panics result) (hC : C) :
    Decides C (.ret s result) :=
  iff_of_true h hC

/-- An error that was computed in the iteration ends it. -/
theorem decides_of_error {s : σ} {result : Except Error β} {e : Error}
    (h : result = .error e) : Decides (¬ Panics result) (.ret s (.error e : Poll α)) := by
  rw [h]
  exact not_congr (panics_error_iff.trans panics_error_iff.symm)

/-- The rule for a call whose iterations decide. -/
theorem not_panics_run_iff {ι : Type} {body : σ → ι → Flow σ (Poll α)} {P : σ → Prop}
    {C : σ → ι → Prop} {script : List ι} {s : σ}
    (hkept : ∀ i ∈ script, ∀ t, P t → (body t i).Sat P fun _ _ => True)
    (hdecides : ∀ i ∈ script, ∀ t, P t → Decides (C t i) (body t i)) (hs : P s) :
    ¬ Panics (run body (.ok .notReady) s script).2 ↔ Along body C s script :=
  @run_iff_along _ _ _ body (.ok .notReady) P (fun _ r => ¬ Panics r) C
    (fun _ _ => not_panics_ok _) script s
    (fun i hi t ht => ((hkept i hi t ht).and (hdecides i hi t ht)).imp (fun _ h => h)
      fun _ _ h => h.2) hs

theorem decides_tryReady {s : σ} {result : Poll α} {next : α → Flow σ (Poll β)}
    (hresult : ¬ Panics result) (hnothing : (∀ a, result ≠ .ok (.ready a)) → C)
    (hready : ∀ a, result = .ok (.ready a) → Decides C (next a)) :
    Decides C (tryReady s result next) := by
  refine tryReady_sat (fun e he => ?_) (fun he => ?_) hready
  · exact iff_of_true (not_panics_of_error hresult he) (hnothing (by simp [he]))
  · exact iff_of_true (not_panics_ok _) (hnothing (by simp [he]))

variable {ρ : Type} {context : String} {shared : Shared Digest}

theorem decides_awaitItem {logs : LogStream} {script : List LogStream.Answers}
    {setLogs : LogStream → ρ}
    {next : LogStreamItem → ρ → Flow (ρ × Shared Digest) (Poll (Option BridgeChecked))}
    (hscript : ∀ answers ∈ script, answers.WellFormed)
    (hnothing : (∀ logs' item, logs.poll script ≠ (logs', .ok (.ready (some item)))) → C)
    (hitem : ∀ logs' item, logs.poll script = (logs', .ok (.ready (some item))) →
      Decides C (next item (setLogs logs'))) :
    Decides C (awaitItem context logs script shared setLogs next) := by
  have hresult := LogStream.not_panics_poll hscript logs
  unfold awaitItem
  generalize logs.poll script = polled at hresult hnothing hitem ⊢
  obtain ⟨logs', result⟩ := polled
  refine decides_tryReady (panics_withContext.not.2 hresult) (fun hnone => ?_) fun item hready => ?_
  · refine hnothing fun logs' item heq => ?_
    cases heq
    exact hnone (some item) rfl
  · rw [withContext_eq_ok] at hready
    subst hready
    cases item with
    | none =>
      refine decides_ret (not_panics_ok _) (hnothing fun logs' item heq => ?_)
      cases heq
    | some item => exact hitem logs' item rfl

theorem decides_awaitBatch {app : App Digest} (hwallet : app.wallet.EncodesSigned) {relay : Relay}
    {side : Side} {future : Batch Digest} {script : Batch.Script Digest}
    {setFuture : Batch Digest → ρ} {next : ρ} (hscript : script.WellFormed) (hC : C) :
    Decides C (awaitBatch app relay side context future script shared setFuture next) := by
  have hresult := Batch.not_panics_poll hwallet hscript relay side (future, shared)
  unfold awaitBatch
  exact decides_tryReady (panics_withContext.not.2 hresult) (fun _ => hC) fun _ _ => hC

end Decides

theorem not_panics_insufficientFunds {α : Type} :
    ¬ Panics (.error .insufficientFunds : Except Error α) := by
  rw [panics_error_iff]
  simp

namespace DepositRelay

variable {app : App Digest} {relay : DepositRelay Digest} {shared : Shared Digest}
  {answers : Answers Digest}

@[inherit_doc LogStream.Answers.WellFormed]
structure Answers.WellFormed (answers : Answers Digest) : Prop where
  logs : ∀ a ∈ answers.logs, a.WellFormed
  future : answers.future.WellFormed

/-- The log parses and has a hash. -/
def HasPayload (app : App Digest) (log : Log) : Prop :=
  (app.abi.parseDeposit log.rawLog).isSome ∧ log.transactionHash.isSome

/-- The log parses, and `expect` does not find a hash. -/
def Unhashed (app : App Digest) (log : Log) : Prop :=
  (app.abi.parseDeposit log.rawLog).isSome ∧ log.transactionHash = none

/-- When the logs of an item can be paid for, the first one that has no payload is one
that does not parse. -/
def Harmless (app : App Digest) (before : DepositRelay Digest × Shared Digest)
    (answers : Answers Digest) : Prop :=
  ∀ balance logs item, before.1.state = .wait → before.2.foreignBalance = some balance →
    before.1.logs.poll answers.logs = (logs, .ok (.ready (some item))) →
    balanceRequired app.depositRelayGas before.2.foreignGasPrice item.logs.length ≤ balance.toNat →
    ¬ FirstFails (HasPayload app) (Unhashed app) item.logs

theorem depositRelayPayload_eq_ok_iff (app : App Digest) (log : Log) :
    (∃ payload, depositRelayPayload app.abi log = .ok payload) ↔ HasPayload app log := by
  unfold depositRelayPayload HasPayload
  cases app.abi.parseDeposit log.rawLog <;> cases log.transactionHash <;> simp

theorem panics_depositRelayPayload_iff (app : App Digest) (log : Log) :
    Panics (depositRelayPayload app.abi log) ↔ Unhashed app log := by
  unfold depositRelayPayload Unhashed
  cases app.abi.parseDeposit log.rawLog <;> cases log.transactionHash <;> simp [Panics]

theorem panics_transactions_iff (gasPrice : UInt64) (balance : U256) (item : LogStreamItem) :
    Panics (relay.transactions app gasPrice balance item)
      ↔ balanceRequired app.depositRelayGas gasPrice item.logs.length ≤ balance.toNat ∧
        FirstFails (HasPayload app) (Unhashed app) item.logs := by
  unfold transactions
  split
  · rename_i hless
    exact iff_of_false not_panics_insufficientFunds fun h => absurd h.1 (Nat.not_le.2 hless)
  · rename_i henough
    rw [and_iff_right (Nat.not_lt.1 henough)]
    apply panics_mapM_iff
    · intro log
      rw [← depositRelayPayload_eq_ok_iff, Results.exists_bind_eq_ok_iff]
      exact exists_congr fun payload => and_iff_left ⟨_, rfl⟩
    · intro log
      rw [← panics_depositRelayPayload_iff]
      exact panics_bind_pure_iff

theorem body_decides (hwallet : app.wallet.EncodesSigned) (hanswers : answers.WellFormed) :
    Decides (Harmless app (relay, shared) answers) (body app (relay, shared) answers) := by
  have hother : relay.state ≠ .wait → Harmless app (relay, shared) answers :=
    fun hne _ _ _ hwait => absurd hwait hne
  unfold body
  dsimp only
  cases hstate : relay.state with
  | wait =>
    cases hbalance : shared.foreignBalance with
    | none =>
      refine decides_ret (not_panics_ok _) fun balance _ _ _ h => ?_
      rw [hbalance] at h
      cases h
    | some balance =>
      refine decides_awaitItem hanswers.logs (fun hnothing => ?_) fun logs item hitem => ?_
      · exact fun _ logs item _ _ hitem => absurd hitem (hnothing logs item)
      · have hiff : Harmless app (relay, shared) answers
            ↔ ¬ Panics ({ relay with logs := logs, state := .wait }.transactions app
              shared.foreignGasPrice balance item) := by
          rw [panics_transactions_iff, not_and]
          constructor
          · exact fun h => h balance logs item hstate hbalance hitem
          · intro h balance' logs' item' _ hbalance' hitem'
            rw [hbalance] at hbalance'
            cases hbalance'
            rw [hitem] at hitem'
            cases hitem'
            exact h
        rw [hiff]
        dsimp only
        split
        · rename_i e herror
          exact decides_of_error herror
        · rename_i deposits hdeposits
          rw [hdeposits]
          exact not_panics_ok _
  | relayDeposits future block =>
    exact decides_awaitBatch hwallet hanswers.future (hother (by simp [hstate]))
  | yield block =>
    have hharmless := hother (by simp [hstate])
    cases block with
    | none => exact hharmless
    | some block => exact decides_ret (not_panics_ok _) hharmless

end DepositRelay

theorem infoTransactionHash_eq_ok_iff {app : App Digest} {log : Log} :
    infoTransactionHash app log = .ok ()
      ↔ (app.infoEnabled = true → log.transactionHash.isSome) := by
  unfold infoTransactionHash
  cases app.infoEnabled <;> cases log.transactionHash <;> simp

theorem panics_infoTransactionHash_iff {app : App Digest} {log : Log} :
    Panics (infoTransactionHash app log)
      ↔ app.infoEnabled = true ∧ log.transactionHash = none := by
  unfold infoTransactionHash
  cases app.infoEnabled <;> cases log.transactionHash <;> simp [Panics]

namespace WithdrawConfirm

variable {app : App Digest} {relay : WithdrawConfirm Digest} {shared : Shared Digest}
  {answers : Answers Digest}

@[inherit_doc LogStream.Answers.WellFormed]
structure Answers.WellFormed (answers : Answers Digest) : Prop where
  logs : ∀ a ∈ answers.logs, a.WellFormed
  future : answers.future.WellFormed

/-- The log parses and has a hash. -/
def HasMessage (app : App Digest) (log : Log) : Prop :=
  (app.abi.parseWithdraw log.rawLog).isSome ∧ log.transactionHash.isSome

/-- `unwrap` does not find the hash that is reported. -/
def Unhashed (app : App Digest) (log : Log) : Prop :=
  app.infoEnabled = true ∧ log.transactionHash = none

/-- The first log of an item that has no message is one that does not parse, or the
hashes are not reported. -/
def Harmless (app : App Digest) (before : WithdrawConfirm Digest × Shared Digest)
    (answers : Answers Digest) : Prop :=
  ∀ balance logs item, before.1.state = .wait → before.2.foreignBalance = some balance →
    before.1.logs.poll answers.logs = (logs, .ok (.ready (some item))) →
    ¬ FirstFails (HasMessage app) (Unhashed app) item.logs

theorem withdrawMessage_eq_ok_iff (app : App Digest) (log : Log) :
    (∃ message, withdrawMessage app.abi log = .ok message) ↔ HasMessage app log := by
  unfold withdrawMessage MessageToMainnet.fromLog HasMessage
  cases app.abi.parseWithdraw log.rawLog <;> cases log.transactionHash <;> simp

theorem not_panics_withdrawMessage (abi : Abi) (log : Log) :
    ¬ Panics (withdrawMessage abi log) := by
  unfold withdrawMessage MessageToMainnet.fromLog
  cases abi.parseWithdraw log.rawLog <;> cases log.transactionHash <;> simp [Panics]

theorem panics_messages_iff (logs : List Log) :
    Panics (messages app logs) ↔ FirstFails (HasMessage app) (Unhashed app) logs := by
  apply panics_mapM_iff
  · intro log
    rw [Results.exists_bind_eq_ok_iff, ← withdrawMessage_eq_ok_iff]
    constructor
    · intro h
      obtain ⟨-, -, h⟩ := h
      obtain ⟨message, hmessage, -⟩ := Results.exists_bind_eq_ok_iff.1 h
      exact ⟨message, hmessage⟩
    · intro h
      have hhash := ((withdrawMessage_eq_ok_iff app log).1 h).2
      obtain ⟨message, hmessage⟩ := h
      exact ⟨(), infoTransactionHash_eq_ok_iff.2 fun _ => hhash,
        Results.exists_bind_eq_ok_iff.2 ⟨message, hmessage, _, rfl⟩⟩
  · intro log
    rw [panics_bind_iff, Unhashed, ← panics_infoTransactionHash_iff]
    apply or_iff_left
    intro h
    obtain ⟨-, -, h⟩ := h
    rcases panics_bind_iff.1 h with h | ⟨message, -, h⟩
    · exact not_panics_withdrawMessage app.abi log h
    · exact not_panics_ok _ h

theorem not_panics_signatures (pairs : List (Log × Bytes)) : ¬ Panics (signatures app pairs) := by
  apply not_panics_mapM
  intro pair _
  dsimp only
  split
  · rw [panics_error_iff]
    simp
  · exact not_panics_ok _

theorem panics_transactions_iff (gasPrice : UInt64) (balance : U256) (item : LogStreamItem) :
    Panics (relay.transactions app gasPrice balance item) ↔ Panics (messages app item.logs) := by
  unfold transactions
  cases hmessages : messages app item.logs with
  | error e => exact panics_error_iff.trans panics_error_iff.symm
  | ok pairs =>
    refine iff_of_false ?_ (not_panics_ok _)
    show ¬ Panics (signatures app pairs >>= _)
    cases hsignatures : signatures app pairs with
    | error e =>
      exact not_panics_of_error (not_panics_signatures pairs) hsignatures
    | ok triples =>
      change ¬ Panics (if _ then _ else _)
      split
      · exact not_panics_insufficientFunds
      · obtain ⟨result, hresult⟩ := exists_confirmations hmessages hsignatures relay gasPrice
        rw [hresult]
        exact not_panics_ok _

theorem body_decides (hwallet : app.wallet.EncodesSigned) (hanswers : answers.WellFormed) :
    Decides (Harmless app (relay, shared) answers) (body app (relay, shared) answers) := by
  have hother : relay.state ≠ .wait → Harmless app (relay, shared) answers :=
    fun hne _ _ _ hwait => absurd hwait hne
  unfold body
  dsimp only
  cases hstate : relay.state with
  | wait =>
    cases hbalance : shared.foreignBalance with
    | none =>
      refine decides_ret (not_panics_ok _) fun balance _ _ _ h => ?_
      rw [hbalance] at h
      cases h
    | some balance =>
      refine decides_awaitItem hanswers.logs (fun hnothing => ?_) fun logs item hitem => ?_
      · exact fun _ logs item _ _ hitem => absurd hitem (hnothing logs item)
      · have hiff : Harmless app (relay, shared) answers
            ↔ ¬ Panics ({ relay with logs := logs, state := .wait }.transactions app
              shared.foreignGasPrice balance item) := by
          rw [panics_transactions_iff, panics_messages_iff]
          constructor
          · exact fun h => h balance logs item hstate hbalance hitem
          · intro h balance' logs' item' _ _ hitem'
            rw [hitem] at hitem'
            cases hitem'
            exact h
        rw [hiff]
        dsimp only
        split
        · rename_i e herror
          exact decides_of_error herror
        · rename_i confirmations hconfirmations
          rw [hconfirmations]
          exact not_panics_ok _
  | confirmWithdraws future block =>
    exact decides_awaitBatch hwallet hanswers.future (hother (by simp [hstate]))
  | yield block =>
    have hharmless := hother (by simp [hstate])
    cases block with
    | none => exact hharmless
    | some block => exact decides_ret (not_panics_ok _) hharmless

end WithdrawConfirm

namespace WithdrawRelay

variable {app : App Digest} {relay : WithdrawRelay Digest} {shared : Shared Digest}
  {answers : Answers Digest}

@[inherit_doc LogStream.Answers.WellFormed]
structure Answers.WellFormed (answers : Answers Digest) : Prop where
  logs : ∀ a ∈ answers.logs, a.WellFormed
  call : ∀ id contract payload, ¬ Panics (answers.call id contract payload)
  future : answers.future.WellFormed

/-- The log parses, and it has a hash if it names another authority and is
reported. -/
def HasAssignment (app : App Digest) (log : Log) : Prop :=
  (app.abi.parseCollectedSignatures log.rawLog).isSome ∧
    (duty app log = false → app.infoEnabled = true → log.transactionHash.isSome)

/-- The log names another authority, and `unwrap` does not find the hash that is
reported. -/
def Unhashed (app : App Digest) (log : Log) : Prop :=
  duty app log = false ∧ app.infoEnabled = true ∧ log.transactionHash = none

/-- The first log of an item without an assignment is one that does not parse, or the
hashes are not reported.  When everything is fetched, decoded and can be paid for,
the messages have 116 bytes. -/
structure Harmless (app : App Digest) (before : WithdrawRelay Digest × Shared Digest)
    (answers : Answers Digest) : Prop where
  item : ∀ logs item, before.1.state = .wait →
    before.1.logs.poll answers.logs = (logs, .ok (.ready (some item))) →
    ¬ FirstFails (HasAssignment app) (Unhashed app) item.logs
  fetched : ∀ balance assignments future block raws messages signatures,
    before.1.state = .fetchMessagesSignatures assignments future block →
    before.2.homeBalance = some balance →
    (pollFetch (answers.call · before.1.foreignContract) future).2 = .ok (.ready raws) →
    balanceRequired app.withdrawRelayGas before.2.homeGasPrice raws.1.length ≤ balance.toNat →
    raws.1.mapM (decodeMessage app.abi) = .ok messages →
    decodeSignatures app.abi raws.2 = .ok signatures →
    ∀ message ∈ messages, message.length = 116

/-! ### The logs -/

theorem signaturesPayload_of_duty {log : Log} {event : CollectedSignaturesEvent}
    (hparsed : app.abi.parseCollectedSignatures log.rawLog = some event)
    (hduty : duty app log = true) : ∃ assignment, signaturesPayload app log = .ok assignment := by
  unfold signaturesPayload
  rw [hparsed]
  dsimp only
  rw [if_neg (not_not.2 ((duty_iff_own hparsed).1 hduty).authority)]
  exact ⟨_, rfl⟩

theorem signaturesPayload_eq_ok_iff (app : App Digest) (log : Log) :
    (∃ assignment, signaturesPayload app log = .ok assignment) ↔ HasAssignment app log := by
  unfold HasAssignment
  cases hparsed : app.abi.parseCollectedSignatures log.rawLog with
  | none => simp [signaturesPayload, hparsed]
  | some event =>
    cases hduty : duty app log with
    | true =>
      refine iff_of_true (signaturesPayload_of_duty hparsed hduty) ⟨rfl, fun h => ?_⟩
      cases h
    | false =>
      rw [signaturesPayload_of_other hparsed hduty]
      simp only [Option.isSome_some, true_and, forall_const]
      rw [← infoTransactionHash_eq_ok_iff]
      cases infoTransactionHash app log <;> simp [Except.map]

theorem panics_signaturesPayload_iff (app : App Digest) (log : Log) :
    Panics (signaturesPayload app log) ↔ Unhashed app log := by
  unfold Unhashed
  cases hparsed : app.abi.parseCollectedSignatures log.rawLog with
  | none => simp [signaturesPayload, duty, hparsed, panics_error_iff]
  | some event =>
    cases hduty : duty app log with
    | true =>
      obtain ⟨assignment, hok⟩ := signaturesPayload_of_duty hparsed hduty
      rw [hok]
      exact iff_of_false (not_panics_ok _) fun h => by cases h.1
    | false =>
      rw [signaturesPayload_of_other hparsed hduty, panics_map, panics_infoTransactionHash_iff]
      simp

theorem panics_assignments_iff (logs : List Log) :
    Panics (assignments app logs) ↔ FirstFails (HasAssignment app) (Unhashed app) logs := by
  unfold assignments
  refine panics_bind_pure_iff.trans (panics_mapM_iff ?_ ?_ logs)
  · intro log
    rw [← signaturesPayload_eq_ok_iff, Results.exists_bind_eq_ok_iff]
    exact exists_congr fun assignment => and_iff_left ⟨_, rfl⟩
  · intro log
    rw [← panics_signaturesPayload_iff]
    exact panics_bind_pure_iff

/-! ### The answers -/

theorem not_panics_pollFetch {call : Call → Bytes → Poll Bytes}
    (h : ∀ id payload, ¬ Panics (call id payload)) (future : Fetch) :
    ¬ Panics (pollFetch call future).2 := by
  intro hpanics
  obtain ⟨message, hpanics⟩ := hpanics
  rcases Join.exists_of_poll_eq_error hpanics with hfirst | hsecond
  · obtain ⟨calls, hcalls⟩ := hfirst
    obtain ⟨i, payload, hcall⟩ := JoinAll.exists_of_poll_eq_error hcalls
    exact h _ _ ⟨message, hcall⟩
  · obtain ⟨calls, hcalls⟩ := hsecond
    obtain ⟨i, calls, hcalls⟩ := JoinAll.exists_of_poll_eq_error hcalls
    obtain ⟨j, payload, hcall⟩ := JoinAll.exists_of_poll_eq_error hcalls
    exact h _ _ ⟨message, hcall⟩

theorem not_panics_decodeMessage (abi : Abi) (raw : Bytes) : ¬ Panics (decodeMessage abi raw) := by
  unfold decodeMessage
  split
  · rw [panics_error_iff]
    simp
  · exact not_panics_ok _

theorem not_panics_decodeSignature (abi : Abi) (raw : Bytes) :
    ¬ Panics (decodeSignature abi raw) := by
  unfold decodeSignature
  split
  · rw [panics_error_iff]
    simp
  · unfold Signature.fromBytes
    split
    · exact not_panics_ok _
    · rw [panics_error_iff]
      simp

theorem not_panics_decodeSignatures (abi : Abi) (raws : List (List Bytes)) :
    ¬ Panics (decodeSignatures abi raws) :=
  not_panics_mapM fun _ _ => not_panics_mapM fun raw _ => not_panics_decodeSignature abi raw

theorem panics_fromBytes_iff (message : Bytes) :
    Panics (MessageToMainnet.fromBytes message) ↔ message.length ≠ 116 := by
  unfold MessageToMainnet.fromBytes
  split
  · rename_i h
    exact iff_of_false (not_panics_ok _) (not_not.2 h)
  · rename_i h
    exact iff_of_true ⟨_, rfl⟩ h

theorem panics_homeGasPrices_iff (messages : List Bytes) :
    Panics (homeGasPrices messages) ↔ ∃ message ∈ messages, message.length ≠ 116 := by
  constructor
  · intro h
    by_contra hall
    refine not_panics_mapM (fun message hmem => ?_) h
    rw [panics_map, panics_fromBytes_iff]
    exact fun hlength => hall ⟨message, hmem, hlength⟩
  · intro h
    obtain ⟨message, hmem, hlength⟩ := h
    cases hprices : homeGasPrices messages with
    | error e =>
      -- the only error of the loop is the assertion
      obtain ⟨-, message', -, -, -, herror⟩ := Results.mapM_eq_error_iff.1 hprices
      cases hread : MessageToMainnet.fromBytes message' with
      | ok parsed =>
        rw [hread] at herror
        cases herror
      | error e' =>
        rw [hread] at herror
        cases herror
        unfold MessageToMainnet.fromBytes at hread
        split at hread
        · cases hread
        · cases hread
          exact ⟨_, rfl⟩
    | ok prices =>
      obtain ⟨price, -, hprice⟩ :=
        Results.exists_mem_of_forall₂ (Results.forall₂_of_mapM_eq_ok hprices).flip hmem
      obtain ⟨text, hpanics⟩ := (panics_fromBytes_iff message).2 hlength
      rw [hpanics] at hprice
      cases hprice

theorem panics_transactions_iff {gasPrice : UInt64} {balance : U256}
    {assignments : List (Log × RelayAssignment)} {raws : List Bytes × List (List Bytes)}
    (hmessages : raws.1.length = assignments.length)
    (hsignatures : raws.2.length = assignments.length) :
    Panics (relay.transactions app gasPrice balance assignments raws.1 raws.2)
      ↔ balanceRequired app.withdrawRelayGas gasPrice raws.1.length ≤ balance.toNat ∧
        ∃ messages signatures, raws.1.mapM (decodeMessage app.abi) = .ok messages ∧
          decodeSignatures app.abi raws.2 = .ok signatures ∧
          ∃ message ∈ messages, message.length ≠ 116 := by
  rw [← panics_map, transactions_map_gasPrice hmessages hsignatures]
  split
  · rename_i hless
    exact iff_of_false not_panics_insufficientFunds fun h => absurd h.1 (Nat.not_le.2 hless)
  · rename_i henough
    rw [and_iff_right (Nat.not_lt.1 henough), panics_bind_iff,
      or_iff_right (not_panics_mapM fun raw _ => not_panics_decodeMessage app.abi raw)]
    refine exists_congr fun messages => ?_
    rw [panics_bind_iff, or_iff_right (not_panics_decodeSignatures app.abi raws.2),
      panics_homeGasPrices_iff]
    simp only [exists_and_left, exists_and_right]

/-! ### The loop -/

/-- What is fetched belongs to the assignments. -/
def Consistent (relay : WithdrawRelay Digest) : Prop :=
  ∀ assignments future block, relay.state = .fetchMessagesSignatures assignments future block →
    Fetching (fun _ _ => True) assignments future

theorem consistent_of_ne {relay : WithdrawRelay Digest}
    (h : ∀ assignments future block,
      relay.state ≠ .fetchMessagesSignatures assignments future block) : Consistent relay :=
  fun assignments future block hstate => absurd hstate (h assignments future block)

theorem body_consistent (h : Consistent relay) :
    (body app (relay, shared) answers).Sat (fun s => Consistent s.1)
      fun s r => ∀ a, r = .ok a → Consistent s.1 := by
  unfold body
  dsimp only
  cases hstate : relay.state with
  | wait =>
    have hwaiting : ∀ logs,
        Consistent ({ relay with logs := logs, state := .wait } : WithdrawRelay Digest) :=
      fun logs => consistent_of_ne fun _ _ _ h => by cases h
    unfold awaitItem
    refine tryStream_sat (fun e _ a ha => (by cases ha)) (fun _ _ _ => hwaiting _)
      (fun _ _ _ => hwaiting _) fun item _ => ?_
    dsimp only
    split
    · exact fun a ha => by cases ha
    · rename_i assignments _
      intro assignments' future block hfetch
      cases hfetch
      exact fetching_fetch _ assignments
  | fetchMessagesSignatures assignments future block =>
    have hpolled := @pollFetch_spec (fun _ _ => True) (answers.call · relay.foreignContract)
      assignments future (fun _ _ _ _ => trivial) (h assignments future block hstate)
    dsimp only
    unfold awaitFetch
    split
    · exact fun _ _ => h
    · refine tryReady_sat (fun e _ a ha => (by cases ha)) (fun hnotReady _ _ => ?_) fun raws _ => ?_
      · intro assignments' future' block' hfetch
        cases hfetch
        exact hpolled.1 (withContext_eq_ok.1 hnotReady)
      · dsimp only
        split
        · exact fun a ha => by cases ha
        · exact consistent_of_ne fun _ _ _ h => by cases h
  | relayWithdraws future block =>
    unfold awaitBatch
    refine tryReady_sat (fun e _ a ha => (by cases ha)) (fun _ _ _ => ?_) fun _ _ => ?_
    · exact consistent_of_ne fun _ _ _ h => by cases h
    · exact consistent_of_ne fun _ _ _ h => by cases h
  | yield block =>
    cases block with
    | none => exact consistent_of_ne fun _ _ _ h => by cases h
    | some block => exact fun _ _ => consistent_of_ne fun _ _ _ h => by cases h

theorem harmless_iff_of_item {logs : LogStream} {item : LogStreamItem}
    (hwait : relay.state = .wait)
    (hitem : relay.logs.poll answers.logs = (logs, .ok (.ready (some item)))) :
    Harmless app (relay, shared) answers ↔ ¬ Panics (assignments app item.logs) := by
  rw [panics_assignments_iff]
  constructor
  · exact fun h => h.item logs item hwait hitem
  · intro h
    refine ⟨fun logs' item' _ hitem' => ?_, fun _ _ _ _ _ _ _ hstate => ?_⟩
    · rw [hitem] at hitem'
      cases hitem'
      exact h
    · cases hwait.symm.trans hstate

theorem harmless_iff_of_fetched {assignments : List (Log × RelayAssignment)} {future : Fetch}
    {block : UInt64} {balance : U256} {raws : List Bytes × List (List Bytes)}
    (hconsistent : Consistent relay)
    (hstate : relay.state = .fetchMessagesSignatures assignments future block)
    (hbalance : shared.homeBalance = some balance)
    (hfetched : (pollFetch (answers.call · relay.foreignContract) future).2 = .ok (.ready raws)) :
    Harmless app (relay, shared) answers
      ↔ ¬ Panics (relay.transactions app shared.homeGasPrice balance assignments raws.1
        raws.2) := by
  have hspec := @pollFetch_spec (fun _ _ => True) (answers.call · relay.foreignContract)
    assignments future (fun _ _ _ _ => trivial) (hconsistent assignments future block hstate)
  obtain ⟨hmessages, hsignatures⟩ := hspec.2 raws hfetched
  rw [panics_transactions_iff hmessages.length_eq.symm hsignatures.length_eq.symm]
  constructor
  · intro h hpanics
    obtain ⟨henough, messages, signatures, hdecoded, hdecoded', message, hmem, hne⟩ := hpanics
    exact hne (h.fetched balance assignments future block raws messages signatures hstate
      hbalance hfetched henough hdecoded hdecoded' message hmem)
  · intro h
    refine ⟨fun _ _ hwait => (by cases hstate.symm.trans hwait), ?_⟩
    intro balance' assignments' future' block' raws' messages signatures hstate' hbalance'
      hfetched' henough hdecoded hdecoded' message hmem
    cases hstate.symm.trans hstate'
    cases hbalance.symm.trans hbalance'
    cases hfetched.symm.trans hfetched'
    by_contra hne
    exact h ⟨henough, messages, signatures, hdecoded, hdecoded', message, hmem, hne⟩

theorem decides_awaitFetch {assignments : List (Log × RelayAssignment)} {future : Fetch}
    {block : UInt64} (hanswers : answers.WellFormed) (hconsistent : Consistent relay)
    (hstate : relay.state = .fetchMessagesSignatures assignments future block) :
    Decides (Harmless app (relay, shared) answers)
      (awaitFetch app relay shared answers assignments future block) := by
  have hwaiting : ∀ {P : Prop}, relay.state = .wait → P := fun h => by
    cases hstate.symm.trans h
  have hpolled := not_panics_pollFetch (fun id => hanswers.call id relay.foreignContract) future
  unfold awaitFetch
  cases hbalance : shared.homeBalance with
  | none =>
    refine decides_ret (not_panics_ok _) ⟨fun _ _ h => hwaiting h, ?_⟩
    intro balance _ _ _ _ _ _ _ h
    cases hbalance.symm.trans h
  | some balance =>
    refine decides_tryReady (panics_withContext.not.2 hpolled) (fun hnothing => ?_)
      fun raws hready => ?_
    · refine ⟨fun _ _ h => hwaiting h, ?_⟩
      intro balance' assignments' future' block' raws messages signatures hstate' _ hfetched
      cases hstate.symm.trans hstate'
      exact absurd (withContext_eq_ok.2 hfetched) (hnothing raws)
    · rw [harmless_iff_of_fetched hconsistent hstate hbalance (withContext_eq_ok.1 hready)]
      dsimp only
      split
      · rename_i e herror
        exact decides_of_error herror
      · rename_i relays hrelays
        exact hrelays ▸ not_panics_ok _

theorem body_decides (hwallet : app.wallet.EncodesSigned) (hanswers : answers.WellFormed)
    (hconsistent : Consistent relay) :
    Decides (Harmless app (relay, shared) answers) (body app (relay, shared) answers) := by
  have hother : relay.state ≠ .wait → (∀ assignments future block,
      relay.state ≠ .fetchMessagesSignatures assignments future block) →
      Harmless app (relay, shared) answers :=
    fun hwait hfetch => ⟨fun _ _ h => absurd h hwait,
      fun _ assignments future block _ _ _ h => absurd h (hfetch assignments future block)⟩
  unfold body
  dsimp only
  cases hstate : relay.state with
  | wait =>
    refine decides_awaitItem hanswers.logs (fun hnothing => ?_) fun logs item hitem => ?_
    · refine ⟨fun logs item _ hitem => absurd hitem (hnothing logs item), ?_⟩
      intro _ _ _ _ _ _ _ h
      cases hstate.symm.trans h
    · rw [harmless_iff_of_item hstate hitem]
      dsimp only
      split
      · rename_i e herror
        exact decides_of_error herror
      · rename_i assignments hassignments
        rw [hassignments]
        exact not_panics_ok _
  | fetchMessagesSignatures assignments future block =>
    exact decides_awaitFetch hanswers hconsistent hstate
  | relayWithdraws future block =>
    refine decides_awaitBatch hwallet hanswers.future (hother ?_ ?_)
    · simp [hstate]
    · simp [hstate]
  | yield block =>
    have hharmless := hother (by simp [hstate]) (by simp [hstate])
    cases block with
    | none => exact hharmless
    | some block => exact decides_ret (not_panics_ok _) hharmless

end WithdrawRelay

/-- When a poll panics.  The answers are well-formed, the machine is in any state that
it reaches, and the keystore can encode what it signs: the poll does not panic if
and only if its iterations are harmless.  The products of the balance checks do not
overflow. -/
theorem polls_harmless (app : App Digest) (hwallet : app.wallet.EncodesSigned) :
    (∀ (relay : DepositRelay Digest) (shared : Shared Digest)
      (script : List (DepositRelay.Answers Digest)), (∀ answers ∈ script, answers.WellFormed) →
      (¬ Panics (DepositRelay.poll app (relay, shared) script).2
        ↔ Along (DepositRelay.body app) (DepositRelay.Harmless app) (relay, shared) script)) ∧
    (∀ (relay : WithdrawConfirm Digest) (shared : Shared Digest)
      (script : List (WithdrawConfirm.Answers Digest)), (∀ answers ∈ script, answers.WellFormed) →
      (¬ Panics (WithdrawConfirm.poll app (relay, shared) script).2
        ↔ Along (WithdrawConfirm.body app) (WithdrawConfirm.Harmless app) (relay, shared)
          script)) ∧
    (∀ (init : Database) (chainId : UInt64) (relay : WithdrawRelay Digest),
      Reached (WithdrawRelay.body app) WithdrawRelay.Answers.WellFormed
        (createWithdrawRelay app init chainId) relay →
      ∀ (shared : Shared Digest) (script : List (WithdrawRelay.Answers Digest)),
      (∀ answers ∈ script, answers.WellFormed) →
      (¬ Panics (WithdrawRelay.poll app (relay, shared) script).2
        ↔ Along (WithdrawRelay.body app) (WithdrawRelay.Harmless app) (relay, shared) script)) ∧
    ∀ (gas gasPrice : UInt64) (len : Nat), len < 2 ^ 64 →
      checkedBalanceRequired gas gasPrice len ≠ none := by
  refine ⟨?_, ?_, ?_, ?_⟩
  · intro relay shared script hscript
    refine not_panics_run_iff (P := fun _ => True) (fun _ _ s _ => ?_) (fun answers hmem s _ => ?_)
      trivial
    · cases DepositRelay.body app s _ <;> trivial
    · exact DepositRelay.body_decides hwallet (hscript answers hmem)
  · intro relay shared script hscript
    refine not_panics_run_iff (P := fun _ => True) (fun _ _ s _ => ?_) (fun answers hmem s _ => ?_)
      trivial
    · cases WithdrawConfirm.body app s _ <;> trivial
    · exact WithdrawConfirm.body_decides hwallet (hscript answers hmem)
  · intro init chainId relay hreached shared script hscript
    have hconsistent : relay.Consistent := by
      refine hreached.invariant (WithdrawRelay.consistent_of_ne fun _ _ _ h => by cases h) ?_
      exact fun s answers _ h => WithdrawRelay.body_consistent h
    refine not_panics_run_iff (P := fun s => WithdrawRelay.Consistent s.1) (fun _ _ s hs => ?_)
      (fun answers hmem s hs => ?_) hconsistent
    · exact (WithdrawRelay.body_consistent hs).imp (fun _ h => h) fun _ _ _ => trivial
    · exact WithdrawRelay.body_decides hwallet (hscript answers hmem) hs
  · intro gas gasPrice len hlen
    obtain ⟨product, hproduct, -⟩ := checkedBalanceRequired_eq_some gas gasPrice hlen
    rw [hproduct]
    exact Option.some_ne_none product

/-! ### Answers with and without hashes -/

/-- The node answers at once: block 1 is the best one, and it has the logs. -/
def promptAnswers (logs : List Log) : List LogStream.Answers :=
  List.replicate 4 ⟨.ok (.ready (some ())), .ok (.ready 1), fun _ _ _ => .ok (.ready logs)⟩

theorem wellFormed_promptAnswers (logs : List Log) :
    ∀ answers ∈ promptAnswers logs, answers.WellFormed := by
  intro answers hmem
  rw [List.eq_of_mem_replicate hmem]
  exact ⟨not_panics_ok _, not_panics_ok _, fun _ _ _ => not_panics_ok _⟩

def freshDatabase : Database := ⟨0xE0, 0xF0, none, none, 0, 0, 0⟩

/-- The logs of two authorities, and the answers of the stores. -/
def promptCalls : WithdrawRelay.Answers Bytes where
  logs := promptAnswers [WithdrawRelay.collectedLog 0xB 1, WithdrawRelay.collectedLog 0xA 2]
  call := WithdrawRelay.relayingAnswers.call
  future := []

theorem polls_harmless_mined :
    Along (DepositRelay.body WithdrawRelay.relayingApp)
      (DepositRelay.Harmless WithdrawRelay.relayingApp)
      (createDepositRelay WithdrawRelay.relayingApp freshDatabase 2, WithdrawConfirm.signingShared)
      [⟨promptAnswers [depositedLog], []⟩] ∧
    Along (WithdrawConfirm.body WithdrawConfirm.signingApp)
      (WithdrawConfirm.Harmless WithdrawConfirm.signingApp)
      (createWithdrawConfirm WithdrawConfirm.signingApp freshDatabase 2,
        WithdrawConfirm.signingShared)
      [⟨promptAnswers [WithdrawConfirm.withdrawnLog], []⟩] ∧
    Along (WithdrawRelay.body WithdrawRelay.relayingApp)
      (WithdrawRelay.Harmless WithdrawRelay.relayingApp)
      (createWithdrawRelay WithdrawRelay.relayingApp freshDatabase 1, WithdrawRelay.relayingShared)
      [promptCalls, promptCalls] := by
  have hrelaying : WithdrawRelay.relayingApp.wallet.EncodesSigned :=
    fun _ _ _ _ _ => Option.some_ne_none _
  have hsigning : WithdrawConfirm.signingApp.wallet.EncodesSigned :=
    fun _ _ _ _ _ => Option.some_ne_none _
  have hnothing : Batch.Script.WellFormed ([] : Batch.Script Bytes) := fun _ h => by cases h
  refine ⟨?_, ?_, ?_⟩
  · refine ((polls_harmless _ hrelaying).1 _ _ _ ?_).1 ?_
    · intro answers hmem
      rw [List.mem_singleton.1 hmem]
      exact ⟨wellFormed_promptAnswers _, hnothing⟩
    · have hready : (DepositRelay.poll WithdrawRelay.relayingApp
          (createDepositRelay WithdrawRelay.relayingApp freshDatabase 2,
            WithdrawConfirm.signingShared)
          [⟨promptAnswers [depositedLog], []⟩]).2 = .ok .notReady := by decide +kernel
      rw [hready]
      exact not_panics_ok _
  · refine ((polls_harmless _ hsigning).2.1 _ _ _ ?_).1 ?_
    · intro answers hmem
      rw [List.mem_singleton.1 hmem]
      exact ⟨wellFormed_promptAnswers _, hnothing⟩
    · have hready : (WithdrawConfirm.poll WithdrawConfirm.signingApp
          (createWithdrawConfirm WithdrawConfirm.signingApp freshDatabase 2,
            WithdrawConfirm.signingShared)
          [⟨promptAnswers [WithdrawConfirm.withdrawnLog], []⟩]).2 = .ok .notReady := by
        decide +kernel
      rw [hready]
      exact not_panics_ok _
  · refine ((polls_harmless _ hrelaying).2.2.1 freshDatabase 1 _ .start _ _ ?_).1 ?_
    · intro answers hmem
      rw [List.eq_of_mem_replicate (n := 2) hmem]
      exact ⟨wellFormed_promptAnswers _, fun _ _ _ => not_panics_ok _, hnothing⟩
    · have hready : (WithdrawRelay.poll WithdrawRelay.relayingApp
          (createWithdrawRelay WithdrawRelay.relayingApp freshDatabase 1,
            WithdrawRelay.relayingShared) [promptCalls, promptCalls]).2 = .ok .notReady := by
        decide +kernel
      rw [hready]
      exact not_panics_ok _

/-- A log that the node has not assigned to a transaction. -/
def unmined (log : Log) : Log := { log with transactionHash := none }

/-- The answers to the calls are the signature of the stores, and a message of no
bytes. -/
def shortAnswers : WithdrawRelay.Answers Bytes where
  logs := promptAnswers [WithdrawRelay.collectedLog 0xA 2]
  call := fun id _ _ => .ok (.ready (Abi.dynamicArguments [Abi.dynamicBytes
    (match id with
    | .message _ => []
    | .signature _ _ => WithdrawRelay.relayedStores.signature 2 0)]))
  future := []

theorem polls_panic :
    Panics (DepositRelay.poll WithdrawRelay.relayingApp
      (createDepositRelay WithdrawRelay.relayingApp freshDatabase 2, WithdrawConfirm.signingShared)
      [⟨promptAnswers [unmined depositedLog], []⟩]).2 ∧
    Panics (WithdrawConfirm.poll WithdrawConfirm.signingApp
      (createWithdrawConfirm WithdrawConfirm.signingApp freshDatabase 2,
        WithdrawConfirm.signingShared)
      [⟨promptAnswers [unmined WithdrawConfirm.withdrawnLog], []⟩]).2 ∧
    Panics (WithdrawRelay.poll WithdrawRelay.relayingApp
      (createWithdrawRelay WithdrawRelay.relayingApp freshDatabase 1, WithdrawRelay.relayingShared)
      [⟨promptAnswers [unmined (WithdrawRelay.collectedLog 0xB 1)], fun _ _ _ => .ok .notReady,
        []⟩]).2 ∧
    Panics (WithdrawRelay.poll WithdrawRelay.relayingApp
      (createWithdrawRelay WithdrawRelay.relayingApp freshDatabase 1, WithdrawRelay.relayingShared)
      [shortAnswers, shortAnswers]).2 :=
  ⟨⟨"log to be mined and contain `transaction_hash`", by decide +kernel⟩,
    ⟨"called `Option::unwrap()` on a `None` value", by decide +kernel⟩,
    ⟨"called `Option::unwrap()` on a `None` value", by decide +kernel⟩,
    ⟨"assertion failed: `(left == right)`", by decide +kernel⟩⟩

end PoaBridge
