import PoaBridge.Delivery
import PoaBridge.ExactlyOnce

/-!
# What the relays report, and what they finish

The parts that the progress of the three relays has in common.

* `NonceCheck.Takes` and `Batch.Answered` are what a node promises about transactions,
  and `Following.Prompt` is what it promises about logs.
* `Tracked` ties the position of a stream to the last block that its relay has reported.
  Every poll keeps it.
* `Finished` is what a poll of an answered relay leaves: it has nothing in progress, and
  if its stream was at rest then it has come to the confirmed head of the chain.
  `run_finishes` is the rule for it.
-/

namespace PoaBridge

open PollLoop

variable {Digest : Type}

/-! ## Transactions that are taken -/

/-- The keystore signs every transaction of the account. -/
def Wallet.Signs (self : Wallet Digest) (account : Address) : Prop :=
  ∀ chainId tx, ∃ raw, prepareRawTransaction self account chainId tx = .ok raw

namespace NonceCheck

/-- The node answers at once.  It takes the transaction, or it has it already. -/
structure Takes (answers : Answers Digest) : Prop where
  nonce : ∃ nonce, answers.nonce = .ok (.ready nonce)
  send : ∀ raw, (∃ hash, answers.send raw = .ok (.ready hash)) ∨
    ∃ err, answers.send raw = .error (.web3 (.rpc err)) ∧ err.isNonceError = false ∧
      err.isAlreadyImported = true

/-- The iterations before the transaction is sent. -/
def distance (self : NonceCheck × U256) : Nat :=
  match self.1.state with
  | .reacquire => 3
  | .nonceRequest => 2
  | .ready => 2
  | .nonce _ => 1
  | .transactionRequest _ => 0

theorem distance_lt (self : NonceCheck × U256) : distance self < 4 := by
  unfold distance
  split <;> omega

/-- A future whose transaction is taken is done when it is polled. -/
theorem poll_takes {wallet : Wallet Digest} {self : NonceCheck × U256}
    {script : List (Answers Digest)} (hsigns : wallet.Signs self.1.account)
    (hscript : ∀ answers ∈ script, Takes answers) (hlength : 4 ≤ script.length) :
    ∃ hash, (poll wallet self script).2 = .ok (.ready hash) := by
  refine run_returns (P := fun s => s.1.account = self.1.account)
    (Q := fun _ (r : Poll Digest) => ∃ hash, r = .ok (.ready hash)) distance script self ?_ rfl
    ((distance_lt self).trans_le hlength)
  rintro answers hmem ⟨⟨state, account, transaction, chainId⟩, counter⟩ haccount
  obtain ⟨hnonce, hsend⟩ := hscript answers hmem
  dsimp only at haccount
  subst haccount
  unfold body
  cases state with
  | ready => exact ⟨rfl, Nat.lt_succ_self 1⟩
  | reacquire => exact ⟨rfl, Nat.lt_succ_self 2⟩
  | nonceRequest =>
    obtain ⟨nonce, hnonce⟩ := hnonce
    dsimp only
    rw [hnonce]
    exact ⟨rfl, Nat.lt_succ_self 1⟩
  | nonce nonce =>
    obtain ⟨raw, hraw⟩ := hsigns chainId { transaction with nonce := nonce }
    dsimp only
    rw [hraw]
    exact ⟨rfl, Nat.zero_lt_one⟩
  | transactionRequest raw =>
    dsimp only
    rcases hsend raw with ⟨hash, hhash⟩ | ⟨err, herr, hnonceError, himported⟩
    · rw [hhash]
      exact ⟨hash, rfl⟩
    · rw [herr]
      dsimp only
      rw [hnonceError, himported]
      exact ⟨_, rfl⟩

end NonceCheck

/-- Every future of the batch is polled, and its transaction is taken. -/
def Batch.Answered (self : Batch Digest) (script : Batch.Script Digest) : Prop :=
  Collect.Exhausts self.pending.length (script.map Prod.fst) ∧
    ∀ p ∈ script, 4 ≤ p.2.length ∧ ∀ answers ∈ p.2, NonceCheck.Takes answers

theorem Batch.poll_answered {app : App Digest} {batch : Batch Digest} {script : Batch.Script Digest}
    {account : Address} (relay : Relay) (side : Side) (shared : Shared Digest)
    (hsigns : app.wallet.Signs account) (hfutures : ∀ p ∈ batch.pending, p.2.account = account)
    (h : batch.Answered script) :
    ∃ hashes, (Batch.poll app relay side (batch, shared) script).2 = .ok (.ready hashes) := by
  refine @Collect.poll_returns _ _ _ _ _ _ (fun _ future => future.account = account)
    (pollJob app.wallet relay side) script ?_ batch shared hfutures h.1
  intro answers hmem job future shared' haccount
  obtain ⟨hlength, htakes⟩ := h.2 answers hmem
  obtain ⟨hash, hhash⟩ := @NonceCheck.poll_takes _ app.wallet (future, shared'.nonce side)
    answers.2 (haccount ▸ hsigns) htakes hlength
  refine ⟨hash, ?_⟩
  unfold pollJob
  generalize NonceCheck.poll app.wallet (future, shared'.nonce side) answers.2 = polled at hhash
  obtain ⟨⟨future', nonce⟩, result⟩ := polled
  obtain rfl : result = _ := hhash
  rfl

/-- The futures of a batch send from the account of their jobs. -/
theorem Spec.Futures.account {spec : Spec} {app : App Digest} {batch : Batch Digest}
    {account : Address} (h : spec.Futures app batch)
    (hrelays : ∀ log future, spec.relays log future → future.account = account) :
    ∀ p ∈ batch.pending, p.2.account = account := by
  intro p hp
  obtain ⟨hrelay, hsends⟩ := h p hp
  exact hsends.account.trans (hrelays _ _ hrelay)

/-! ## Logs that come at once -/

namespace Following

/-- A stream whose node is prompt waits, or it has an item. -/
theorem poll_prompt {best : Nat} {stream : LogStream} {script : List LogStream.Answers}
    (hprompt : ∀ answers ∈ script, Prompt best answers) :
    (stream.poll script).2 = .ok .notReady ∨
      ∃ item, (stream.poll script).2 = .ok (.ready (some item)) := by
  refine run_sat (P := fun _ => True)
    (Q := fun _ (r : Poll (Option LogStreamItem)) => r = .ok .notReady ∨
      ∃ item, r = .ok (.ready (some item))) (fun _ _ => .inl rfl) script stream ?_ trivial
  rintro answers hmem ⟨state, after, filter, confirmations⟩ -
  obtain ⟨hinterval, ⟨n, hnumber, -⟩, hlogs⟩ := hprompt answers hmem
  unfold LogStream.body
  cases state with
  | wait =>
    dsimp only
    rw [hinterval]
    trivial
  | fetchBlockNumber =>
    dsimp only
    rw [hnumber]
    dsimp only [tryReady]
    split <;> trivial
  | fetchLogs fromBlock toBlock =>
    obtain ⟨logs, hlogs⟩ := hlogs filter fromBlock toBlock
    dsimp only
    rw [hlogs]
    trivial
  | nextItem item =>
    cases item with
    | none => trivial
    | some item => exact .inr ⟨item, rfl⟩

/-- The last block that has the confirmations. -/
def head (best : Nat) (confirmations : UInt64) : Nat := best - confirmations.toNat

/-- A call of a stream whose node is prompt: it comes to rest, and from rest it reads
all that has been confirmed. -/
theorem poll_head {best : Nat} {stream : LogStream} {script : List LogStream.Answers}
    (hprompt : ∀ answers ∈ script, Prompt best answers) (hlength : 5 ≤ script.length)
    (hbest : best < 2 ^ 64) :
    Resting (stream.poll script).1 ∧
      (Resting stream → head best stream.confirmations ≤ (stream.poll script).1.position) := by
  have hrest := @poll_rest ⟨stream.after, stream.filter, stream.confirmations⟩ best stream script
    hprompt hlength hbest rfl
  refine ⟨hrest, fun hstream => ?_⟩
  rw [position_of_resting hrest]
  exact (@poll_rested ⟨stream.after, stream.filter, stream.confirmations⟩ best stream script
    hprompt hlength hbest rfl hstream).2

end Following

/-! ## What has been reported -/

/-- The last block that has been reported, after a poll. -/
def reported (checkpoint : Nat) : Poll (Option BridgeChecked) → Nat
  | .ok (.ready (some event)) => event.block.toNat
  | _ => checkpoint

/-- The stream of a relay that has nothing to report is where the last report was.  The
stream of a relay with a block to report is at rest. -/
structure Tracked (confirmations : UInt64) (checkpoint : Nat) (logs : LogStream)
    (block : Option UInt64) : Prop where
  confirmations_eq : logs.confirmations = confirmations
  idle : block = none → logs.position = checkpoint
  busy : block ≠ none → Following.Resting logs

/-- What a poll of an answered relay leaves.  `caught` is whether it began at rest, or
at the head already. -/
structure Finished (target : Nat) (caught : Prop) (logs : LogStream) (block : Option UInt64)
    (result : Poll (Option BridgeChecked)) : Prop where
  ok : ∀ e, result ≠ .error e
  resting : Following.Resting logs
  idle : block = none
  target_le : caught → target ≤ logs.position

/-- A stream at rest whose relay is idle, or a stream at the head. -/
structure Caught (target : Nat) (logs : LogStream) (block : Option UInt64) : Prop where
  resting : Following.Resting logs
  busy : block ≠ none → target ≤ logs.position

section Loops

variable {ρ : Type} {context : String} {logs : LogStream} {script : List LogStream.Answers}
  {shared : Shared Digest} {setLogs : LogStream → ρ}
  {next : LogStreamItem → ρ → Flow (ρ × Shared Digest) (Poll (Option BridgeChecked))}
  {P : ρ × Shared Digest → Prop} {Q : ρ × Shared Digest → Poll (Option BridgeChecked) → Prop}

/-- A relay without jobs polls its stream: there is no item, or there is one. -/
theorem awaitItem_flow
    (hstay : ∀ r, (∀ event, r ≠ .ok (.ready (some event))) →
      (∀ e, r = .error e → ∃ e', (logs.poll script).2 = .error e') →
      (∀ item, (logs.poll script).2 ≠ .ok (.ready (some item))) →
      Q (setLogs (logs.poll script).1, shared) r)
    (hitem : ∀ item, (logs.poll script).2 = .ok (.ready (some item)) →
      (next item (setLogs (logs.poll script).1)).Sat P Q) :
    (awaitItem context logs script shared setLogs next).Sat P Q := by
  unfold awaitItem
  dsimp only
  generalize hpolled : logs.poll script = polled at hstay hitem ⊢
  obtain ⟨logs', result⟩ := polled
  rcases result with e | _ | _ | item
  · exact hstay _ (fun _ heq => by cases heq) (fun _ _ => ⟨e, rfl⟩) fun _ heq => by cases heq
  · exact hstay _ (fun _ heq => by cases heq) (fun _ heq => by cases heq)
      fun _ heq => by cases heq
  · exact hstay _ (fun _ heq => by cases heq) (fun _ heq => by cases heq)
      fun _ heq => by cases heq
  · exact hitem item rfl

/-- A batch is polled: it waits, or it is done. -/
theorem awaitBatch_flow {app : App Digest} {relay : Relay} {side : Side} {future : Batch Digest}
    {batch : Batch.Script Digest} {setFuture : Batch Digest → ρ} {done : ρ}
    (hstay : ∀ future' shared' r, (∀ event, r ≠ .ok (.ready (some event))) →
      (∀ hashes, (Batch.poll app relay side (future, shared) batch).2 ≠ .ok (.ready hashes)) →
      Q (setFuture future', shared') r)
    (hdone : ∀ shared', P (done, shared')) :
    (awaitBatch app relay side context future batch shared setFuture done).Sat P Q := by
  unfold awaitBatch
  dsimp only
  generalize Batch.poll app relay side (future, shared) batch = polled at hstay ⊢
  obtain ⟨⟨future', shared'⟩, result⟩ := polled
  rcases result with e | _ | hashes
  · exact hstay _ _ _ (fun _ heq => by cases heq) fun _ heq => by cases heq
  · exact hstay _ _ _ (fun _ heq => by cases heq) fun _ heq => by cases heq
  · exact hdone shared'

end Loops

/-! ### Every poll keeps track -/

theorem reported_of_nothing {checkpoint : Nat} {result : Poll (Option BridgeChecked)}
    (h : ∀ event, result ≠ .ok (.ready (some event))) :
    reported checkpoint result = checkpoint := by
  rcases result with e | _ | _ | event
  case ok.ready.some => exact absurd rfl (h event)
  all_goals rfl

/-- What a poll that does not fail leaves. -/
def Tracks {ρ : Type} (confirmations : UInt64) (checkpoint : Nat) (logs : ρ → LogStream)
    (block : ρ → Option UInt64) (self : ρ × Shared Digest)
    (result : Poll (Option BridgeChecked)) : Prop :=
  (∀ e, result ≠ .error e) →
    Tracked confirmations (reported checkpoint result) (logs self.1) (block self.1)

section Tracked

variable {confirmations : UInt64} {checkpoint : Nat} {logs : LogStream} {block : Option UInt64}

/-- A poll that reports nothing. -/
theorem Tracked.tracks {ρ : Type} {logsOf : ρ → LogStream} {blockOf : ρ → Option UInt64}
    {self : ρ × Shared Digest}
    (h : Tracked confirmations checkpoint (logsOf self.1) (blockOf self.1))
    {result : Poll (Option BridgeChecked)}
    (hnothing : ∀ event, result ≠ .ok (.ready (some event))) :
    Tracks confirmations checkpoint logsOf blockOf self result := by
  intro _
  rw [reported_of_nothing hnothing]
  exact h

/-- The block that is reported is where the stream is. -/
theorem tracks_event {ρ : Type} {logsOf : ρ → LogStream} {blockOf : ρ → Option UInt64}
    {self : ρ × Shared Digest} {event : BridgeChecked}
    (h : Tracked confirmations checkpoint (logsOf self.1) (some event.block))
    (hblock : event.block.toNat = (logsOf self.1).position) (hidle : blockOf self.1 = none) :
    Tracks confirmations checkpoint logsOf blockOf self (.ok (.ready (some event))) := by
  intro _
  rw [hidle]
  exact ⟨h.confirmations_eq, fun _ => hblock.symm, fun hbusy => absurd rfl hbusy⟩

section Poll

variable {A : LogStream.Answers → Prop} {script : List LogStream.Answers}

theorem Tracked.poll_nothing (h : Tracked confirmations checkpoint logs none)
    (hinv : logs.Inv A) (hscript : ∀ answers ∈ script, A answers)
    (hnothing : ∀ item, (logs.poll script).2 ≠ .ok (.ready (some item))) :
    Tracked confirmations checkpoint (logs.poll script).1 none := by
  obtain ⟨-, -, hconf, hresult⟩ := LogStream.poll_spec hscript hinv
  have hposition : (logs.poll script).1.position = logs.position := by
    split at hresult
    · rename_i item heq
      exact absurd heq (hnothing item)
    · exact hresult
  exact ⟨hconf.trans h.confirmations_eq, fun _ => hposition.trans (h.idle rfl),
    fun hbusy => absurd rfl hbusy⟩

theorem Tracked.poll_item (h : Tracked confirmations checkpoint logs none)
    (hinv : logs.Inv A) (hscript : ∀ answers ∈ script, A answers) {item : LogStreamItem}
    (hitem : (logs.poll script).2 = .ok (.ready (some item))) (toBlock : UInt64) :
    Tracked confirmations checkpoint (logs.poll script).1 (some toBlock) := by
  obtain ⟨-, -, hconf, hresult⟩ := LogStream.poll_spec hscript hinv
  rw [hitem] at hresult
  obtain ⟨-, -, -, hstate, -⟩ := hresult
  refine ⟨hconf.trans h.confirmations_eq, fun hidle => (by cases hidle), fun _ => ?_⟩
  rw [Following.Resting, hstate]
  trivial

end Poll

theorem awaitItem_tracked {ρ : Type} {context : String} {script : List LogStream.Answers}
    {shared : Shared Digest} {setLogs : LogStream → ρ} {logsOf : ρ → LogStream}
    {blockOf : ρ → Option UInt64} {A : LogStream.Answers → Prop}
    {next : LogStreamItem → ρ → Flow (ρ × Shared Digest) (Poll (Option BridgeChecked))}
    (h : Tracked confirmations checkpoint logs none) (hinv : logs.Inv A)
    (hscript : ∀ answers ∈ script, A answers)
    (hset : ∀ logs, logsOf (setLogs logs) = logs ∧ blockOf (setLogs logs) = none)
    (hnext : ∀ item logs, Tracked confirmations checkpoint logs (some item.toBlock) →
      (next item (setLogs logs)).Sat
        (fun s => Tracked confirmations checkpoint (logsOf s.1) (blockOf s.1))
        (Tracks confirmations checkpoint logsOf blockOf)) :
    (awaitItem context logs script shared setLogs next).Sat
      (fun s => Tracked confirmations checkpoint (logsOf s.1) (blockOf s.1))
      (Tracks confirmations checkpoint logsOf blockOf) := by
  refine awaitItem_flow ?_ fun item hitem => hnext item _ (h.poll_item hinv hscript hitem _)
  intro r hquiet _ hnothing
  refine Tracked.tracks ?_ hquiet
  rw [(hset _).1, (hset _).2]
  exact h.poll_nothing hinv hscript hnothing

theorem awaitBatch_tracked {ρ : Type} {context : String} {app : App Digest} {relay : Relay}
    {side : Side} {future : Batch Digest} {batch : Batch.Script Digest} {shared : Shared Digest}
    {setFuture : Batch Digest → ρ} {done : ρ} {logsOf : ρ → LogStream}
    {blockOf : ρ → Option UInt64} (h : Tracked confirmations checkpoint logs block)
    (hset : ∀ future, logsOf (setFuture future) = logs ∧ blockOf (setFuture future) = block)
    (hdone : logsOf done = logs ∧ blockOf done = block) :
    (awaitBatch app relay side context future batch shared setFuture done).Sat
      (fun s => Tracked confirmations checkpoint (logsOf s.1) (blockOf s.1))
      (Tracks confirmations checkpoint logsOf blockOf) := by
  refine awaitBatch_flow ?_ fun shared' => ?_
  · intro future' shared' r hquiet _
    refine Tracked.tracks ?_ hquiet
    rw [(hset _).1, (hset _).2]
    exact h
  · dsimp only
    rw [hdone.1, hdone.2]
    exact h

end Tracked

section Relays

variable {app : App Digest} {init : Database} {floor checkpoint : Nat} {confirmations : UInt64}

theorem DepositRelay.body_tracked {home : Nat → List Log}
    {self : DepositRelay Digest × Shared Digest} {answers : DepositRelay.Answers Digest}
    (hanswers : ∀ a ∈ answers.logs, Complete home a)
    (hinv : DepositRelay.Inv app init home floor self.1 self.2)
    (h : Tracked confirmations checkpoint (logs self.1) (block self.1)) :
    (body app self answers).Sat
      (fun s => Tracked confirmations checkpoint (logs s.1) (block s.1))
      (Tracks confirmations checkpoint logs block) := by
  obtain ⟨⟨logs, state, contract, chainId⟩, shared⟩ := self
  cases state with
  | wait =>
    rw [body]
    dsimp only
    split
    · exact Tracked.tracks h fun _ heq => by cases heq
    · refine awaitItem_tracked h hinv.progress.stream hanswers (fun _ => ⟨rfl, rfl⟩) ?_
      intro item logs hitem
      split
      · exact fun hok => absurd rfl (hok _)
      · exact hitem
  | relayDeposits future block =>
    rw [body]
    exact awaitBatch_tracked h (fun _ => ⟨rfl, rfl⟩) ⟨rfl, rfl⟩
  | yield block =>
    cases block with
    | none => exact h
    | some block => exact tracks_event h (hinv.progress.block_eq block rfl) rfl

theorem WithdrawConfirm.body_tracked {foreign : Nat → List Log}
    {self : WithdrawConfirm Digest × Shared Digest} {answers : WithdrawConfirm.Answers Digest}
    (hanswers : ∀ a ∈ answers.logs, Complete foreign a)
    (hinv : WithdrawConfirm.Inv app init foreign floor self.1 self.2)
    (h : Tracked confirmations checkpoint (logs self.1) (block self.1)) :
    (body app self answers).Sat
      (fun s => Tracked confirmations checkpoint (logs s.1) (block s.1))
      (Tracks confirmations checkpoint logs block) := by
  obtain ⟨⟨logs, state, contract, chainId⟩, shared⟩ := self
  cases state with
  | wait =>
    rw [body]
    dsimp only
    split
    · exact Tracked.tracks h fun _ heq => by cases heq
    · refine awaitItem_tracked h hinv.progress.stream hanswers (fun _ => ⟨rfl, rfl⟩) ?_
      intro item logs hitem
      split
      · exact fun hok => absurd rfl (hok _)
      · exact hitem
  | confirmWithdraws future block =>
    rw [body]
    exact awaitBatch_tracked h (fun _ => ⟨rfl, rfl⟩) ⟨rfl, rfl⟩
  | yield block =>
    cases block with
    | none => exact h
    | some block => exact tracks_event h (hinv.progress.block_eq block rfl) rfl

theorem WithdrawRelay.body_tracked {foreign : Nat → List Log}
    {called : Address → Bytes → Bytes → Prop}
    {self : WithdrawRelay Digest × Shared Digest} {answers : WithdrawRelay.Answers Digest}
    (hanswers : answers.Honest foreign called)
    (hinv : WithdrawRelay.Inv app init foreign called floor self.1 self.2)
    (h : Tracked confirmations checkpoint (logs self.1) (block self.1)) :
    (body app self answers).Sat
      (fun s => Tracked confirmations checkpoint (logs s.1) (block s.1))
      (Tracks confirmations checkpoint logs block) := by
  obtain ⟨⟨logs, state, foreignContract, homeContract, chainId⟩, shared⟩ := self
  cases state with
  | wait =>
    rw [body]
    refine awaitItem_tracked h hinv.progress.stream hanswers.logs (fun _ => ⟨rfl, rfl⟩) ?_
    intro item logs hitem
    split
    · exact fun hok => absurd rfl (hok _)
    · exact hitem
  | fetchMessagesSignatures assignments future block =>
    rw [body]
    unfold awaitFetch
    dsimp only
    split
    · exact Tracked.tracks h fun _ heq => by cases heq
    · refine tryReady_sat ?_ ?_ ?_
      · exact fun _ _ hok => absurd rfl (hok _)
      · exact fun _ => Tracked.tracks h fun _ heq => by cases heq
      · intro raws _
        split
        · exact fun hok => absurd rfl (hok _)
        · exact h
  | relayWithdraws future block =>
    rw [body]
    exact awaitBatch_tracked h (fun _ => ⟨rfl, rfl⟩) ⟨rfl, rfl⟩
  | yield block =>
    cases block with
    | none => exact h
    | some block => exact tracks_event h (hinv.progress.block_eq block rfl) rfl

/-! ### Polls of the relays -/

theorem DepositRelay.poll_tracked {home : Nat → List Log} {relay : DepositRelay Digest}
    {shared : Shared Digest} {script : List (DepositRelay.Answers Digest)}
    (hscript : ∀ answers ∈ script, ∀ a ∈ answers.logs, Complete home a)
    (hinv : DepositRelay.Inv app init home floor relay shared)
    (h : Tracked confirmations checkpoint relay.logs relay.block) :
    Tracks confirmations checkpoint logs block (poll app (relay, shared) script).1
      (poll app (relay, shared) script).2 := by
  refine run_sat_of_kept (K := (spec app init home).Kept app (Inv app init home floor) shared)
    (P := fun s => Tracked confirmations checkpoint (logs s.1) (block s.1)) ?_ ?_
    (fun _ hs => hs.tracks fun _ heq => by cases heq) ⟨Spec.Step.refl shared, hinv⟩ h
  · exact fun answers hmem _ hs => (body_sat (hscript answers hmem) hs).imp (fun _ h => h)
      fun _ _ _ => trivial
  · exact fun answers hmem _ hs => body_tracked (hscript answers hmem) hs.2

theorem WithdrawConfirm.poll_tracked {foreign : Nat → List Log} {relay : WithdrawConfirm Digest}
    {shared : Shared Digest} {script : List (WithdrawConfirm.Answers Digest)}
    (hscript : ∀ answers ∈ script, ∀ a ∈ answers.logs, Complete foreign a)
    (hinv : WithdrawConfirm.Inv app init foreign floor relay shared)
    (h : Tracked confirmations checkpoint relay.logs relay.block) :
    Tracks confirmations checkpoint logs block (poll app (relay, shared) script).1
      (poll app (relay, shared) script).2 := by
  refine run_sat_of_kept
    (K := (spec app init foreign).Kept app (Inv app init foreign floor) shared)
    (P := fun s => Tracked confirmations checkpoint (logs s.1) (block s.1)) ?_ ?_
    (fun _ hs => hs.tracks fun _ heq => by cases heq) ⟨Spec.Step.refl shared, hinv⟩ h
  · exact fun answers hmem _ hs => (body_sat (hscript answers hmem) hs).imp (fun _ h => h)
      fun _ _ _ => trivial
  · exact fun answers hmem _ hs => body_tracked (hscript answers hmem) hs.2

theorem WithdrawRelay.poll_tracked {foreign : Nat → List Log}
    {called : Address → Bytes → Bytes → Prop} {relay : WithdrawRelay Digest}
    {shared : Shared Digest} {script : List (WithdrawRelay.Answers Digest)}
    (hscript : ∀ answers ∈ script, answers.Honest foreign called)
    (hinv : WithdrawRelay.Inv app init foreign called floor relay shared)
    (h : Tracked confirmations checkpoint relay.logs relay.block) :
    Tracks confirmations checkpoint logs block (poll app (relay, shared) script).1
      (poll app (relay, shared) script).2 := by
  refine run_sat_of_kept
    (K := (spec app init foreign called).Kept app (Inv app init foreign called floor) shared)
    (P := fun s => Tracked confirmations checkpoint (logs s.1) (block s.1)) ?_ ?_
    (fun _ hs => hs.tracks fun _ heq => by cases heq) ⟨Spec.Step.refl shared, hinv⟩ h
  · exact fun answers hmem _ hs => (body_sat (hscript answers hmem) hs).imp (fun _ h => h)
      fun _ _ _ => trivial
  · exact fun answers hmem _ hs => body_tracked (hscript answers hmem) hs.2

end Relays

/-! ## Answered relays finish -/

theorem exists_of_mem_matchingLogs {blocks : Nat → List Log} {filter : Filter}
    {fromBlock toBlock : Nat} {log : Log} (h : log ∈ matchingLogs blocks filter fromBlock toBlock) :
    ∃ block, log ∈ blocks block ∧ filter.matches log = true := by
  obtain ⟨block, -, hlog⟩ := List.mem_flatMap.1 h
  exact ⟨block, List.mem_filter.1 hlog⟩

/-- The logs of an item are logs of the chain. -/
theorem exists_of_mem_item {blocks : Nat → List Log} {logs : LogStream}
    {script : List LogStream.Answers} (hinv : logs.Inv (Faithful blocks))
    (hfaithful : ∀ answers ∈ script, Faithful blocks answers) {item : LogStreamItem}
    (hitem : (logs.poll script).2 = .ok (.ready (some item))) :
    ∀ log ∈ item.logs, ∃ block, log ∈ blocks block ∧ logs.filter.matches log = true := by
  have hpost := LogStream.poll_spec hfaithful hinv
  rw [hitem] at hpost
  obtain ⟨-, -, -, hdelivered, -⟩ := hpost
  obtain ⟨answers, hanswers, hlogs⟩ := hdelivered.answered
  intro log hlog
  exact exists_of_mem_matchingLogs ((hanswers _ _ _ _ hlogs).mem_iff.1 hlog)

section Finishes

variable {ρ : Type} {context : String} {shared : Shared Digest}
  {P : ρ × Shared Digest → Prop} {logsOf : ρ → LogStream} {blockOf : ρ → Option UInt64}
  {caught : Prop}

/-- An idle relay whose node is prompt: it has read everything, or it gets an item of
logs of the chain. -/
theorem awaitItem_finishes {logs : LogStream} {script : List LogStream.Answers}
    {setLogs : LogStream → ρ} {blocks : Nat → List Log}
    {next : LogStreamItem → ρ → Flow (ρ × Shared Digest) (Poll (Option BridgeChecked))}
    {best : Nat} (hbest : best < 2 ^ 64) (hinv : logs.Inv (Faithful blocks))
    (hfaithful : ∀ answers ∈ script, Faithful blocks answers)
    (hprompt : ∀ answers ∈ script, Following.Prompt best answers) (hlength : 5 ≤ script.length)
    (hcaught : caught → Caught (Following.head best logs.confirmations) logs none)
    (hset : ∀ logs, logsOf (setLogs logs) = logs ∧ blockOf (setLogs logs) = none)
    (hnext : ∀ item logs', (logs.poll script).2 = .ok (.ready (some item)) →
      (∀ log ∈ item.logs, ∃ block, log ∈ blocks block ∧ logs.filter.matches log = true) →
      (caught → Caught (Following.head best logs.confirmations) logs' (some item.toBlock)) →
      (next item (setLogs logs')).Sat P fun s =>
        Finished (Following.head best logs.confirmations) caught (logsOf s.1) (blockOf s.1)) :
    (awaitItem context logs script shared setLogs next).Sat P fun s =>
      Finished (Following.head best logs.confirmations) caught (logsOf s.1) (blockOf s.1) := by
  obtain ⟨hrest, hhead⟩ := Following.poll_head hprompt hlength hbest
  refine awaitItem_flow ?_ ?_
  · intro r _ herror _
    dsimp only
    rw [(hset _).1, (hset _).2]
    refine ⟨?_, hrest, rfl, fun h => hhead (hcaught h).resting⟩
    intro e heq
    obtain ⟨e', he'⟩ := herror e heq
    rcases Following.poll_prompt hprompt with hwaits | ⟨item, hitem⟩
    · rw [he'] at hwaits
      cases hwaits
    · rw [he'] at hitem
      cases hitem
  · intro item hitem
    exact hnext item _ hitem (exists_of_mem_item hinv hfaithful hitem)
      fun h => ⟨hrest, fun _ => hhead (hcaught h).resting⟩

/-- A batch whose transactions are taken is done. -/
theorem awaitBatch_finishes {app : App Digest} {relay : Relay} {side : Side}
    {future : Batch Digest} {batch : Batch.Script Digest} {setFuture : Batch Digest → ρ} {done : ρ}
    {account : Address} {Q : ρ × Shared Digest → Poll (Option BridgeChecked) → Prop}
    (hsigns : app.wallet.Signs account) (hfutures : ∀ p ∈ future.pending, p.2.account = account)
    (hanswered : future.Answered batch) (hdone : ∀ shared', P (done, shared')) :
    (awaitBatch app relay side context future batch shared setFuture done).Sat P Q := by
  obtain ⟨hashes, hhashes⟩ := Batch.poll_answered relay side shared hsigns hfutures hanswered
  exact awaitBatch_flow (fun _ _ _ _ hwaits => absurd hhashes (hwaits hashes)) hdone

/-- The block of an answered relay is reported. -/
theorem finished_event {confirmations : UInt64} {checkpoint target : Nat} {logs : LogStream}
    {event : BridgeChecked} (h : Tracked confirmations checkpoint logs (some event.block))
    (hcaught : caught → Caught target logs (some event.block)) :
    Finished target caught logs none (.ok (.ready (some event))) :=
  ⟨fun _ heq => (by cases heq), h.busy (Option.some_ne_none _), rfl,
    fun hc => (hcaught hc).busy (Option.some_ne_none _)⟩

/-- The calls of an answered relay finish.  `K` is what every iteration keeps. -/
theorem run_finishes {ι : Type}
    {body : ρ × Shared Digest → ι → Flow (ρ × Shared Digest) (Poll (Option BridgeChecked))}
    {K : ρ × Shared Digest → Prop} {C : ρ × Shared Digest → ι → Prop} {target : Nat}
    (rank : ρ × Shared Digest → Nat) {script : List ι} {self : ρ × Shared Digest}
    (hanswered : Along body C self script)
    (hkeeps : ∀ i ∈ script, ∀ s, K s → (body s i).Sat K fun _ _ => True)
    (hbody : ∀ i ∈ script, ∀ s caught, K s →
      (caught → Caught target (logsOf s.1) (blockOf s.1)) → C s i →
      (body s i).Sat (fun s' => (caught → Caught target (logsOf s'.1) (blockOf s'.1)) ∧
        rank s' < rank s) fun s' => Finished target caught (logsOf s'.1) (blockOf s'.1))
    (hself : K self) (hrank : rank self < script.length) :
    Finished target (Caught target (logsOf self.1) (blockOf self.1))
      (logsOf (run body (.ok .notReady) self script).1.1)
      (blockOf (run body (.ok .notReady) self script).1.1)
      (run body (.ok .notReady) self script).2 := by
  refine @run_returns_of_along _ _ _ body (.ok .notReady)
    (fun s => K s ∧ (Caught target (logsOf self.1) (blockOf self.1) →
      Caught target (logsOf s.1) (blockOf s.1)))
    (fun s => Finished target (Caught target (logsOf self.1) (blockOf self.1)) (logsOf s.1)
      (blockOf s.1))
    C rank script self hanswered ?_ ⟨hself, fun hcaught => hcaught⟩ hrank
  rintro i hmem s ⟨hkept, hcaught⟩ hmeets
  exact ((hkeeps i hmem s hkept).and (hbody i hmem s _ hkept hcaught hmeets)).imp
    (fun _ h => ⟨⟨h.1, h.2.1⟩, h.2.2⟩) fun _ _ h => h.2

end Finishes

end PoaBridge
