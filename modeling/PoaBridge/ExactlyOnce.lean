import PoaBridge.Bridge

/-!
# One transaction for each log

`checkpoints_sound` says that no log is left out.  This module is about the other
direction: while the process lives, no log is taken up twice.

A `Tally` compares what a relay has done with the chain.  The logs of its futures,
the ones that are under way and the ones that have ended with `Ok`, are the logs that
it has to relay in the blocks that its stream has passed, each as often as it is
there.  After a failure the tally is only `Bounded`, because the future that failed
is gone.

The tally goes up through the layers: `body_tally` of the three relays,
`Select.pollTurn_tallied`, `BridgeEventStream.poll_tallied`, and last
`World.relays_each_log_once` for the life of a process, from its start to any
later point.
-/

namespace PoaBridge

open PollLoop

variable {Digest : Type}

/-- `eth_getLogs` returns the matching logs of the blocks it is asked for, and
nothing else. -/
def Faithful (blocks : Nat → List Log) (answers : LogStream.Answers) : Prop :=
  ∀ filter fromBlock toBlock logs, answers.logs filter fromBlock toBlock = .ok (.ready logs) →
    logs.Perm (matchingLogs blocks filter fromBlock.toNat toBlock.toNat)

theorem Faithful.complete {blocks : Nat → List Log} {answers : LogStream.Answers}
    (h : Faithful blocks answers) : Complete blocks answers :=
  fun filter fromBlock toBlock logs hlogs =>
    (h filter fromBlock toBlock logs hlogs).symm.subperm

theorem subperm_map {α β : Type} (f : α → β) {xs ys : List α} (h : xs.Subperm ys) :
    (xs.map f).Subperm (ys.map f) := by
  obtain ⟨zs, hperm, hsublist⟩ := h
  exact ⟨zs.map f, hperm.map f, hsublist.map f⟩

namespace Spec

/-- No log is taken up more often than the chain has it.  The relay started after
the block `init`, and `old` are the logs that were done before that. -/
structure Bounded (spec : Spec) (init : Nat) (old : List Log) (logs : LogStream)
    (pending : List Log) (shared : Shared Digest) : Prop where
  init_le : init ≤ logs.position
  subperm : (pending ++ (shared.done spec.relay).map Job.log).Subperm
    (spec.duties init logs.position ++ old)

/-- The futures are for the logs that the stream has passed. -/
structure Tally (spec : Spec) (init : Nat) (old : List Log) (logs : LogStream)
    (pending : List Log) (shared : Shared Digest) : Prop where
  stream : logs.Inv (Faithful spec.blocks)
  filter_eq : logs.filter = spec.filter
  init_le : init ≤ logs.position
  perm : (pending ++ (shared.done spec.relay).map Job.log).Perm
    (spec.duties init logs.position ++ old)

/-- What a poll of a relay leaves: it does not take up a log twice, and if it does
not fail then it has lost none. -/
def Tallied {ρ : Type} (spec : Spec) (init : Nat) (old : List Log) (logs : ρ → LogStream)
    (pending : ρ → List Log) (self : ρ × Shared Digest)
    (result : Poll (Option BridgeChecked)) : Prop :=
  spec.Bounded init old (logs self.1) (pending self.1) self.2 ∧ ((∀ e, result ≠ .error e) →
    spec.Tally init old (logs self.1) (pending self.1) self.2)

section Tally

variable {spec : Spec} {app : App Digest} {init : Nat} {old : List Log} {logs : LogStream}
  {pending : List Log} {shared : Shared Digest}

theorem Tally.bounded (h : spec.Tally init old logs pending shared) :
    spec.Bounded init old logs pending shared :=
  ⟨h.init_le, h.perm.subperm⟩

theorem Tally.tallied {ρ : Type} {logsOf : ρ → LogStream} {pendingOf : ρ → List Log}
    {self : ρ × Shared Digest}
    (h : spec.Tally init old (logsOf self.1) (pendingOf self.1) self.2)
    (result : Poll (Option BridgeChecked)) :
    spec.Tallied init old logsOf pendingOf self result :=
  ⟨h.bounded, fun _ => h⟩

theorem Bounded.error {ρ : Type} {logsOf : ρ → LogStream} {pendingOf : ρ → List Log}
    {self : ρ × Shared Digest}
    (h : spec.Bounded init old (logsOf self.1) (pendingOf self.1) self.2) (e : Error) :
    spec.Tallied init old logsOf pendingOf self (.error e) :=
  ⟨h, fun hok => absurd rfl (hok e)⟩

/-- A poll of another relay. -/
theorem Tally.frame (h : spec.Tally init old logs pending shared) {shared' : Shared Digest}
    (hdone : shared'.done spec.relay = shared.done spec.relay) :
    spec.Tally init old logs pending shared' := by
  refine ⟨h.stream, h.filter_eq, h.init_le, ?_⟩
  rw [hdone]
  exact h.perm

/-- The stream is polled, and there is no new item. -/
theorem Tally.poll_nothing (h : spec.Tally init old logs pending shared)
    {script : List LogStream.Answers} (hscript : ∀ answers ∈ script, Faithful spec.blocks answers)
    (hnothing : ∀ item, (logs.poll script).2 ≠ .ok (.ready (some item))) :
    spec.Tally init old (logs.poll script).1 pending shared := by
  obtain ⟨hinv, hfilter, -, hresult⟩ := LogStream.poll_spec hscript h.stream
  have hposition : (logs.poll script).1.position = logs.position := by
    split at hresult
    · rename_i item heq
      exact absurd heq (hnothing item)
    · exact hresult
  refine ⟨hinv, hfilter.trans h.filter_eq, ?_, ?_⟩
  · rw [hposition]
    exact h.init_le
  · rw [hposition]
    exact h.perm

/-- The stream is polled by a relay without jobs, and there is an item. -/
theorem Tally.poll_item (h : spec.Tally init old logs [] shared)
    {script : List LogStream.Answers} (hscript : ∀ answers ∈ script, Faithful spec.blocks answers)
    {item : LogStreamItem} (hitem : (logs.poll script).2 = .ok (.ready (some item))) :
    spec.Tally init old (logs.poll script).1 (item.logs.filter spec.duty) shared := by
  obtain ⟨hinv, hfilter, -, hresult⟩ := LogStream.poll_spec hscript h.stream
  rw [hitem] at hresult
  obtain ⟨hdelivered, hfrom, hposition, -, -⟩ := hresult
  have hrange := UInt64.le_iff_toNat_le.1 hdelivered.range
  have hinit := h.init_le
  refine ⟨hinv, hfilter.trans h.filter_eq, ?_, ?_⟩
  · rw [hposition]
    omega
  · obtain ⟨answers, hfaithful, hanswer⟩ := hdelivered.answered
    have hlogs := hfaithful _ _ _ _ hanswer
    rw [hfrom, h.filter_eq] at hlogs
    have hnew : (item.logs.filter spec.duty).Perm
        (spec.duties logs.position item.toBlock.toNat) := hlogs.filter spec.duty
    have hold : ((shared.done spec.relay).map Job.log).Perm
        (spec.duties init logs.position ++ old) := h.perm
    rw [hposition, spec.duties_append hinit (by omega)]
    refine (hnew.append hold).trans ?_
    rw [← List.append_assoc]
    exact List.perm_append_comm.append_right old

/-- A relay without jobs is not bounded differently when its stream fails. -/
theorem Tally.poll_bounded (h : spec.Tally init old logs [] shared)
    {script : List LogStream.Answers}
    (hscript : ∀ answers ∈ script, Faithful spec.blocks answers) :
    spec.Bounded init old (logs.poll script).1 [] shared := by
  by_cases hitem : ∃ item, (logs.poll script).2 = .ok (.ready (some item))
  · obtain ⟨item, hitem⟩ := hitem
    obtain ⟨-, -, hinit, hperm⟩ := h.poll_item hscript hitem
    exact ⟨hinit, (List.sublist_append_right _ _).subperm.trans hperm.subperm⟩
  · exact (h.poll_nothing hscript fun item heq => hitem ⟨item, heq⟩).bounded

/-- The jobs of a poll that does not fail. -/
theorem poll_batch_tally {batch : Batch Digest} (side : Side) (script : Batch.Script Digest)
    (hfutures : spec.Futures app batch)
    (h : spec.Tally init old logs (batch.jobs.map Job.log) shared) :
    let result := Batch.poll app spec.relay side (batch, shared) script
    spec.Bounded init old logs (result.1.1.jobs.map Job.log) result.1.2 ∧
      ((∀ e, result.2 ≠ .error e) →
        spec.Tally init old logs (result.1.1.jobs.map Job.log) result.1.2) := by
  have hbatch := poll_batch shared side script hfutures
  have hsubperm := @Collect.poll_subperm _ _ _ _ _ _ (spec.Step app shared)
    (fun (job : Job) (future : NonceCheck) => spec.relays job.log job.future ∧
      NonceCheck.Sends app.wallet job.future future)
    (Shared.done · spec.relay) (pollJob app.wallet spec.relay side) script batch shared
    (fun _ _ _ _ _ hw hR => pollJob_step side _ hw hR) (Step.refl shared) hfutures
  have hmap := subperm_map Job.log hsubperm
  rw [List.map_append, List.map_append] at hmap
  refine ⟨⟨h.init_le, hmap.trans h.perm.subperm⟩, fun hok => ?_⟩
  have hperm := (hbatch.2 hok).2.1.map Job.log
  rw [List.map_append, List.map_append] at hperm
  exact ⟨h.stream, h.filter_eq, h.init_le, hperm.trans h.perm⟩

/-! ### The common parts of the loops -/

variable {ρ : Type} {logsOf : ρ → LogStream} {pendingOf : ρ → List Log}

/-- What holds before every iteration. -/
def Counted (spec : Spec) (init : Nat) (old : List Log) (logsOf : ρ → LogStream)
    (pendingOf : ρ → List Log) (self : ρ × Shared Digest) : Prop :=
  spec.Tally init old (logsOf self.1) (pendingOf self.1) self.2

theorem awaitItem_tallied {context : String} {script : List LogStream.Answers}
    {setLogs : LogStream → ρ}
    {next : LogStreamItem → ρ → Flow (ρ × Shared Digest) (Poll (Option BridgeChecked))}
    (hscript : ∀ answers ∈ script, Faithful spec.blocks answers)
    (h : spec.Tally init old logs [] shared) (hlogs : ∀ logs, logsOf (setLogs logs) = logs)
    (hpending : ∀ logs, pendingOf (setLogs logs) = [])
    (hitem : ∀ item logs, spec.Bounded init old logs [] shared →
      spec.Tally init old logs (item.logs.filter spec.duty) shared →
      (next item (setLogs logs)).Sat (spec.Counted init old logsOf pendingOf)
        (spec.Tallied init old logsOf pendingOf)) :
    (awaitItem context logs script shared setLogs next).Sat
      (spec.Counted init old logsOf pendingOf) (spec.Tallied init old logsOf pendingOf) := by
  have hbounded := h.poll_bounded hscript
  have hreturn : ∀ logs, spec.Bounded init old logs [] shared →
      spec.Bounded init old (logsOf (setLogs logs)) (pendingOf (setLogs logs)) shared := by
    intro logs hlogs'
    rw [hlogs, hpending]
    exact hlogs'
  have hnothing : ∀ logs, spec.Tally init old logs [] shared →
      spec.Tally init old (logsOf (setLogs logs)) (pendingOf (setLogs logs)) shared := by
    intro logs hlogs'
    rw [hlogs, hpending]
    exact hlogs'
  unfold awaitItem
  dsimp only
  refine tryStream_sat ?_ ?_ ?_ ?_
  · exact fun e _ => Bounded.error (hreturn _ hbounded) e
  · intro hp
    rw [withContext_eq_ok] at hp
    exact Tally.tallied (hnothing _ (h.poll_nothing hscript (by simp [hp]))) _
  · intro hp
    rw [withContext_eq_ok] at hp
    exact Tally.tallied (hnothing _ (h.poll_nothing hscript (by simp [hp]))) _
  · intro item hp
    rw [withContext_eq_ok] at hp
    exact hitem item _ hbounded (h.poll_item hscript hp)

theorem awaitBatch_tallied {side : Side} {context : String} {future : Batch Digest}
    {script : Batch.Script Digest} {setFuture : Batch Digest → ρ} {next : ρ}
    (hfuture : spec.Futures app future)
    (h : spec.Tally init old logs (future.jobs.map Job.log) shared)
    (hlogs : ∀ future, logsOf (setFuture future) = logs)
    (hpending : ∀ future, pendingOf (setFuture future) = future.jobs.map Job.log)
    (hnext : logsOf next = logs ∧ pendingOf next = []) :
    (awaitBatch app spec.relay side context future script shared setFuture next).Sat
      (spec.Counted init old logsOf pendingOf) (spec.Tallied init old logsOf pendingOf) := by
  have hjobs := poll_batch_tally side script hfuture h
  have hdone := (poll_batch shared side script hfuture).2
  unfold awaitBatch
  dsimp only at hjobs hdone ⊢
  generalize Batch.poll app spec.relay side (future, shared) script = result at hjobs hdone ⊢
  obtain ⟨⟨future', shared'⟩, result⟩ := result
  dsimp only at hjobs hdone ⊢
  refine tryReady_sat ?_ ?_ ?_
  · intro e _
    refine Bounded.error ?_ e
    rw [hlogs, hpending]
    exact hjobs.1
  · intro hp
    rw [withContext_eq_ok] at hp
    refine Tally.tallied ?_ _
    rw [hlogs, hpending]
    exact hjobs.2 (by simp [hp])
  · intro hashes hp
    rw [withContext_eq_ok] at hp
    have hok : ∀ e, result ≠ .error e := by simp [hp]
    have htally := hjobs.2 hok
    rw [Collect.jobs, (hdone hok).2.2 hashes hp] at htally
    show spec.Tally init old (logsOf next) (pendingOf next) shared'
    rw [hnext.1, hnext.2]
    exact htally

end Tally

end Spec

/-! ## The relays -/

section Relays

variable {app : App Digest} {init : Database} {floor start : Nat} {old : List Log}

theorem DepositRelay.body_tallied {home : Nat → List Log}
    {self : DepositRelay Digest × Shared Digest} {answers : DepositRelay.Answers Digest}
    (hanswers : ∀ a ∈ answers.logs, Faithful home a)
    (hinv : DepositRelay.Inv app init home floor self.1 self.2)
    (h : (spec app init home).Counted start old logs pending self) :
    (body app self answers).Sat ((spec app init home).Counted start old logs pending)
      ((spec app init home).Tallied start old logs pending) := by
  obtain ⟨⟨logs, state, contract, chainId⟩, shared⟩ := self
  cases state with
  | wait =>
    rw [body]
    dsimp only
    split
    · exact Spec.Tally.tallied h _
    · refine Spec.awaitItem_tallied hanswers h (fun _ => rfl) (fun _ => rfl) ?_
      intro item logs hbounded hitem
      split
      · exact Spec.Bounded.error hbounded _
      · rename_i deposits hdeposits
        obtain ⟨hlogs, -⟩ := transactions_eq_ok hdeposits chainId
        show (spec app init home).Tally start old logs
          ((sendAll app.foreign.account chainId deposits : Batch Digest).jobs.map Job.log) shared
        simp only [spec, List.filter_true] at hitem
        rw [Spec.jobs_sendAll, hlogs]
        exact hitem
  | relayDeposits future block =>
    rw [body]
    exact Spec.awaitBatch_tallied (hinv.futures future block rfl) h (fun _ => rfl)
      (fun _ => rfl) ⟨rfl, rfl⟩
  | yield block =>
    cases block with
    | none => exact h
    | some block => exact Spec.Tally.tallied h _

theorem WithdrawConfirm.body_tallied {foreign : Nat → List Log}
    {self : WithdrawConfirm Digest × Shared Digest} {answers : WithdrawConfirm.Answers Digest}
    (hanswers : ∀ a ∈ answers.logs, Faithful foreign a)
    (hinv : WithdrawConfirm.Inv app init foreign floor self.1 self.2)
    (h : (spec app init foreign).Counted start old logs pending self) :
    (body app self answers).Sat ((spec app init foreign).Counted start old logs pending)
      ((spec app init foreign).Tallied start old logs pending) := by
  obtain ⟨⟨logs, state, contract, chainId⟩, shared⟩ := self
  cases state with
  | wait =>
    rw [body]
    dsimp only
    split
    · exact Spec.Tally.tallied h _
    · refine Spec.awaitItem_tallied hanswers h (fun _ => rfl) (fun _ => rfl) ?_
      intro item logs hbounded hitem
      split
      · exact Spec.Bounded.error hbounded _
      · rename_i confirmations hconfirmations
        obtain ⟨hlogs, -⟩ := transactions_eq_ok hconfirmations chainId
        show (spec app init foreign).Tally start old logs
          ((sendAll app.foreign.account chainId confirmations : Batch Digest).jobs.map Job.log)
          shared
        simp only [spec, List.filter_true] at hitem
        rw [Spec.jobs_sendAll, hlogs]
        exact hitem
  | confirmWithdraws future block =>
    rw [body]
    exact Spec.awaitBatch_tallied (hinv.futures future block rfl) h (fun _ => rfl)
      (fun _ => rfl) ⟨rfl, rfl⟩
  | yield block =>
    cases block with
    | none => exact h
    | some block => exact Spec.Tally.tallied h _

/-- The node reports the matching logs, and `called` is what it answers to
`eth_call`. -/
structure WithdrawRelay.Answers.Faithful (foreign : Nat → List Log)
    (called : Address → Bytes → Bytes → Prop) (answers : WithdrawRelay.Answers Digest) :
    Prop where
  logs : ∀ a ∈ answers.logs, PoaBridge.Faithful foreign a
  call : ∀ id contract payload raw, answers.call id contract payload = .ok (.ready raw) →
    called contract payload raw

/-- The logs whose messages are fetched are the jobs that come next. -/
theorem WithdrawRelay.awaitFetch_tallied {foreign : Nat → List Log}
    {called : Address → Bytes → Bytes → Prop} {relay : WithdrawRelay Digest}
    {shared : Shared Digest} {answers : WithdrawRelay.Answers Digest}
    {assignments : List (Log × RelayAssignment)} {future : Fetch} {block : UInt64}
    (hanswers : answers.Faithful foreign called)
    (hforeign : relay.foreignContract = init.foreignContractAddress)
    (hstate : relay.state = .fetchMessagesSignatures assignments future block)
    (hfetch : Fetching (called init.foreignContractAddress) assignments future)
    (h : (spec app init foreign called).Counted start old logs pending (relay, shared)) :
    (awaitFetch app relay shared answers assignments future block).Sat
      ((spec app init foreign called).Counted start old logs pending)
      ((spec app init foreign called).Tallied start old logs pending) := by
  have htally : (spec app init foreign called).Tally start old relay.logs
      (assignments.map Prod.fst) shared := by
    have h' : (spec app init foreign called).Tally start old relay.logs relay.pending shared := h
    rw [pending, hstate] at h'
    exact h'
  have hpolled := pollFetch_spec
    (fun id payload raw hraw => hanswers.call id init.foreignContractAddress payload raw hraw)
    hfetch
  unfold awaitFetch
  rw [hforeign]
  dsimp only
  split
  · exact Spec.Tally.tallied h _
  · refine tryReady_sat ?_ ?_ ?_
    · exact fun e _ => Spec.Bounded.error htally.bounded e
    · exact fun _ => Spec.Tally.tallied htally _
    · intro raws hp
      rw [withContext_eq_ok] at hp
      obtain ⟨hmessages, hsignatures⟩ := hpolled.2 raws hp
      split
      · exact Spec.Bounded.error htally.bounded _
      · rename_i relays hrelays
        obtain ⟨hlogs, -⟩ := transactions_eq_ok hrelays hmessages hsignatures
        show (spec app init foreign called).Tally start old relay.logs
          ((sendAll app.home.account relay.homeChainId relays : Batch Digest).jobs.map Job.log)
          shared
        rw [Spec.jobs_sendAll, hlogs]
        exact htally

theorem WithdrawRelay.body_tallied {foreign : Nat → List Log}
    {called : Address → Bytes → Bytes → Prop}
    {self : WithdrawRelay Digest × Shared Digest} {answers : WithdrawRelay.Answers Digest}
    (hanswers : answers.Faithful foreign called)
    (hinv : WithdrawRelay.Inv app init foreign called floor self.1 self.2)
    (h : (spec app init foreign called).Counted start old logs pending self) :
    (body app self answers).Sat ((spec app init foreign called).Counted start old logs pending)
      ((spec app init foreign called).Tallied start old logs pending) := by
  obtain ⟨⟨logs, state, foreignContract, homeContract, chainId⟩, shared⟩ := self
  cases state with
  | wait =>
    rw [body]
    refine Spec.awaitItem_tallied hanswers.logs h (fun _ => rfl) (fun _ => rfl) ?_
    intro item logs hbounded hitem
    split
    · exact Spec.Bounded.error hbounded _
    · rename_i assignments hassignments
      obtain ⟨hlogs, -⟩ := assignments_eq_ok hassignments
      show (spec app init foreign called).Tally start old logs (assignments.map Prod.fst) shared
      rw [hlogs]
      exact hitem
  | fetchMessagesSignatures assignments future block =>
    rw [body]
    exact awaitFetch_tallied hanswers hinv.foreignContract rfl
      (hinv.fetching assignments future block rfl).2 h
  | relayWithdraws future block =>
    rw [body]
    exact Spec.awaitBatch_tallied (hinv.futures future block rfl) h (fun _ => rfl)
      (fun _ => rfl) ⟨rfl, rfl⟩
  | yield block =>
    cases block with
    | none => exact h
    | some block => exact Spec.Tally.tallied h _

/-! ### Polls of the relays -/

theorem DepositRelay.poll_tallied {home : Nat → List Log} {relay : DepositRelay Digest}
    {shared : Shared Digest} {script : List (DepositRelay.Answers Digest)}
    (hscript : ∀ answers ∈ script, ∀ a ∈ answers.logs, Faithful home a)
    (hinv : DepositRelay.Inv app init home floor relay shared)
    (h : (spec app init home).Counted start old logs pending (relay, shared)) :
    (spec app init home).Tallied start old logs pending (poll app (relay, shared) script).1
      (poll app (relay, shared) script).2 := by
  refine run_sat_of_kept (K := (spec app init home).Kept app (Inv app init home floor) shared)
    (P := (spec app init home).Counted start old logs pending) ?_ ?_
    (fun _ hs => Spec.Tally.tallied hs _) ⟨Spec.Step.refl shared, hinv⟩ h
  · exact fun answers hmem _ hs =>
      (body_sat (fun a ha => (hscript answers hmem a ha).complete) hs).imp (fun _ h => h)
        fun _ _ _ => trivial
  · exact fun answers hmem _ hs => body_tallied (hscript answers hmem) hs.2

theorem WithdrawConfirm.poll_tallied {foreign : Nat → List Log} {relay : WithdrawConfirm Digest}
    {shared : Shared Digest} {script : List (WithdrawConfirm.Answers Digest)}
    (hscript : ∀ answers ∈ script, ∀ a ∈ answers.logs, Faithful foreign a)
    (hinv : WithdrawConfirm.Inv app init foreign floor relay shared)
    (h : (spec app init foreign).Counted start old logs pending (relay, shared)) :
    (spec app init foreign).Tallied start old logs pending (poll app (relay, shared) script).1
      (poll app (relay, shared) script).2 := by
  refine run_sat_of_kept
    (K := (spec app init foreign).Kept app (Inv app init foreign floor) shared)
    (P := (spec app init foreign).Counted start old logs pending) ?_ ?_
    (fun _ hs => Spec.Tally.tallied hs _) ⟨Spec.Step.refl shared, hinv⟩ h
  · exact fun answers hmem _ hs =>
      (body_sat (fun a ha => (hscript answers hmem a ha).complete) hs).imp (fun _ h => h)
        fun _ _ _ => trivial
  · exact fun answers hmem _ hs => body_tallied (hscript answers hmem) hs.2

theorem WithdrawRelay.Answers.Faithful.honest {foreign : Nat → List Log}
    {called : Address → Bytes → Bytes → Prop} {answers : WithdrawRelay.Answers Digest}
    (h : answers.Faithful foreign called) : answers.Honest foreign called :=
  ⟨fun a ha => (h.logs a ha).complete, h.call⟩

theorem WithdrawRelay.poll_tallied {foreign : Nat → List Log}
    {called : Address → Bytes → Bytes → Prop} {relay : WithdrawRelay Digest}
    {shared : Shared Digest} {script : List (WithdrawRelay.Answers Digest)}
    (hscript : ∀ answers ∈ script, answers.Faithful foreign called)
    (hinv : WithdrawRelay.Inv app init foreign called floor relay shared)
    (h : (spec app init foreign called).Counted start old logs pending (relay, shared)) :
    (spec app init foreign called).Tallied start old logs pending
      (poll app (relay, shared) script).1 (poll app (relay, shared) script).2 := by
  refine run_sat_of_kept
    (K := (spec app init foreign called).Kept app (Inv app init foreign called floor) shared)
    (P := (spec app init foreign called).Counted start old logs pending) ?_ ?_
    (fun _ hs => Spec.Tally.tallied hs _) ⟨Spec.Step.refl shared, hinv⟩ h
  · exact fun answers hmem _ hs =>
      (body_sat (hscript answers hmem).honest hs).imp (fun _ h => h) fun _ _ _ => trivial
  · exact fun answers hmem _ hs => body_tallied (hscript answers hmem) hs.2

end Relays

/-! ## The selected relays -/

section Streams

variable {app : App Digest} {init : Database} {chains : Chains} {floor starts : Relay → Nat}
  {olds : Relay → List Log}

namespace Select

/-- The logs that a relay has taken up and not finished. -/
def pending (self : Select Digest) : Relay → List Log
  | .depositRelay => self.depositRelay.pending
  | .withdrawRelay => self.withdrawRelay.pending
  | .withdrawConfirm => self.withdrawConfirm.pending

/-- The nodes report the matching logs. -/
def Turn.Faithful (chains : Chains) : Turn Digest → Prop
  | .depositRelay script =>
    ∀ answers ∈ script, ∀ a ∈ answers.logs, PoaBridge.Faithful chains.home a
  | .withdrawRelay script => ∀ answers ∈ script, answers.Faithful chains.foreign chains.called
  | .withdrawConfirm script =>
    ∀ answers ∈ script, ∀ a ∈ answers.logs, PoaBridge.Faithful chains.foreign a

theorem Turn.Faithful.honest {turn : Turn Digest} (h : turn.Faithful chains) :
    turn.Honest chains := by
  cases turn with
  | depositRelay script => exact fun answers hmem a ha => (h answers hmem a ha).complete
  | withdrawRelay script => exact fun answers hmem => (h answers hmem).honest
  | withdrawConfirm script => exact fun answers hmem a ha => (h answers hmem a ha).complete

/-- The tallies of the three relays.  They started after the blocks `starts`. -/
def Tally (app : App Digest) (init : Database) (chains : Chains) (starts : Relay → Nat)
    (olds : Relay → List Log) (self : Select Digest × Shared Digest) : Prop :=
  ∀ relay, (relaySpec app init chains relay).Tally (starts relay) (olds relay)
    (self.1.logs relay) (self.1.pending relay) self.2

def Bounded (app : App Digest) (init : Database) (chains : Chains) (starts : Relay → Nat)
    (olds : Relay → List Log) (self : Select Digest × Shared Digest) : Prop :=
  ∀ relay, (relaySpec app init chains relay).Bounded (starts relay) (olds relay)
    (self.1.logs relay) (self.1.pending relay) self.2

theorem Tally.bounded {self : Select Digest × Shared Digest}
    (h : Tally app init chains starts olds self) : Bounded app init chains starts olds self :=
  fun relay => (h relay).bounded

/-- What a poll leaves. -/
def Tallied (app : App Digest) (init : Database) (chains : Chains) (starts : Relay → Nat)
    (olds : Relay → List Log) (self : Select Digest × Shared Digest)
    (result : Poll (Option BridgeChecked)) : Prop :=
  Bounded app init chains starts olds self ∧
    ((∀ e, result ≠ .error e) → Tally app init chains starts olds self)

/-- A poll of one relay leaves the tallies of the others as they are. -/
theorem tallied_of_relay {ρ : Type} {relay : Relay} {logsOf : ρ → LogStream}
    {pendingOf : ρ → List Log} {self : ρ × Shared Digest} {shared : Shared Digest}
    {result : Poll (Option BridgeChecked)} {select select' : Select Digest} (context : String)
    (hrelay : (relaySpec app init chains relay).Tallied (starts relay) (olds relay) logsOf
      pendingOf self result)
    (hself : select'.logs relay = logsOf self.1 ∧ select'.pending relay = pendingOf self.1)
    (hothers : ∀ r, r ≠ relay → select'.logs r = select.logs r ∧
      select'.pending r = select.pending r ∧ self.2.done r = shared.done r)
    (h : Tally app init chains starts olds (select, shared)) :
    Tallied app init chains starts olds (select', self.2) (withContext context result) := by
  have hother : ∀ r, r ≠ relay → (relaySpec app init chains r).Tally (starts r) (olds r)
      (select'.logs r) (select'.pending r) self.2 := by
    intro r hr
    obtain ⟨hlogs, hpending, hdone⟩ := hothers r hr
    rw [hlogs, hpending]
    refine (h r).frame ?_
    rw [relay_relaySpec]
    exact hdone
  refine ⟨fun r => ?_, fun hok r => ?_⟩
  · by_cases hr : r = relay
    · subst hr
      dsimp only
      rw [hself.1, hself.2]
      exact hrelay.1
    · exact (hother r hr).bounded
  · by_cases hr : r = relay
    · subst hr
      dsimp only
      rw [hself.1, hself.2]
      exact hrelay.2 (ne_error_of_withContext hok)
    · exact hother r hr

theorem pollTurn_tallied {select : Select Digest} {shared : Shared Digest} {turn : Turn Digest}
    (hturn : turn.Faithful chains) (hinv : Inv app init chains floor select shared)
    (h : Tally app init chains starts olds (select, shared)) :
    Tallied app init chains starts olds (pollTurn app (select, shared) turn).1
      (pollTurn app (select, shared) turn).2 := by
  cases turn with
  | depositRelay script =>
    have hpost := DepositRelay.poll_spec hturn.honest hinv.depositRelay
    have htallied := DepositRelay.poll_tallied hturn hinv.depositRelay (h .depositRelay)
    refine @tallied_of_relay _ _ _ _ _ _ _ .depositRelay _ _ _ shared _ select _ "deposit_relay"
      htallied ⟨rfl, rfl⟩ (fun r hr => ?_) h
    have hdone := hpost.1.done_of_ne hr
    cases r with
    | depositRelay => exact absurd rfl hr
    | withdrawRelay => exact ⟨rfl, rfl, hdone⟩
    | withdrawConfirm => exact ⟨rfl, rfl, hdone⟩
  | withdrawRelay script =>
    have hpost := WithdrawRelay.poll_spec hturn.honest hinv.withdrawRelay
    have htallied := WithdrawRelay.poll_tallied hturn hinv.withdrawRelay (h .withdrawRelay)
    refine @tallied_of_relay _ _ _ _ _ _ _ .withdrawRelay _ _ _ shared _ select _ "withdraw_relay"
      htallied ⟨rfl, rfl⟩ (fun r hr => ?_) h
    have hdone := hpost.1.done_of_ne hr
    cases r with
    | depositRelay => exact ⟨rfl, rfl, hdone⟩
    | withdrawRelay => exact absurd rfl hr
    | withdrawConfirm => exact ⟨rfl, rfl, hdone⟩
  | withdrawConfirm script =>
    have hpost := WithdrawConfirm.poll_spec hturn.honest hinv.withdrawConfirm
    have htallied := WithdrawConfirm.poll_tallied hturn hinv.withdrawConfirm (h .withdrawConfirm)
    refine @tallied_of_relay _ _ _ _ _ _ _ .withdrawConfirm _ _ _ shared _ select _
      "withdraw_confirm" htallied ⟨rfl, rfl⟩ (fun r hr => ?_) h
    have hdone := hpost.1.done_of_ne hr
    cases r with
    | depositRelay => exact ⟨rfl, rfl, hdone⟩
    | withdrawRelay => exact ⟨rfl, rfl, hdone⟩
    | withdrawConfirm => exact absurd rfl hr

theorem poll_tallied {select : Select Digest} {shared : Shared Digest}
    {script : List (Turn Digest)} (hscript : ∀ turn ∈ script, turn.Faithful chains)
    (hinv : Inv app init chains floor select shared)
    (h : Tally app init chains starts olds (select, shared)) :
    Tallied app init chains starts olds (poll app (select, shared) script).1
      (poll app (select, shared) script).2 := by
  refine run_sat (P := fun s => Inv app init chains floor s.1 s.2 ∧
    Tally app init chains starts olds s) (fun s hs => ⟨hs.2.bounded, fun _ => hs.2⟩) script
    (select, shared) ?_ ⟨hinv, h⟩
  intro turn hmem s hs
  have hpost := pollTurn_spec (hscript turn hmem).honest hs.1
  have htallied := pollTurn_tallied (hscript turn hmem) hs.1 hs.2
  unfold body
  rcases hresult : pollTurn app s turn with ⟨s', e | _ | _ | event⟩
  all_goals rw [hresult] at hpost htallied
  · exact htallied
  · exact ⟨(hpost.2 (by simp)).1, htallied.2 (by simp)⟩
  · exact ⟨(hpost.2 (by simp)).1, htallied.2 (by simp)⟩
  · exact htallied

end Select

/-! ## The stream of events -/

namespace BridgeEventStream

/-- The nodes report the matching logs. -/
def Answers.Faithful (chains : Chains) (answers : Answers Digest) : Prop :=
  ∀ turn ∈ answers.bridge, turn.Faithful chains

theorem Answers.Faithful.honest {answers : Answers Digest} (h : answers.Faithful chains) :
    answers.Honest chains :=
  fun turn hmem => (h turn hmem).honest

/-- A component that leaves the relays and the record alone. -/
theorem tally_frame {self self' : BridgeEventStream Digest × Shared Digest}
    (h : Select.Tally app init chains starts olds (self.1.bridge, self.2))
    (hframe : self'.1.bridge = self.1.bridge ∧ self'.2.receipts = self.2.receipts) :
    Select.Tally app init chains starts olds (self'.1.bridge, self'.2) := by
  intro relay
  rw [hframe.1]
  refine (h relay).frame ?_
  rw [Shared.done, Shared.done, hframe.2]

/-- What a poll leaves. -/
def Tallied (app : App Digest) (init : Database) (chains : Chains) (starts : Relay → Nat)
    (olds : Relay → List Log) (self : BridgeEventStream Digest × Shared Digest)
    (result : Poll (Option BridgeChecked)) : Prop :=
  Select.Tallied app init chains starts olds (self.1.bridge, self.2) result

theorem awaitEvent_tallied {self : BridgeEventStream Digest × Shared Digest}
    {script : List (Select.Turn Digest)} (hscript : ∀ turn ∈ script, turn.Faithful chains)
    (hinv : Select.Inv app init chains floor self.1.bridge self.2)
    (h : Select.Tally app init chains starts olds (self.1.bridge, self.2)) :
    (awaitEvent app self script).Sat
      (fun s => Select.Tally app init chains starts olds (s.1.bridge, s.2))
      (Tallied app init chains starts olds) := by
  have htallied := Select.poll_tallied hscript hinv h
  unfold awaitEvent
  dsimp only
  generalize Select.poll app (self.1.bridge, self.2) script = result at htallied ⊢
  obtain ⟨⟨bridge, shared⟩, result⟩ := result
  refine tryStream_sat ?_ ?_ ?_ ?_
  · rintro e rfl
    exact htallied
  · rintro rfl
    exact htallied
  · rintro rfl
    exact htallied
  · rintro event rfl
    exact htallied.2 (by simp)

theorem body_tallied {start : Shared Digest} {self : BridgeEventStream Digest × Shared Digest}
    {answers : Answers Digest} (hanswers : answers.Faithful chains)
    (hinv : Kept app init chains floor start self)
    (h : Select.Tally app init chains starts olds (self.1.bridge, self.2)) :
    (body app self answers).Sat
      (fun s => Select.Tally app init chains starts olds (s.1.bridge, s.2))
      (Tallied app init chains starts olds) := by
  unfold body
  cases hstate : self.1.state with
  | init =>
    have hframe := checkBalances_frame self answers
    have htally := tally_frame h ⟨hframe.1, hframe.2.2⟩
    dsimp only
    rcases hresult : checkBalances self answers with ⟨⟨stream, shared⟩, e | _ | _⟩
    all_goals rw [hresult] at htally
    · exact ⟨htally.bounded, fun hok => absurd rfl (hok e)⟩
    · exact ⟨htally.bounded, fun _ => htally⟩
    · exact htally
  | wait =>
    dsimp only
    split
    · have hframe := getGasPrices_frame self answers
      have hkept := hinv.frame hframe (by simp [hstate])
      exact awaitEvent_tallied hanswers hkept.2.bridge (tally_frame h ⟨hframe.1, hframe.2.2⟩)
    · exact ⟨h.bounded, fun hok => absurd rfl (hok _)⟩
  | nextItem item =>
    cases item with
    | none => exact h
    | some event => exact ⟨h.bounded, fun _ => h⟩

theorem poll_tallied {stream : BridgeEventStream Digest} {shared : Shared Digest}
    {script : List (Answers Digest)} (hscript : ∀ answers ∈ script, answers.Faithful chains)
    (hinv : Inv app init chains floor stream shared)
    (h : Select.Tally app init chains starts olds (stream.bridge, shared)) :
    Tallied app init chains starts olds (poll app (stream, shared) script).1
      (poll app (stream, shared) script).2 := by
  refine run_sat_of_kept (K := Kept app init chains floor shared)
    (P := fun s => Select.Tally app init chains starts olds (s.1.bridge, s.2)) ?_ ?_
    (fun _ hs => ⟨hs.bounded, fun _ => hs⟩) ⟨Recorded.of_eq rfl, hinv⟩ h
  · exact fun answers hmem _ hs =>
      (body_sat (hscript answers hmem).honest hs).imp (fun _ h => h) fun _ _ _ => trivial
  · exact fun answers hmem _ => body_tallied (hscript answers hmem)

end BridgeEventStream

end Streams

/-! ## The life of a process -/

namespace World

/-- The nodes report the matching logs. -/
def Step.Faithful (chains : Chains) : Step Digest → Prop
  | .poll script _ => ∀ answers ∈ script, answers.Faithful chains
  | _ => True

/-- The logs that a relay had done in an earlier life. -/
def earlier (start : World Digest) (relay : Relay) : List Log :=
  (start.shared.done relay).map Job.log

/-- What holds in the life of a process that was started in the state `start`. -/
structure Life (app : App Digest) (init : Database) (chains : Chains)
    (start w : World Digest) : Prop where
  inv : Inv app init chains w
  receipts : ∃ new, w.shared.receipts = start.shared.receipts ++ new
  bounded : ∀ relay, ∃ block, ((w.shared.done relay).map Job.log).Subperm
    ((relaySpec app init chains relay).duties (floor start.file relay) block
      ++ start.earlier relay)
  tally : ∀ bridge, w.process = some bridge →
    Select.Tally app init chains (floor start.file) start.earlier
      (bridge.eventStream.bridge, w.shared)

variable {app : App Digest} {init : Database} {chains : Chains}

/-- The relays that are created have nothing in progress. -/
theorem life_start {w : World Digest} (h : Inv app init chains w)
    (homeChainId foreignChainId : UInt64) (homeNonce foreignNonce : U256) :
    let start := step app w (.start homeChainId foreignChainId homeNonce foreignNonce)
    Life app init chains start start := by
  have hinv := inv_start h homeChainId foreignChainId homeNonce foreignNonce
  have htally : ∀ relay (logs : LogStream), logs.Inv
        (Faithful (relaySpec app init chains relay).blocks) →
      logs.filter = (relaySpec app init chains relay).filter →
      logs.position = floor w.file relay → ∀ shared : Shared Digest,
      (relaySpec app init chains relay).Tally (floor w.file relay)
        ((shared.done relay).map Job.log) logs [] shared := by
    intro relay logs hlogs hfilter hposition shared
    refine ⟨hlogs, hfilter, le_of_eq hposition.symm, ?_⟩
    rw [hposition, Spec.duties_self, relay_relaySpec]
  refine ⟨hinv, ⟨[], (List.append_nil _).symm⟩, fun relay => ⟨0, ?_⟩, ?_⟩
  · exact (List.sublist_append_right _ _).subperm
  · rintro bridge hbridge relay
    cases hbridge
    have hhome := h.file.homeContract
    have hforeign := h.file.foreignContract
    cases relay with
    | depositRelay =>
      refine htally .depositRelay _ (LogStream.inv_logStream _ _) ?_ rfl _
      show depositsFilter app.abi w.file.homeContractAddress = _
      rw [hhome]
      rfl
    | withdrawRelay =>
      refine htally .withdrawRelay _ (LogStream.inv_logStream _ _) ?_ rfl _
      show collectedSignaturesFilter app.abi [w.file.foreignContractAddress] = _
      rw [hforeign]
      rfl
    | withdrawConfirm =>
      refine htally .withdrawConfirm _ (LogStream.inv_logStream _ _) ?_ rfl _
      show withdrawsFilter app.abi w.file.foreignContractAddress = _
      rw [hforeign]
      rfl

theorem Step.Faithful.honest {s : Step Digest} (h : s.Faithful chains) : s.Honest chains := by
  cases s with
  | poll script save => exact fun answers hmem => (h answers hmem).honest
  | _ => trivial

/-- What `Bridge::poll` leaves of the relays is what the poll of their stream
leaves. -/
theorem poll_relays (bridge : Bridge Digest) (shared : Shared Digest) (file : Database)
    (script : List (BridgeEventStream.Answers Digest)) (save : Save) :
    let polled := BridgeEventStream.poll app (bridge.eventStream, shared) script
    let outcome := bridge.poll app shared file script save
    (outcome.bridge.eventStream, outcome.shared) = polled.1 ∧
      (survives outcome.result = true → ∀ e, polled.2 ≠ .error e) := by
  unfold Bridge.poll
  dsimp only
  rcases BridgeEventStream.poll app (bridge.eventStream, shared) script with
    ⟨⟨stream, shared'⟩, e | _ | _ | event⟩
  · exact ⟨rfl, fun h => by cases h⟩
  · exact ⟨rfl, fun _ => by simp⟩
  · exact ⟨rfl, fun h => by cases h⟩
  · cases save <;> exact ⟨rfl, fun _ => by simp⟩

theorem life_poll {start w : World Digest} {script : List (BridgeEventStream.Answers Digest)}
    {save : Save} (hscript : (Step.poll script save).Faithful chains)
    (h : Life app init chains start w) :
    Life app init chains start (step app w (.poll script save)) := by
  have hinv := inv_step hscript.honest h.inv
  cases hbridge : w.process with
  | none =>
    rw [step, hbridge]
    exact h
  | some bridge =>
    obtain ⟨hdatabase, hstream⟩ := h.inv.process bridge hbridge
    have htallied := BridgeEventStream.poll_tallied hscript hstream (h.tally bridge hbridge)
    have hspec := poll_spec save hscript.honest hdatabase hstream
    obtain ⟨hrelays, hsurvives⟩ := @poll_relays _ app bridge w.shared w.file script save
    rw [step, hbridge] at hinv ⊢
    dsimp only at hinv hrelays hsurvives ⊢
    rw [← hrelays] at htallied
    generalize bridge.poll app w.shared w.file script save = outcome
      at hinv htallied hspec hsurvives ⊢
    refine ⟨hinv, ?_, fun relay =>
      ⟨(outcome.bridge.eventStream.bridge.logs relay).position, ?_⟩, ?_⟩
    · obtain ⟨new, hnew⟩ := h.receipts
      obtain ⟨new', hnew', -⟩ := hspec.recorded
      exact ⟨new ++ new', by rw [hnew', hnew, List.append_assoc]⟩
    · have hbounded := (htallied.1 relay).subperm
      rw [relay_relaySpec] at hbounded
      exact (List.sublist_append_right _ _).subperm.trans hbounded
    · intro bridge' hbridge'
      split at hbridge'
      · rename_i halive
        cases hbridge'
        exact htallied.2 (hsurvives halive)
      · cases hbridge'

/-- Each log is relayed once, in every life of a process: after any history, from a
start of the process over any polls, with all orders of the relays and of the
answers, and all errors that can end it.

Among the receipts of this life no log is more often than in the blocks after the
checkpoint from which the process was started.  As long as the process lives, what it
has done and what it has in progress are together exactly the logs of the blocks that
its streams have passed. -/
theorem relays_each_log_once (app : App Digest) (init : Database) (chains : Chains)
    (before : List (Step Digest)) (hbefore : ∀ s ∈ before, s.Honest chains)
    (homeChainId foreignChainId : UInt64) (homeNonce foreignNonce : U256)
    (polls : List (List (BridgeEventStream.Answers Digest) × Save))
    (hpolls : ∀ p ∈ polls, ∀ answers ∈ p.1, answers.Faithful chains) :
    let start := step app (run app (initial init) before)
      (.start homeChainId foreignChainId homeNonce foreignNonce)
    let w := run app start (polls.map fun p => .poll p.1 p.2)
    ∃ new, w.shared.receipts = start.shared.receipts ++ new ∧ ∀ relay,
      let spec := relaySpec app init chains relay
      let done := (new.filter (·.relay = relay)).map fun receipt => receipt.job.log
      (∃ block, done.Subperm (spec.duties (start.file.checked relay).toNat block)) ∧
        ∀ bridge, w.process = some bridge →
          (bridge.eventStream.bridge.pending relay ++ done).Perm
            (spec.duties (start.file.checked relay).toNat
              (bridge.eventStream.bridge.logs relay).position) := by
  have hinv : Inv app init chains (run app (initial init) before) :=
    List.foldlRecOn before (step app) (motive := Inv app init chains) (inv_initial init chains)
      fun w hw s hmem => inv_step (hbefore s hmem) hw
  have hstart := life_start hinv homeChainId foreignChainId homeNonce foreignNonce
  intro start w
  have hlife : Life app init chains start w := by
    refine List.foldlRecOn (polls.map fun p => Step.poll p.1 p.2) (step app)
      (motive := Life app init chains start) hstart fun w hw s hmem => ?_
    obtain ⟨p, hp, rfl⟩ := List.mem_map.1 hmem
    exact life_poll (hpolls p hp) hw
  obtain ⟨new, hnew⟩ := hlife.receipts
  refine ⟨new, hnew, fun relay => ?_⟩
  have hdone : (w.shared.done relay).map Job.log = start.earlier relay
      ++ (new.filter (·.relay = relay)).map fun receipt => receipt.job.log := by
    rw [Shared.done, hnew, List.filter_append, List.map_append, List.map_append]
    exact congrArg (start.earlier relay ++ ·) List.map_map
  refine ⟨?_, fun bridge hbridge => ?_⟩
  · obtain ⟨block, hblock⟩ := hlife.bounded relay
    refine ⟨block, ?_⟩
    rw [hdone] at hblock
    have hcomm := List.perm_append_comm.subperm.trans hblock
    exact (List.subperm_append_right _).1 hcomm
  · have hperm := (hlife.tally bridge hbridge relay).perm
    rw [relay_relaySpec, hdone] at hperm
    refine (List.perm_append_right_iff (start.earlier relay)).1 ?_
    refine List.Perm.trans ?_ hperm
    rw [List.append_assoc]
    exact List.perm_append_comm.append_left _

/-- The first life of the process, in which it relays the deposit. -/
def afterDeposit : World Bytes :=
  run authorityApp (step authorityApp (run authorityApp (initial deployedDatabase) [])
    (.start 1 2 0 0)) ([(List.replicate 3 depositAnswers, Save.saved)].map fun p => .poll p.1 p.2)

theorem faithful_depositAnswers : depositAnswers.Faithful depositChains := by
  intro turn hturn
  rw [List.mem_singleton.1 hturn]
  intro answers hanswers a ha
  rw [List.eq_of_mem_replicate hanswers] at ha
  rw [List.eq_of_mem_replicate ha]
  rintro filter fromBlock toBlock logs ⟨⟩
  exact List.Perm.refl _

theorem relays_each_log_once_afterDeposit :
    afterDeposit.process.isSome = true ∧
      (afterDeposit.shared.receipts.map fun receipt => receipt.job.log) = [depositLog] ∧
      ∃ block, [depositLog].Subperm
        ((relaySpec authorityApp deployedDatabase depositChains .depositRelay).duties 0 block) := by
  obtain ⟨new, hnew, hrelays⟩ := relays_each_log_once authorityApp deployedDatabase depositChains
    [] (by simp) 1 2 0 0 [(List.replicate 3 depositAnswers, .saved)] (by
      intro p hp answers hanswers
      rw [List.mem_singleton.1 hp] at hanswers
      rw [List.eq_of_mem_replicate hanswers]
      exact faithful_depositAnswers)
  obtain ⟨⟨block, hblock⟩, -⟩ := hrelays .depositRelay
  have hreceipts : new = afterDeposit.shared.receipts := hnew.symm
  have hdone : ((afterDeposit.shared.receipts.filter (·.relay = .depositRelay)).map
      fun receipt => receipt.job.log) = [depositLog] := by
    decide +kernel
  rw [hreceipts, hdone] at hblock
  exact ⟨by decide +kernel, by decide +kernel, block, hblock⟩

end World

end PoaBridge
