import PoaBridge.Bridge
import PoaBridge.ExitCodes
import PoaBridge.KnownBalances

/-!
# A shutdown that was requested

The signal handler of `cli/src/main.rs` clears a flag, and `BridgeEventStream::poll`
reads it in one place, in the state `Wait`.  This is enough: from then on no relay is
polled, so that nothing is sent any more and no batch moves (`OnlyBalances`).  An event
that was on its way to the file still gets there.

`shutdown_drains` says this for any number of polls after the signal.  It also says when
the process ends: with the exit code of a shutdown, in the second poll at the latest, if
the balances were known.
-/

namespace PoaBridge

open PollLoop

variable {Digest : Type}

namespace BridgeEventStream

/-! ## What a stream still does -/

/-- Only the balances and their checks change. -/
structure OnlyBalances (before after : BridgeEventStream Digest × Shared Digest) : Prop where
  bridge : after.1.bridge = before.1.bridge
  homeGasStream : after.1.homeGasStream = before.1.homeGasStream
  foreignGasStream : after.1.foreignGasStream = before.1.foreignGasStream
  shared : ∃ home foreign,
    after.2 = { before.2 with homeBalance := home, foreignBalance := foreign }

theorem OnlyBalances.refl (self : BridgeEventStream Digest × Shared Digest) :
    OnlyBalances self self :=
  ⟨rfl, rfl, rfl, self.2.homeBalance, self.2.foreignBalance, rfl⟩

theorem OnlyBalances.trans {a b c : BridgeEventStream Digest × Shared Digest}
    (hab : OnlyBalances a b) (hbc : OnlyBalances b c) : OnlyBalances a c := by
  obtain ⟨home, foreign, hb⟩ := hab.shared
  obtain ⟨home', foreign', hc⟩ := hbc.shared
  refine ⟨hbc.bridge.trans hab.bridge, hbc.homeGasStream.trans hab.homeGasStream,
    hbc.foreignGasStream.trans hab.foreignGasStream, home', foreign', ?_⟩
  rw [hc, hb]

theorem checkBalances_onlyBalances (self : BridgeEventStream Digest × Shared Digest)
    (answers : Answers Digest) : OnlyBalances self (checkBalances self answers).1 := by
  obtain ⟨_, _, _, _, hwrites⟩ := checkBalances_writes self answers
  rw [hwrites]
  exact ⟨rfl, rfl, rfl, _, _, rfl⟩

/-- The event that the stream is about to report. -/
def pending (self : BridgeEventStream Digest) : Option BridgeChecked :=
  match self.state with
  | .nextItem item => item
  | _ => none

/-- An iteration after the signal. -/
theorem body_stopping (app : App Digest) {self : BridgeEventStream Digest × Shared Digest}
    {answers : Answers Digest} (h : answers.running = false) :
    (body app self answers).Sat (fun s => OnlyBalances self s ∧ pending s.1 = none)
      (fun s result => OnlyBalances self s ∧ pending s.1 = none ∧
        ∀ event, result = .ok (.ready event) →
          event = pending self.1 ∧ (pending self.1).isSome) := by
  unfold body
  cases hstate : self.1.state with
  | init =>
    have honly := checkBalances_onlyBalances self answers
    have hframe := (checkBalances_frame self answers).2.1
    have hpending : pending (checkBalances self answers).1.1 = none := by
      rw [pending, hframe, hstate]
    dsimp only
    rcases hchecked : checkBalances self answers with ⟨⟨stream, shared⟩, e | _ | a⟩
    all_goals rw [hchecked] at honly hpending
    · exact ⟨honly, hpending, fun _ heq => by cases heq⟩
    · exact ⟨honly, hpending, fun _ heq => by cases heq⟩
    · exact ⟨⟨honly.bridge, honly.homeGasStream, honly.foreignGasStream, honly.shared⟩, rfl⟩
  | wait =>
    dsimp only
    rw [if_neg (by rw [h]; exact Bool.false_ne_true)]
    exact ⟨.refl self, by rw [pending, hstate], fun _ heq => by cases heq⟩
  | nextItem item =>
    cases item with
    | none => exact ⟨⟨rfl, rfl, rfl, _, _, rfl⟩, rfl⟩
    | some item =>
      refine ⟨⟨rfl, rfl, rfl, _, _, rfl⟩, rfl, fun event heq => ?_⟩
      cases heq
      rw [pending, hstate]
      exact ⟨rfl, rfl⟩

/-- What a poll after the signal leaves. -/
structure Stopped (before : BridgeEventStream Digest × Shared Digest)
    (result : (BridgeEventStream Digest × Shared Digest) × Poll (Option BridgeChecked)) :
    Prop where
  only : OnlyBalances before result.1
  pending : pending result.1.1 = pending before.1 ∨ pending result.1.1 = none
  event : ∀ event, result.2 = .ok (.ready event) →
    event = BridgeEventStream.pending before.1 ∧ event.isSome ∧
      BridgeEventStream.pending result.1.1 = none

theorem poll_stopping (app : App Digest) (self : BridgeEventStream Digest × Shared Digest)
    {script : List (Answers Digest)} (h : ∀ answers ∈ script, answers.running = false) :
    Stopped self (poll app self script) := by
  have hrun := @run_sat _ _ _ (body app) (.ok .notReady)
    (fun s => OnlyBalances self s ∧ (s = self ∨ pending s.1 = none))
    (fun s r => Stopped self (s, r)) ?_ script self ?_ ⟨.refl self, .inl rfl⟩
  · exact hrun
  · rintro s ⟨honly, hpending⟩
    refine ⟨honly, ?_, fun _ heq => by cases heq⟩
    exact hpending.imp_left fun heq => by rw [heq]
  · rintro answers hmem s ⟨honly, hpending⟩
    refine (body_stopping app (h answers hmem)).imp ?_ ?_
    · exact fun t ht => ⟨honly.trans ht.1, .inr ht.2⟩
    · rintro t r ⟨ht, hnone, hevent⟩
      refine ⟨honly.trans ht, .inr hnone, fun event heq => ?_⟩
      obtain ⟨hitem, hsome⟩ := hevent event heq
      rcases hpending with rfl | hgone
      · exact ⟨hitem, hitem ▸ hsome, hnone⟩
      · rw [hgone] at hsome
        cases hsome

/-! ## The end -/

/-- The nodes answer the requests for the balances, at once or later. -/
def Answers.Answered (self : Answers Digest) : Prop :=
  (∀ balance ∈ self.homeBalance, ∀ e, balance ≠ .error e) ∧
    ∀ balance ∈ self.foreignBalance, ∀ e, balance ≠ .error e

theorem poll_balance_ne_error (self : BalanceCheck) {script : List (Poll U256)}
    (h : ∀ balance ∈ script, ∀ e, balance ≠ .error e) (e : Error) :
    (self.poll script).2 ≠ .error e := by
  refine @run_sat _ _ _ BalanceCheck.body (.ok .notReady) (fun _ => True)
    (fun _ r => r ≠ .error e) (fun _ _ h => by cases h) script self ?_ trivial
  intro balance hmem check _
  unfold BalanceCheck.body
  split
  · trivial
  · exact tryReady_sat (fun e' heq => absurd heq (h balance hmem e')) (fun _ h => by cases h)
      fun _ _ => trivial
  · trivial
  · exact fun h => by cases h

/-- A check that does not fail goes on. -/
theorem exists_of_tryBridge (self : BalanceCheck) {script : List (Poll U256)}
    (h : ∀ balance ∈ script, ∀ e, balance ≠ .error e) :
    ∃ balance, tryBridge (self.poll script).2 = .ok balance := by
  have herror := poll_balance_ne_error self h
  have hend := self.poll_ne_end script
  rcases hresult : (self.poll script).2 with e | _ | _ | balance
  · exact absurd hresult (herror e)
  · exact ⟨none, rfl⟩
  · exact absurd hresult hend
  · exact ⟨some balance, rfl⟩

/-- Balances that are known do not hold the stream up. -/
theorem checkBalances_of_known {self : BridgeEventStream Digest × Shared Digest}
    {answers : Answers Digest} (hanswers : answers.Answered) (h : self.2.readings.Known) :
    (checkBalances self answers).2 = .ok (.ready none) := by
  obtain ⟨stream, shared⟩ := self
  obtain ⟨home, hhome⟩ := exists_of_tryBridge stream.homeBalanceCheck hanswers.1
  obtain ⟨foreign, hforeign⟩ := exists_of_tryBridge stream.foreignBalanceCheck hanswers.2
  unfold checkBalances
  dsimp only
  rw [hhome]
  dsimp only
  rw [hforeign]
  dsimp only
  rw [if_neg]
  rw [Bool.or_eq_true, not_or, Option.isNone_iff_eq_none, Option.isNone_iff_eq_none]
  exact ⟨Option.isSome_iff_ne_none.1 (isSome_or home h.1),
    Option.isSome_iff_ne_none.1 (isSome_or foreign h.2)⟩

/-- The iterations before a return. -/
def rank (self : BridgeEventStream Digest × Shared Digest) : Nat :=
  match self.1.state with
  | .nextItem none => 2
  | .init => 1
  | .wait => 0
  | .nextItem (some _) => 0

/-- A poll after the signal reports the event that was on its way, or it ends the stream
with a shutdown. -/
theorem poll_ends (app : App Digest) {self : BridgeEventStream Digest × Shared Digest}
    {script : List (Answers Digest)} (hlength : 3 ≤ script.length)
    (hscript : ∀ answers ∈ script, answers.running = false ∧ answers.Answered)
    (h : self.2.readings.Known) :
    ((poll app self script).2 = .error .shutdownRequested ∧ pending self.1 = none) ∨
      ((poll app self script).2 = .ok (.ready (pending self.1)) ∧ (pending self.1).isSome ∧
        (poll app self script).1.2.readings.Known) := by
  refine @run_returns _ _ _ (body app) (.ok .notReady)
    (fun s => s.2.readings.Known ∧ (pending s.1 = pending self.1))
    (fun s r => (r = .error .shutdownRequested ∧ pending self.1 = none) ∨
      (r = .ok (.ready (pending self.1)) ∧ (pending self.1).isSome ∧ s.2.readings.Known))
    rank script self ?_ ⟨h, rfl⟩ ?_
  · rintro answers hmem s ⟨hknown, hpending⟩
    obtain ⟨hrunning, hanswered⟩ := hscript answers hmem
    unfold body
    cases hstate : s.1.state with
    | init =>
      have hnone : pending self.1 = none := by rw [← hpending, pending, hstate]
      have hchecked := checkBalances_of_known hanswered hknown
      have hstays := (checkBalances_known s answers).1.known hknown
      dsimp only
      rcases hresult : checkBalances s answers with ⟨⟨stream, shared⟩, e | _ | a⟩
      all_goals rw [hresult] at hchecked hstays
      · cases hchecked
      · cases hchecked
      · refine ⟨⟨hstays, hnone.symm⟩, ?_⟩
        rw [rank, rank, hstate]
        exact Nat.zero_lt_one
    | wait =>
      dsimp only
      rw [if_neg (by rw [hrunning]; exact Bool.false_ne_true)]
      exact .inl ⟨rfl, by rw [← hpending, pending, hstate]⟩
    | nextItem item =>
      cases item with
      | none =>
        refine ⟨⟨hknown, ?_⟩, ?_⟩
        · rw [← hpending, pending, pending, hstate]
        · rw [rank, rank, hstate]
          exact Nat.lt_succ_self 1
      | some item =>
        have hitem : pending self.1 = some item := by rw [← hpending, pending, hstate]
        exact .inr ⟨by rw [hitem], by rw [hitem]; rfl, hknown⟩
  · refine Nat.lt_of_lt_of_le ?_ hlength
    unfold rank
    split <;> omega

end BridgeEventStream

/-! ## The process -/

namespace World

/-- What a poll of the bridge returns to the event loop. -/
def result (app : App Digest) (self : World Digest)
    (script : List (BridgeEventStream.Answers Digest)) (save : Save) :
    Option (Poll (Option Unit)) :=
  self.process.map fun bridge => (bridge.poll app self.shared self.file script save).result

/-- What the polls after the signal leave. -/
structure Drained (bridge : Bridge Digest) (before after : World Digest) : Prop where
  /-- No relay has moved. -/
  relays : ∀ bridge', after.process = some bridge' →
    bridge'.eventStream.bridge = bridge.eventStream.bridge
  /-- Nothing was sent, and no price was taken up. -/
  shared : ∃ home foreign,
    after.shared = { before.shared with homeBalance := home, foreignBalance := foreign }
  /-- Only the event that was on its way got to the file. -/
  file : after.file = before.file ∨ ∃ event, bridge.eventStream.pending = some event ∧
    after.file = bridge.database.update event

/-- The process while it is drained. -/
structure Draining (bridge : Bridge Digest) (before w : World Digest) : Prop where
  drained : Drained bridge before w
  process : ∀ bridge', w.process = some bridge' →
    (bridge'.eventStream.pending = none ∨
      bridge'.eventStream.pending = bridge.eventStream.pending ∧
      bridge'.database = bridge.database ∧ w.file = before.file)

theorem draining_start {w : World Digest} {bridge : Bridge Digest} (h : w.process = some bridge) :
    Draining bridge w w := by
  refine ⟨⟨?_, ⟨_, _, rfl⟩, .inl rfl⟩, ?_⟩
  · intro bridge' heq
    rw [h] at heq
    cases heq
    rfl
  · intro bridge' heq
    rw [h] at heq
    cases heq
    exact .inr ⟨rfl, rfl, rfl⟩

/-- A process that has ended moves nothing. -/
theorem draining_of_none {bridge : Bridge Digest} {before w : World Digest}
    (hprocess : w.process = none)
    (hshared : ∃ home foreign,
      w.shared = { before.shared with homeBalance := home, foreignBalance := foreign })
    (hfile : w.file = before.file ∨ ∃ event, bridge.eventStream.pending = some event ∧
      w.file = bridge.database.update event) : Draining bridge before w := by
  refine ⟨⟨fun bridge' heq => ?_, hshared, hfile⟩, fun bridge' heq => ?_⟩
  · rw [hprocess] at heq
    cases heq
  · rw [hprocess] at heq
    cases heq

theorem draining_poll (app : App Digest) {bridge : Bridge Digest} {before w : World Digest}
    (h : Draining bridge before w) {script : List (BridgeEventStream.Answers Digest)} (save : Save)
    (hscript : ∀ answers ∈ script, answers.running = false) :
    Draining bridge before (step app w (.poll script save)) := by
  cases hprocess : w.process with
  | none =>
    rw [step, hprocess]
    exact h
  | some current =>
    have hstopped := BridgeEventStream.poll_stopping app (current.eventStream, w.shared) hscript
    have hrelays := h.drained.relays current hprocess
    have hcurrent := h.process current hprocess
    obtain ⟨home, foreign, hshared⟩ := h.drained.shared
    rw [step, hprocess]
    dsimp only
    unfold Bridge.poll
    generalize BridgeEventStream.poll app (current.eventStream, w.shared) script = polled
      at hstopped ⊢
    obtain ⟨⟨stream, shared⟩, result⟩ := polled
    obtain ⟨honly, hpending, hevent⟩ := hstopped
    obtain ⟨home', foreign', hafter⟩ := honly.shared
    have hsharedAfter : ∃ home foreign,
        shared = { before.shared with homeBalance := home, foreignBalance := foreign } := by
      refine ⟨home', foreign', ?_⟩
      rw [show shared = _ from hafter, hshared]
    have hstream : stream.bridge = bridge.eventStream.bridge := honly.bridge.trans hrelays
    -- a poll that reports nothing
    have hquiet (next : Bridge Digest) (hnext : next.eventStream = stream)
        (hdatabase : next.database = current.database) (process : Option (Bridge Digest))
        (hsome : ∀ bridge', process = some bridge' → bridge' = next) :
        Draining bridge before ⟨w.file, process, shared⟩ := by
      refine ⟨⟨?_, hsharedAfter, h.drained.file⟩, ?_⟩
      · intro bridge' heq
        rw [hsome bridge' heq, hnext]
        exact hstream
      · intro bridge' heq
        rw [hsome bridge' heq, hnext, hdatabase]
        rcases hpending with hsame | hnone
        · rcases hcurrent with hgone | ⟨hitem, hbase, hfile⟩
          · exact .inl (hsame.trans hgone)
          · exact .inr ⟨hsame.trans hitem, hbase, hfile⟩
        · exact .inl hnone
    rcases result with e | _ | _ | event
    · exact hquiet { current with eventStream := stream } rfl rfl _ fun _ heq => by cases heq
    · refine hquiet { current with eventStream := stream } rfl rfl _ fun bridge' heq => ?_
      exact (Option.some.inj heq).symm
    · exact hquiet { current with eventStream := stream } rfl rfl _ fun _ heq => by cases heq
    · obtain ⟨hitem, -, hnone⟩ := hevent (some event) rfl
      rcases hcurrent with hgone | ⟨hsame, hbase, hfile⟩
      · rw [hgone] at hitem
        cases hitem
      · have hbridge : bridge.eventStream.pending = some event := by rw [← hsame, ← hitem]
        cases save with
        | saved =>
          refine ⟨⟨?_, hsharedAfter, .inr ⟨event, hbridge, ?_⟩⟩, ?_⟩
          · intro bridge' heq
            rw [← Option.some.inj heq]
            exact hstream
          · exact congrArg (·.update event) hbase
          · intro bridge' heq
            rw [← Option.some.inj heq]
            exact .inl hnone
        | openError kind =>
          exact draining_of_none rfl hsharedAfter (.inl hfile)
        | writeError kind written =>
          refine draining_of_none rfl hsharedAfter ?_
          cases written with
          | false => exact .inl hfile
          | true => exact .inr ⟨event, hbridge, congrArg (·.update event) hbase⟩

/-- The polls of the event loop. -/
def polls (calls : List (List (BridgeEventStream.Answers Digest) × Save)) : List (Step Digest) :=
  calls.map fun call => .poll call.1 call.2

/-- A call that runs until it returns, after the signal, with a file that can be written. -/
structure Complete (call : List (BridgeEventStream.Answers Digest) × Save) : Prop where
  length : 3 ≤ call.1.length
  answered : ∀ answers ∈ call.1, answers.Answered
  saved : call.2 = .saved

/-- A poll after the signal saves the event that was on its way, or it ends the process. -/
theorem result_of_complete (app : App Digest) {w : World Digest} {bridge : Bridge Digest}
    {call : List (BridgeEventStream.Answers Digest) × Save} (hprocess : w.process = some bridge)
    (hcall : Complete call) (hstopping : ∀ answers ∈ call.1, answers.running = false)
    (h : w.shared.readings.Known) :
    w.result app call.1 call.2 = some (.error .shutdownRequested) ∧
        (step app w (.poll call.1 call.2)).process = none ∨
      bridge.eventStream.pending.isSome ∧
        (step app w (.poll call.1 call.2)).shared.readings.Known ∧
        ∃ bridge', (step app w (.poll call.1 call.2)).process = some bridge' ∧
          bridge'.eventStream.pending = none := by
  obtain ⟨script, save⟩ := call
  obtain ⟨hlength, hanswered, rfl⟩ := hcall
  have hends := @BridgeEventStream.poll_ends _ app (bridge.eventStream, w.shared) script hlength
    (fun answers hmem => ⟨hstopping answers hmem, hanswered answers hmem⟩) h
  have hstopped := BridgeEventStream.poll_stopping app (bridge.eventStream, w.shared) hstopping
  rw [result, step, hprocess]
  dsimp only [Option.map_some]
  unfold Bridge.poll
  generalize BridgeEventStream.poll app (bridge.eventStream, w.shared) script = polled
    at hends hstopped ⊢
  obtain ⟨⟨stream, shared⟩, result⟩ := polled
  rcases hends with ⟨hresult, -⟩ | ⟨hresult, hsome, hknown⟩
  · obtain rfl : result = _ := hresult
    exact .inl ⟨rfl, rfl⟩
  · obtain ⟨event, hevent⟩ := Option.isSome_iff_exists.1 hsome
    obtain rfl : result = .ok (.ready (some event)) := hresult.trans (by rw [hevent])
    exact .inr ⟨hsome, hknown, _, rfl, (hstopped.event (some event) rfl).2.2⟩

/-- After the signal, over any number of polls of the event loop: no relay moves and
nothing is sent, and the file changes for the event that was on its way only.  When the
balances are known and the nodes and the disk answer, one of the first two polls ends the
process, with the exit code of a shutdown.

A poll in the middle of which the signal comes counts as two: an event is on its way only
there. -/
theorem shutdown_drains (app : App Digest) {w : World Digest} {bridge : Bridge Digest}
    (hprocess : w.process = some bridge)
    (calls : List (List (BridgeEventStream.Answers Digest) × Save))
    (hstopping : ∀ call ∈ calls, ∀ answers ∈ call.1, answers.running = false) :
    Drained bridge w (run app w (polls calls)) ∧
    (w.shared.readings.Known → (∀ call ∈ calls, Complete call) → 2 ≤ calls.length →
      ∃ before call after, calls = before ++ call :: after ∧ before.length ≤ 1 ∧
        (run app w (polls before)).result app call.1 call.2 = some (.error .shutdownRequested) ∧
        Fails .shutdownRequested ⟨errShutdownRequested, .shutdownRequested⟩ ∧
        (run app w (polls (before ++ [call]))).process = none) := by
  constructor
  · have hdraining : Draining bridge w (run app w (polls calls)) := by
      rw [run, polls, List.foldl_map]
      refine List.foldlRecOn calls _ (motive := Draining bridge w) (draining_start hprocess) ?_
      exact fun w' hw' call hmem => draining_poll app hw' call.2 (hstopping call hmem)
    exact hdraining.drained
  · intro hknown hcomplete hlength
    have hfails : Fails .shutdownRequested ⟨errShutdownRequested, .shutdownRequested⟩ := .leave rfl
    obtain _ | ⟨first, _ | ⟨second, rest⟩⟩ := calls
    · exact absurd hlength (by simp)
    · exact absurd hlength (by simp)
    · have hfirst := result_of_complete app hprocess (hcomplete first (by simp))
        (hstopping first (by simp)) hknown
      rcases hfirst with ⟨hresult, hnone⟩ | ⟨-, hknown', bridge', hprocess', hgone⟩
      · exact ⟨[], first, second :: rest, rfl, Nat.zero_le 1, hresult, hfails, hnone⟩
      · have hsecond := result_of_complete app hprocess' (hcomplete second (by simp))
          (hstopping second (by simp)) hknown'
        rcases hsecond with ⟨hresult, hnone⟩ | ⟨hsome, -⟩
        · exact ⟨[first], second, rest, rfl, Nat.le_refl 1, hresult, hfails, hnone⟩
        · rw [hgone] at hsome
          cases hsome

/-- The process when the relay of the deposit has reported its checkpoint, which is not yet in
the file. -/
def duringDeposit : World Bytes :=
  run authorityApp (initial deployedDatabase)
    [.start 1 2 0 0, .poll (List.replicate 2 depositAnswers) .saved]

/-- The polls after the signal. -/
def shutdownCalls : List (List (BridgeEventStream.Answers Bytes) × Save) :=
  List.replicate 2 (List.replicate 3 { depositAnswers with running := false }, .saved)

theorem complete_shutdownCalls : ∀ call ∈ shutdownCalls, Complete call := by
  intro call hcall
  rw [List.eq_of_mem_replicate hcall]
  refine ⟨by decide, fun answers hmem => ?_, rfl⟩
  rw [List.eq_of_mem_replicate hmem]
  constructor
  · intro balance hbalance e heq
    rw [List.eq_of_mem_replicate hbalance] at heq
    cases heq
  · intro balance hbalance e heq
    rw [List.eq_of_mem_replicate hbalance] at heq
    cases heq

/-- The checkpoint gets to the file, and then the process ends. -/
theorem shutdown_drains_duringDeposit :
    duringDeposit.file.checkedDepositRelay = 0 ∧
      (run authorityApp duringDeposit (polls shutdownCalls)).file.checkedDepositRelay = 1 ∧
      ∃ before call after, shutdownCalls = before ++ call :: after ∧ before.length ≤ 1 ∧
        (run authorityApp duringDeposit (polls before)).result authorityApp call.1 call.2 =
          some (.error .shutdownRequested) := by
  have hsome : duringDeposit.process.isSome = true := by decide +kernel
  have hdrains := shutdown_drains authorityApp (Option.some_get hsome).symm shutdownCalls (by
    intro call hcall answers hmem
    rw [List.eq_of_mem_replicate hcall] at hmem
    rw [List.eq_of_mem_replicate hmem])
  obtain ⟨before, call, after, hcalls, hlength, hresult, -⟩ :=
    hdrains.2 (by constructor <;> decide +kernel) complete_shutdownCalls (by decide)
  exact ⟨by decide +kernel, by decide +kernel, before, call, after, hcalls, hlength, hresult⟩

end World

end PoaBridge
