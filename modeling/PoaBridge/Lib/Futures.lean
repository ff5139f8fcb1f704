import Mathlib.Data.List.Perm.Basic
import PoaBridge.Lib.PollLoop
import PoaBridge.Lib.Results

/-!
# Collections of futures

Three combinators of poll-driven futures, and one rule for each.

* `Collect` runs its futures in any order and is done when all of them are.  Each
  future is for a job, and all of them share a world that a poll can change.
  `Collect.poll_spec` says that no job is lost and none is invented: the jobs that
  are pending and the jobs that are done are always the same jobs.
* `JoinAll` polls its futures from first to last and is done when all of them are.
  Its results are in the order of the futures.
* `Join` is the same for two futures of different types.

All three fail as soon as one of their futures fails.
-/

namespace PollLoop

universe u v w

/-! ## Futures in any order -/

section Collect

variable {κ φ ω ι α : Type u} {ε : Type v}

/-- `Collect<FuturesUnordered<F>>`: the futures that are not done, with their
jobs, and the results of those that are. -/
structure Collect (κ φ α : Type u) where
  pending : List (κ × φ)
  results : List α

/-- `futures_unordered(..).collect()`. -/
def futuresUnordered (futures : List (κ × φ)) : Collect κ φ α := ⟨futures, []⟩

namespace Collect

/-- The future with the given index is polled.  It leaves the collection when it
is done and when it fails. -/
def body (poll : κ → φ → ω → ι → (φ × ω) × Poll ε α) (self : Collect κ φ α × ω)
    (answers : Nat × ι) : Flow (Collect κ φ α × ω) (Poll ε (List α)) :=
  let (futures, world) := self
  if futures.pending.isEmpty then .ret (⟨[], []⟩, world) (.ok (.ready futures.results))
  else
    match futures.pending[answers.1]? with
    | none => .next self
    | some (job, future) =>
      match poll job future world answers.2 with
      | ((_, world), .error e) =>
        .ret (⟨futures.pending.eraseIdx answers.1, []⟩, world) (.error e)
      | ((future, world), .ok .notReady) =>
        .next ({ futures with pending := futures.pending.set answers.1 (job, future) }, world)
      | ((_, world), .ok (.ready result)) =>
        .next (⟨futures.pending.eraseIdx answers.1, futures.results ++ [result]⟩, world)

def poll (pollFuture : κ → φ → ω → ι → (φ × ω) × Poll ε α) (self : Collect κ φ α × ω)
    (script : List (Nat × ι)) : (Collect κ φ α × ω) × Poll ε (List α) :=
  run (body pollFuture) (.ok .notReady) self script

/-- The jobs that are not done. -/
def jobs (self : Collect κ φ α) : List κ := self.pending.map Prod.fst

@[simp] theorem jobs_futuresUnordered (futures : List (κ × φ)) :
    (futuresUnordered futures : Collect κ φ α).jobs = futures.map Prod.fst := rfl

theorem jobs_set {self : Collect κ φ α} {i : Nat} {job : κ} {future : φ} (future' : φ)
    (h : self.pending[i]? = some (job, future)) :
    (self.pending.set i (job, future')).map Prod.fst = self.jobs := by
  obtain ⟨hlt, heq⟩ := List.getElem?_eq_some_iff.1 h
  rw [List.map_set, jobs]
  apply List.ext_getElem
  · simp
  · intro j hj hj'
    rw [List.getElem_set]
    split
    · rename_i hij
      subst hij
      simp [heq]
    · rfl

theorem jobs_eraseIdx_perm {self : Collect κ φ α} {i : Nat} {job : κ} {future : φ}
    (h : self.pending[i]? = some (job, future)) :
    (job :: (self.pending.eraseIdx i).map Prod.fst).Perm self.jobs := by
  obtain ⟨hlt, heq⟩ := List.getElem?_eq_some_iff.1 h
  have hperm := (List.getElem_cons_eraseIdx_perm hlt).map Prod.fst
  rw [heq] at hperm
  exact hperm

/-- What a poll of one future does: it keeps the invariant `I` of the world and
the invariant `R` of the future, and the list of the jobs that are done gets
longer by the job if and only if the future is done. -/
structure Step (I : ω → Prop) (R : κ → φ → Prop) (done : ω → List κ) (job : κ) (before : ω)
    (result : (φ × ω) × Poll ε α) : Prop where
  world : I result.1.2
  future : R job result.1.1
  done_eq : done result.1.2 = done before ++
    match result.2 with
    | .ok (.ready _) => [job]
    | _ => []

/-- What holds before every poll of a future, for a collection that started with
the jobs `jobs`, when the jobs `old` were done. -/
structure Kept (I : ω → Prop) (R : κ → φ → Prop) (done : ω → List κ) (jobs old : List κ)
    (s : Collect κ φ α × ω) : Prop where
  world : I s.2
  futures : ∀ p ∈ s.1.pending, R p.1 p.2
  perm : (s.1.jobs ++ done s.2).Perm (jobs ++ old)

/-- What a poll of the collection establishes.  After a failure only the invariant
of the world holds: the job of the future that failed is gone. -/
def Post (I : ω → Prop) (R : κ → φ → Prop) (done : ω → List κ) (jobs old : List κ)
    (self : Collect κ φ α × ω) (result : Poll ε (List α)) : Prop :=
  I self.2 ∧ ((∀ e, result ≠ .error e) →
    (∀ p ∈ self.1.pending, R p.1 p.2) ∧
    (self.1.jobs ++ done self.2).Perm (jobs ++ old) ∧
    (∀ results, result = .ok (.ready results) → self.1.pending = []))

variable {I : ω → Prop} {R : κ → φ → Prop} {done : ω → List κ} {jobs old : List κ}

/-- The future with the given index is not done. -/
theorem Kept.set {self : Collect κ φ α} {world world' : ω} {i : Nat} {job : κ}
    {future future' : φ} (h : Kept I R done jobs old (self, world))
    (hget : self.pending[i]? = some (job, future)) (hworld : I world') (hfuture : R job future')
    (hdone : done world' = done world) :
    Kept I R done jobs old
      ({ self with pending := self.pending.set i (job, future') }, world') := by
  refine ⟨hworld, ?_, ?_⟩
  · intro p hp
    rcases List.mem_or_eq_of_mem_set hp with hp | rfl
    · exact h.futures p hp
    · exact hfuture
  · show ((self.pending.set i (job, future')).map Prod.fst ++ done world').Perm _
    rw [jobs_set future' hget, hdone]
    exact h.perm

/-- The future with the given index is done: its job moves from the pending ones
to the done ones. -/
theorem Kept.eraseIdx {self : Collect κ φ α} {world world' : ω} {i : Nat} {job : κ} {future : φ}
    (h : Kept I R done jobs old (self, world)) (hget : self.pending[i]? = some (job, future))
    (hworld : I world') (hdone : done world' = done world ++ [job]) (results : List α) :
    Kept I R done jobs old (⟨self.pending.eraseIdx i, results⟩, world') := by
  refine ⟨hworld, fun p hp => h.futures p (List.mem_of_mem_eraseIdx hp), ?_⟩
  refine List.Perm.trans ?_ h.perm
  show ((self.pending.eraseIdx i).map Prod.fst ++ done world').Perm _
  rw [hdone, ← List.append_assoc]
  refine (List.perm_append_singleton job _).trans ?_
  exact (jobs_eraseIdx_perm hget).append_right (done world)

theorem body_sat {pollFuture : κ → φ → ω → ι → (φ × ω) × Poll ε α} {answers : Nat × ι}
    {self : Collect κ φ α × ω}
    (hpoll : ∀ job future w, I w → R job future →
      Step I R done job w (pollFuture job future w answers.2))
    (h : Kept I R done jobs old self) :
    (body pollFuture self answers).Sat (Kept I R done jobs old) (Post I R done jobs old) := by
  obtain ⟨futures, w⟩ := self
  unfold body
  dsimp only
  split
  · rename_i hempty
    have hnil : futures.pending = [] := List.isEmpty_iff.1 hempty
    have hjobs : futures.jobs = [] := by
      rw [Collect.jobs, hnil]
      rfl
    have hperm := h.perm
    rw [hjobs] at hperm
    exact ⟨h.world, fun _ => ⟨fun p hp => (by cases hp), hperm, fun _ _ => rfl⟩⟩
  · split
    · exact h
    · rename_i job future hget
      have hstep := hpoll job future w h.world (h.futures _ (List.mem_of_getElem? hget))
      rcases hresult : pollFuture job future w answers.2 with ⟨⟨future', w'⟩, e | _ | result⟩
      all_goals rw [hresult] at hstep
      · exact ⟨hstep.world, fun hok => absurd rfl (hok e)⟩
      · exact h.set hget hstep.world hstep.future (by simpa using hstep.done_eq)
      · exact h.eraseIdx hget hstep.world hstep.done_eq _

/-- No job is lost and none is invented. -/
theorem poll_spec {pollFuture : κ → φ → ω → ι → (φ × ω) × Poll ε α}
    {script : List (Nat × ι)} {self : Collect κ φ α} {world : ω}
    (hpoll : ∀ answers ∈ script, ∀ job future w, I w → R job future →
      Step I R done job w (pollFuture job future w answers.2))
    (hworld : I world) (hfutures : ∀ p ∈ self.pending, R p.1 p.2) :
    Post I R done self.jobs (done world) (poll pollFuture (self, world) script).1
      (poll pollFuture (self, world) script).2 := by
  refine run_sat (P := Kept I R done self.jobs (done world)) ?_ script (self, world) ?_
    ⟨hworld, hfutures, List.Perm.refl _⟩
  · exact fun s hs => ⟨hs.world, fun _ => ⟨hs.futures, hs.perm, fun _ h => by cases h⟩⟩
  · exact fun answers hmem s hs => body_sat (hpoll answers hmem) hs

/-- A poll that fails loses jobs, but it does not take one up again. -/
theorem poll_subperm {pollFuture : κ → φ → ω → ι → (φ × ω) × Poll ε α}
    {script : List (Nat × ι)} {self : Collect κ φ α} {world : ω}
    (hpoll : ∀ answers ∈ script, ∀ job future w, I w → R job future →
      Step I R done job w (pollFuture job future w answers.2))
    (hworld : I world) (hfutures : ∀ p ∈ self.pending, R p.1 p.2) :
    ((poll pollFuture (self, world) script).1.1.jobs
      ++ done (poll pollFuture (self, world) script).1.2).Subperm (self.jobs ++ done world) := by
  refine @run_sat _ _ _ (body pollFuture) (.ok .notReady) (Kept I R done self.jobs (done world))
    (fun s _ => (s.1.jobs ++ done s.2).Subperm (self.jobs ++ done world))
    (fun s hs => hs.perm.subperm) script (self, world) ?_ ⟨hworld, hfutures, List.Perm.refl _⟩
  rintro answers hmem ⟨futures, w⟩ hs
  have hkept := body_sat (hpoll answers hmem) hs
  unfold body at hkept ⊢
  dsimp only at hkept ⊢
  split at hkept
  · rename_i hempty
    rw [if_pos hempty]
    exact (hkept.2 (fun _ h => by cases h)).2.1.subperm
  · rename_i hnonempty
    rw [if_neg hnonempty]
    split
    · exact hs
    · rename_i job future hget
      rw [hget] at hkept
      dsimp only at hkept
      have hstep := hpoll answers hmem job future w hs.world
        (hs.futures _ (List.mem_of_getElem? hget))
      rcases hresult : pollFuture job future w answers.2 with ⟨⟨future', w'⟩, e | _ | result⟩
      all_goals rw [hresult] at hkept hstep
      · have hdone : done w' = done w := hstep.done_eq.trans (List.append_nil _)
        show ((futures.pending.eraseIdx answers.1).map Prod.fst ++ done w').Subperm _
        rw [hdone]
        have hsublist := (List.eraseIdx_sublist futures.pending answers.1).map Prod.fst
        exact (hsublist.append_right (done w)).subperm.trans hs.perm.subperm
      · exact hkept
      · exact hkept

/-- What no future changes of the world, the collection does not change. -/
theorem poll_world {pollFuture : κ → φ → ω → ι → (φ × ω) × Poll ε α}
    (hpoll : ∀ job future w answers, I w → I (pollFuture job future w answers).1.2)
    {self : Collect κ φ α} {world : ω} (hworld : I world) (script : List (Nat × ι)) :
    I (poll pollFuture (self, world) script).1.2 := by
  refine @run_sat _ _ _ (body pollFuture) (.ok .notReady) (fun s => I s.2) (fun s _ => I s.2)
    (fun _ hs => hs) script (self, world) (fun answers _ s hs => ?_) hworld
  obtain ⟨futures, w⟩ := s
  unfold body
  dsimp only
  split
  · exact hs
  · split
    · exact hs
    · rename_i job future hget
      have hkept := hpoll job future w answers.2 hs
      rcases hresult : pollFuture job future w answers.2 with ⟨⟨future', w'⟩, e | _ | result⟩
      all_goals
        rw [hresult] at hkept
        exact hkept

/-- The indices come to each of `n` futures.  An index is too large when the future
that had it is done. -/
def Exhausts : Nat → List Nat → Prop
  | _, [] => False
  | 0, _ :: _ => True
  | n + 1, i :: indices => if i ≤ n then Exhausts n indices else Exhausts (n + 1) indices

theorem exhausts_replicate {n k : Nat} (h : n < k) : Exhausts n (List.replicate k 0) := by
  induction k generalizing n with
  | zero => exact absurd h (Nat.not_lt_zero n)
  | succ k ih =>
    cases n with
    | zero => trivial
    | succ n =>
      rw [List.replicate_succ, Exhausts, if_pos (Nat.zero_le n)]
      exact ih (Nat.lt_of_succ_lt_succ h)

/-- A collection whose futures are done when they are polled. -/
theorem poll_returns {pollFuture : κ → φ → ω → ι → (φ × ω) × Poll ε α} {script : List (Nat × ι)}
    (hpoll : ∀ answers ∈ script, ∀ job future w, R job future →
      ∃ a, (pollFuture job future w answers.2).2 = .ok (.ready a))
    {self : Collect κ φ α} {world : ω}
    (hfutures : ∀ p ∈ self.pending, R p.1 p.2)
    (hscript : Exhausts self.pending.length (script.map Prod.fst)) :
    ∃ results, (poll pollFuture (self, world) script).2 = .ok (.ready results) := by
  induction script generalizing self world with
  | nil => exact hscript.elim
  | cons answers script ih =>
    have hrest := fun p hp => hpoll p (List.mem_cons_of_mem answers hp)
    rw [poll, run, body]
    cases hlength : self.pending.length with
    | zero =>
      rw [if_pos (List.isEmpty_iff.2 (List.length_eq_zero_iff.1 hlength))]
      exact ⟨_, rfl⟩
    | succ n =>
      rw [hlength, List.map_cons, Exhausts] at hscript
      rw [if_neg fun hempty => by simp [List.isEmpty_iff.1 hempty] at hlength]
      split at hscript
      · rename_i hle
        have hlt : answers.1 < self.pending.length := by omega
        have hmem : self.pending[answers.1] ∈ self.pending := List.getElem_mem hlt
        obtain ⟨a, ha⟩ := hpoll answers (List.mem_cons_self ..) self.pending[answers.1].1
          self.pending[answers.1].2 world (hfutures _ hmem)
        rw [List.getElem?_eq_getElem hlt]
        dsimp only
        rcases hresult : pollFuture self.pending[answers.1].1 self.pending[answers.1].2 world
          answers.2 with ⟨⟨future', world'⟩, result⟩
        rw [hresult] at ha
        obtain rfl : result = _ := ha
        refine @ih hrest ⟨self.pending.eraseIdx answers.1, self.results ++ [a]⟩ world'
          (fun p hp => hfutures p (List.mem_of_mem_eraseIdx hp)) ?_
        rw [List.length_eraseIdx_of_lt hlt, hlength]
        exact hscript
      · rename_i hle
        rw [List.getElem?_eq_none (by omega)]
        refine ih hrest hfutures ?_
        rw [hlength]
        exact hscript

/-- A collection fails with the error of one of its futures. -/
theorem exists_of_poll_eq_error {pollFuture : κ → φ → ω → ι → (φ × ω) × Poll ε α}
    {self : Collect κ φ α × ω} {script : List (Nat × ι)} {e : ε}
    (h : (poll pollFuture self script).2 = .error e) :
    ∃ answers ∈ script, ∃ job future world,
      (pollFuture job future world answers.2).2 = .error e := by
  refine @run_sat _ _ _ (body pollFuture) (.ok .notReady) (fun _ => True)
    (fun _ r => r = .error e → ∃ answers ∈ script, ∃ job future world,
      (pollFuture job future world answers.2).2 = .error e)
    (fun _ _ h => by cases h) script self (fun answers hmem s _ => ?_) trivial h
  obtain ⟨futures, w⟩ := s
  unfold body
  dsimp only
  split
  · exact fun h => by cases h
  · split
    · trivial
    · rename_i job future _
      rcases hresult : pollFuture job future w answers.2 with ⟨⟨future', w'⟩, e' | _ | result⟩
      · intro heq
        cases heq
        exact ⟨answers, hmem, job, future, w, by rw [hresult]⟩
      · trivial
      · trivial

end Collect

end Collect

/-! ## Futures in order -/

section Join

variable {κ φ ψ α β : Type u} {ε : Type v}

/-- What a poll leaves: a future that is not done satisfies `P`, and a result
satisfies `Q`. -/
def Polled (P : φ → Prop) (Q : α → Prop) (result : φ × Poll ε α) : Prop :=
  (result.2 = .ok .notReady → P result.1) ∧ ∀ a, result.2 = .ok (.ready a) → Q a

/-- A future, or its result when it is done. -/
inductive MaybeDone (φ α : Type u) where
  | pending (future : φ)
  | done (result : α)

namespace MaybeDone

/-- A future that is done is not polled again. -/
def poll (pollFuture : φ → φ × Poll ε α) : MaybeDone φ α → Except ε (MaybeDone φ α)
  | .done result => .ok (.done result)
  | .pending future =>
    match pollFuture future with
    | (_, .error e) => .error e
    | (future, .ok .notReady) => .ok (.pending future)
    | (_, .ok (.ready result)) => .ok (.done result)

def result? : MaybeDone φ α → Option α
  | .pending _ => none
  | .done result => some result

/-- `P` of the future, or `Q` of its result. -/
def Sat (P : φ → Prop) (Q : α → Prop) : MaybeDone φ α → Prop
  | .pending future => P future
  | .done result => Q result

theorem poll_sat {P : φ → Prop} {Q : α → Prop} {pollFuture : φ → φ × Poll ε α}
    {self self' : MaybeDone φ α} (h : self.Sat P Q)
    (hpoll : ∀ future, P future → Polled P Q (pollFuture future))
    (heq : self.poll pollFuture = .ok self') : self'.Sat P Q := by
  cases self with
  | done result =>
    cases heq
    exact h
  | pending future =>
    have hfuture := hpoll future h
    rw [poll] at heq
    rcases hresult : pollFuture future with ⟨future', e | _ | result⟩
    all_goals
      rw [hresult] at heq hfuture
      cases heq
    · exact hfuture.1 rfl
    · exact hfuture.2 result rfl

theorem exists_of_poll_eq_error {pollFuture : φ → φ × Poll ε α} {self : MaybeDone φ α} {e : ε}
    (h : self.poll pollFuture = .error e) : ∃ future, (pollFuture future).2 = .error e := by
  cases self with
  | done result => cases h
  | pending future =>
    rw [poll] at h
    rcases hresult : pollFuture future with ⟨future', e' | _ | result⟩
    all_goals
      rw [hresult] at h
      cases h
    exact ⟨future, by rw [hresult]⟩

theorem exists_of_poll_ready {pollFuture : φ → φ × Poll ε α}
    (hpoll : ∀ future, ∃ a, (pollFuture future).2 = .ok (.ready a)) (self : MaybeDone φ α) :
    ∃ a, self.poll pollFuture = .ok (.done a) := by
  cases self with
  | done result => exact ⟨result, rfl⟩
  | pending future =>
    obtain ⟨a, ha⟩ := hpoll future
    refine ⟨a, ?_⟩
    rw [poll]
    rcases hresult : pollFuture future with ⟨future', result⟩
    rw [hresult] at ha
    obtain rfl : result = _ := ha
    rfl

end MaybeDone

/-- `JoinAll`: the futures that it waits for. -/
abbrev JoinAll (φ α : Type u) := List (MaybeDone φ α)

namespace JoinAll

/-- The futures from the given index on are polled once each. -/
def pollFrom (pollFuture : Nat → φ → φ × Poll ε α) :
    Nat → JoinAll φ α → Except ε (JoinAll φ α)
  | _, [] => .ok []
  | index, future :: futures => do
    let future ← future.poll (pollFuture index)
    let futures ← pollFrom pollFuture (index + 1) futures
    pure (future :: futures)

/-- `JoinAll::poll`.  The futures are dropped when it is done and when one of
them fails. -/
def poll (pollFuture : Nat → φ → φ × Poll ε α) (self : JoinAll φ α) :
    JoinAll φ α × Poll ε (List α) :=
  match pollFrom pollFuture 0 self with
  | .error e => ([], .error e)
  | .ok futures =>
    match futures.mapM MaybeDone.result? with
    | none => (futures, .ok .notReady)
    | some results => ([], .ok (.ready results))

/-- Every future belongs to an origin, in order. -/
def Sat (P : κ → φ → Prop) (Q : κ → α → Prop) (origins : List κ) (self : JoinAll φ α) : Prop :=
  List.Forall₂ (fun origin future => future.Sat (P origin) (Q origin)) origins self

variable {P : κ → φ → Prop} {Q : κ → α → Prop}

/-- `join_all` of one future for each origin. -/
theorem sat_pending (origins : List κ) (future : κ → φ) (h : ∀ origin, P origin (future origin)) :
    Sat P Q origins (origins.map fun origin => (MaybeDone.pending (future origin) :
      MaybeDone φ α)) := by
  induction origins with
  | nil => exact .nil
  | cons origin origins ih => exact .cons (h origin) ih

theorem pollFrom_sat {pollFuture : Nat → φ → φ × Poll ε α} {origins : List κ}
    {self self' : JoinAll φ α} {index : Nat} (h : Sat P Q origins self)
    (hpoll : ∀ i origin future, P origin future →
      Polled (P origin) (Q origin) (pollFuture i future))
    (heq : pollFrom pollFuture index self = .ok self') : Sat P Q origins self' := by
  induction h generalizing index self' with
  | nil =>
    cases heq
    exact .nil
  | @cons origin future origins futures hfuture _ ih =>
    rw [pollFrom] at heq
    obtain ⟨future', hhead, heq⟩ := Results.exists_of_bind_eq_ok heq
    obtain ⟨futures', htail, heq⟩ := Results.exists_of_bind_eq_ok heq
    cases heq
    exact .cons (MaybeDone.poll_sat hfuture (hpoll index origin) hhead) (ih htail)

theorem results_sat {origins : List κ} {self : JoinAll φ α} {results : List α}
    (h : Sat P Q origins self) (heq : self.mapM MaybeDone.result? = some results) :
    List.Forall₂ Q origins results := by
  induction h generalizing results with
  | nil =>
    cases heq
    exact .nil
  | @cons origin future origins futures hfuture _ ih =>
    rw [List.mapM_cons] at heq
    obtain ⟨result, hresult, heq⟩ := Option.bind_eq_some_iff.1 heq
    obtain ⟨rest, hrest, heq⟩ := Option.bind_eq_some_iff.1 heq
    cases heq
    cases future with
    | pending f => cases hresult
    | done a =>
      cases hresult
      exact .cons hfuture (ih hrest)

/-- The results come in the order of the origins. -/
theorem poll_spec {pollFuture : Nat → φ → φ × Poll ε α} {origins : List κ} {self : JoinAll φ α}
    (h : Sat P Q origins self)
    (hpoll : ∀ i origin future, P origin future →
      Polled (P origin) (Q origin) (pollFuture i future)) :
    Polled (Sat P Q origins) (List.Forall₂ Q origins) (self.poll pollFuture) := by
  unfold poll
  split
  · exact ⟨fun h => (by cases h), fun _ h => by cases h⟩
  · rename_i futures hfutures
    have hsat := pollFrom_sat h hpoll hfutures
    split
    · exact ⟨fun _ => hsat, fun _ h => by cases h⟩
    · rename_i results hresults
      refine ⟨fun h => (by cases h), ?_⟩
      intro results' heq
      cases heq
      exact results_sat hsat hresults

theorem exists_of_pollFrom_ready {pollFuture : Nat → φ → φ × Poll ε α}
    (hpoll : ∀ i future, ∃ a, (pollFuture i future).2 = .ok (.ready a)) (index : Nat)
    (self : JoinAll φ α) : ∃ futures results, pollFrom pollFuture index self = .ok futures ∧
      futures.mapM MaybeDone.result? = some results := by
  induction self generalizing index with
  | nil => exact ⟨[], [], rfl, rfl⟩
  | cons future futures ih =>
    obtain ⟨a, ha⟩ := MaybeDone.exists_of_poll_ready (hpoll index) future
    obtain ⟨futures', results, hfutures, hresults⟩ := ih (index + 1)
    refine ⟨.done a :: futures', a :: results, ?_, ?_⟩
    · rw [pollFrom, ha, hfutures]
      rfl
    · rw [List.mapM_cons, hresults]
      rfl

/-- Futures that are done when they are polled. -/
theorem poll_returns {pollFuture : Nat → φ → φ × Poll ε α}
    (hpoll : ∀ i future, ∃ a, (pollFuture i future).2 = .ok (.ready a)) (self : JoinAll φ α) :
    ∃ results, (self.poll pollFuture).2 = .ok (.ready results) := by
  obtain ⟨futures, results, hfutures, hresults⟩ := exists_of_pollFrom_ready hpoll 0 self
  refine ⟨results, ?_⟩
  unfold poll
  rw [hfutures]
  dsimp only
  rw [hresults]

theorem exists_of_pollFrom_eq_error {pollFuture : Nat → φ → φ × Poll ε α} {self : JoinAll φ α}
    {index : Nat} {e : ε} (h : pollFrom pollFuture index self = .error e) :
    ∃ i future, (pollFuture i future).2 = .error e := by
  induction self generalizing index with
  | nil => cases h
  | cons future futures ih =>
    rw [pollFrom] at h
    cases hhead : future.poll (pollFuture index) with
    | error e' =>
      rw [hhead] at h
      cases h
      exact ⟨index, MaybeDone.exists_of_poll_eq_error hhead⟩
    | ok future' =>
      rw [hhead] at h
      cases htail : pollFrom pollFuture (index + 1) futures with
      | error e' =>
        rw [htail] at h
        cases h
        exact ih htail
      | ok futures' =>
        rw [htail] at h
        cases h

theorem exists_of_poll_eq_error {pollFuture : Nat → φ → φ × Poll ε α} {self : JoinAll φ α} {e : ε}
    (h : (self.poll pollFuture).2 = .error e) : ∃ i future, (pollFuture i future).2 = .error e := by
  unfold poll at h
  split at h
  · rename_i e' herror
    cases h
    exact exists_of_pollFrom_eq_error herror
  · split at h <;> cases h

end JoinAll

/-- `Join`: two futures. -/
structure Join (φ α ψ β : Type u) where
  first : MaybeDone φ α
  second : MaybeDone ψ β

namespace Join

/-- `Join::poll`.  A pair that failed is not polled again. -/
def poll (pollFirst : φ → φ × Poll ε α) (pollSecond : ψ → ψ × Poll ε β) (self : Join φ α ψ β) :
    Join φ α ψ β × Poll ε (α × β) :=
  match self.first.poll pollFirst with
  | .error e => (self, .error e)
  | .ok first =>
    match self.second.poll pollSecond with
    | .error e => (self, .error e)
    | .ok second =>
      match first, second with
      | .done a, .done b => (⟨first, second⟩, .ok (.ready (a, b)))
      | _, _ => (⟨first, second⟩, .ok .notReady)

theorem poll_spec {P : φ → Prop} {Q : α → Prop} {P' : ψ → Prop} {Q' : β → Prop}
    {pollFirst : φ → φ × Poll ε α} {pollSecond : ψ → ψ × Poll ε β} {self : Join φ α ψ β}
    (h : self.first.Sat P Q ∧ self.second.Sat P' Q')
    (hfirst : ∀ future, P future → Polled P Q (pollFirst future))
    (hsecond : ∀ future, P' future → Polled P' Q' (pollSecond future)) :
    Polled (fun s => s.first.Sat P Q ∧ s.second.Sat P' Q') (fun r => Q r.1 ∧ Q' r.2)
      (self.poll pollFirst pollSecond) := by
  unfold poll
  split
  · exact ⟨fun _ => h, fun _ heq => by cases heq⟩
  · rename_i first hpollFirst
    have hfirst' := MaybeDone.poll_sat h.1 hfirst hpollFirst
    split
    · exact ⟨fun _ => h, fun _ heq => by cases heq⟩
    · rename_i second hpollSecond
      have hsecond' := MaybeDone.poll_sat h.2 hsecond hpollSecond
      split
      · refine ⟨fun _ => ⟨hfirst', hsecond'⟩, ?_⟩
        intro r heq
        cases heq
        exact ⟨hfirst', hsecond'⟩
      · exact ⟨fun _ => ⟨hfirst', hsecond'⟩, fun _ heq => by cases heq⟩

theorem poll_returns {pollFirst : φ → φ × Poll ε α} {pollSecond : ψ → ψ × Poll ε β}
    (hfirst : ∀ future, ∃ a, (pollFirst future).2 = .ok (.ready a))
    (hsecond : ∀ future, ∃ b, (pollSecond future).2 = .ok (.ready b)) (self : Join φ α ψ β) :
    ∃ r, (self.poll pollFirst pollSecond).2 = .ok (.ready r) := by
  obtain ⟨a, ha⟩ := MaybeDone.exists_of_poll_ready hfirst self.first
  obtain ⟨b, hb⟩ := MaybeDone.exists_of_poll_ready hsecond self.second
  refine ⟨(a, b), ?_⟩
  unfold poll
  rw [ha]
  dsimp only
  rw [hb]

theorem exists_of_poll_eq_error {pollFirst : φ → φ × Poll ε α} {pollSecond : ψ → ψ × Poll ε β}
    {self : Join φ α ψ β} {e : ε} (h : (self.poll pollFirst pollSecond).2 = .error e) :
    (∃ future, (pollFirst future).2 = .error e) ∨ ∃ future, (pollSecond future).2 = .error e := by
  unfold poll at h
  split at h
  · rename_i e' herror
    cases h
    exact .inl (MaybeDone.exists_of_poll_eq_error herror)
  · split at h
    · rename_i e' herror
      cases h
      exact .inr (MaybeDone.exists_of_poll_eq_error herror)
    · split at h <;> cases h

end Join

end Join

end PollLoop
