import Mathlib.Logic.Basic

/-!
# Machines that are driven by polls

A poll-driven machine keeps its own state between calls.  Each call runs a
loop whose body looks at the state, asks at most one of the machines below
it, and then either moves to a next state or returns to the caller.

The model of such a call is `run`.  The answers of the machines below are an
explicit script, one entry for each iteration of the loop.  A script that
runs out stops the call where it stands, and the caller sees the `idle`
answer.  Every finite execution of the loop is the run of some script, and
every point at which an execution can be cut is the end of some script, so a
statement about all scripts is a statement about every order of answers and
every cut.

`Flow.Sat` states what a single iteration establishes, and `run_sat` is the
loop rule: a property that every `next` keeps holds of every return.  The
combinators `tryReady` and `tryStream` are the early returns of the body,
with one rule each.

`run_returns` is the rule for a call that comes to a return: every iteration lowers a
rank.

`Reached` are the states between the calls, and `run_iff_along` is the rule for
a property of the result that is decided iteration by iteration.
-/

namespace PollLoop

universe u v w

/-- The answer of a poll that did not fail. -/
inductive Async (α : Type u) where
  | notReady
  | ready (value : α)
deriving DecidableEq, Repr

/-- The result of a poll. -/
abbrev Poll (ε : Type v) (α : Type u) := Except ε (Async α)

/-- How one iteration of a poll loop ends: the loop goes on in a next state,
or the call returns and leaves a state behind. -/
inductive Flow (σ : Type u) (ρ : Type v) where
  | next (s : σ)
  | ret (s : σ) (r : ρ)

section Loop

variable {σ : Type u} {ρ : Type v} {ι : Type w}

/-- What an iteration establishes: `P` of the state it goes on with, or `Q`
of the state it leaves and the result it returns. -/
def Flow.Sat (P : σ → Prop) (Q : σ → ρ → Prop) : Flow σ ρ → Prop
  | .next s => P s
  | .ret s r => Q s r

@[simp] theorem Flow.sat_next (P : σ → Prop) (Q : σ → ρ → Prop) (s : σ) :
    (Flow.next s : Flow σ ρ).Sat P Q ↔ P s := Iff.rfl

@[simp] theorem Flow.sat_ret (P : σ → Prop) (Q : σ → ρ → Prop) (s : σ) (r : ρ) :
    (Flow.ret s r).Sat P Q ↔ Q s r := Iff.rfl

theorem Flow.Sat.imp {P P' : σ → Prop} {Q Q' : σ → ρ → Prop} {flow : Flow σ ρ}
    (h : flow.Sat P Q) (hnext : ∀ s, P s → P' s) (hret : ∀ s r, Q s r → Q' s r) :
    flow.Sat P' Q' := by
  cases flow with
  | next s => exact hnext s h
  | ret s r => exact hret s r h

theorem Flow.Sat.and {P P' : σ → Prop} {Q Q' : σ → ρ → Prop} {flow : Flow σ ρ}
    (h : flow.Sat P Q) (h' : flow.Sat P' Q') :
    flow.Sat (fun s => P s ∧ P' s) fun s r => Q s r ∧ Q' s r := by
  cases flow with
  | next s => exact ⟨h, h'⟩
  | ret s r => exact ⟨h, h'⟩

/-- The state that an iteration goes on with or leaves. -/
def Flow.state : Flow σ ρ → σ
  | .next s => s
  | .ret s _ => s

theorem Flow.Sat.state {P : σ → Prop} {flow : Flow σ ρ} (h : flow.Sat P fun s _ => P s) :
    P flow.state := by
  cases flow <;> exact h

/-- One call of the machine: `loop { body }`, fed with a script of answers. -/
def run (body : σ → ι → Flow σ ρ) (idle : ρ) : σ → List ι → σ × ρ
  | s, [] => (s, idle)
  | s, i :: is =>
    match body s i with
    | .next s' => run body idle s' is
    | .ret s' r => (s', r)

theorem run_map {κ : Type w} {body : σ → ι → Flow σ ρ} {idle : ρ} (f : κ → ι) (s : σ)
    (script : List κ) :
    run body idle s (script.map f) = run (fun s k => body s (f k)) idle s script := by
  induction script generalizing s with
  | nil => rfl
  | cons k script ih =>
    rw [List.map_cons, run, run]
    cases body s (f k) with
    | next s' => exact ih s'
    | ret s' r => rfl

/-- The loop rule.  `P` holds before every iteration and `Q` of the return,
whether the body returns or the script ends. -/
theorem run_sat {body : σ → ι → Flow σ ρ} {idle : ρ} {P : σ → Prop} {Q : σ → ρ → Prop}
    (hidle : ∀ s, P s → Q s idle) :
    ∀ (script : List ι) (s : σ),
      (∀ i ∈ script, ∀ t, P t → (body t i).Sat P Q) → P s →
      Q (run body idle s script).1 (run body idle s script).2 := by
  intro script
  induction script with
  | nil =>
    intro s _ hs
    exact hidle s hs
  | cons i is ih =>
    intro s hbody hs
    have hstep := hbody i (by simp) s hs
    rw [run]
    cases hflow : body s i with
    | next s' =>
      rw [hflow] at hstep
      exact ih s' (fun j hj => hbody j (by simp [hj])) hstep
    | ret s' r =>
      rw [hflow] at hstep
      exact hstep

/-- The loop rule for what holds besides an invariant `K` that is proved by itself. -/
theorem run_sat_of_kept {body : σ → ι → Flow σ ρ} {idle : ρ} {K P : σ → Prop} {Q : σ → ρ → Prop}
    {script : List ι} {s : σ} (hkept : ∀ i ∈ script, ∀ t, K t → (body t i).Sat K fun _ _ => True)
    (hbody : ∀ i ∈ script, ∀ t, K t → P t → (body t i).Sat P Q) (hidle : ∀ t, P t → Q t idle)
    (hK : K s) (hP : P s) : Q (run body idle s script).1 (run body idle s script).2 := by
  refine run_sat (P := fun t => K t ∧ P t) (fun t ht => hidle t ht.2) script s ?_ ⟨hK, hP⟩
  rintro i hmem t ⟨hkt, hpt⟩
  exact ((hkept i hmem t hkt).and (hbody i hmem t hkt hpt)).imp (fun _ h => h) fun _ _ h => h.2

/-- Every iteration of the call meets `C`. -/
def Along (body : σ → ι → Flow σ ρ) (C : σ → ι → Prop) : σ → List ι → Prop
  | _, [] => True
  | s, i :: is => C s i ∧
    match body s i with
    | .next s' => Along body C s' is
    | .ret _ _ => True

/-- Where the invariant holds, every iteration meets `C`, and it keeps the invariant. -/
theorem along_of_invariant {body : σ → ι → Flow σ ρ} {P : σ → Prop} {C : σ → ι → Prop} :
    ∀ (script : List ι) (s : σ),
      (∀ i ∈ script, ∀ t, P t → C t i ∧ (body t i).Sat P fun t' _ => P t') → P s →
      Along body C s script := by
  intro script
  induction script with
  | nil => exact fun _ _ _ => trivial
  | cons i is ih =>
    intro s hbody hs
    obtain ⟨hmeets, hstep⟩ := hbody i (List.mem_cons_self ..) s hs
    refine ⟨hmeets, ?_⟩
    cases hflow : body s i with
    | next s' =>
      rw [hflow] at hstep
      exact ih s' (fun j hj => hbody j (List.mem_cons_of_mem i hj)) hstep
    | ret s' r => trivial

/-- The rule for calls that return when every iteration meets `C`.  `rank` bounds the
iterations that are left, and the script is longer than that. -/
theorem run_returns_of_along {body : σ → ι → Flow σ ρ} {idle : ρ} {P : σ → Prop}
    {Q : σ → ρ → Prop} {C : σ → ι → Prop} (rank : σ → Nat) :
    ∀ (script : List ι) (s : σ), Along body C s script →
      (∀ i ∈ script, ∀ t, P t → C t i →
        (body t i).Sat (fun t' => P t' ∧ rank t' < rank t) Q) → P s →
      rank s < script.length →
      Q (run body idle s script).1 (run body idle s script).2 := by
  intro script
  induction script with
  | nil => exact fun _ _ _ _ hrank => absurd hrank (Nat.not_lt_zero _)
  | cons i is ih =>
    intro s halong hbody hs hrank
    obtain ⟨hmeets, hrest⟩ := halong
    have hstep := hbody i (List.mem_cons_self ..) s hs hmeets
    rw [List.length_cons] at hrank
    rw [run]
    cases hflow : body s i with
    | next s' =>
      rw [hflow] at hstep hrest
      exact ih s' hrest (fun j hj => hbody j (List.mem_cons_of_mem i hj)) hstep.1
        (Nat.lt_of_lt_of_le hstep.2 (Nat.le_of_lt_succ hrank))
    | ret s' r =>
      rw [hflow] at hstep
      exact hstep

/-- The rule for calls that return with any answers of the script. -/
theorem run_returns {body : σ → ι → Flow σ ρ} {idle : ρ} {P : σ → Prop} {Q : σ → ρ → Prop}
    (rank : σ → Nat) (script : List ι) (s : σ)
    (hbody : ∀ i ∈ script, ∀ t, P t → (body t i).Sat (fun t' => P t' ∧ rank t' < rank t) Q)
    (hs : P s) (hrank : rank s < script.length) :
    Q (run body idle s script).1 (run body idle s script).2 := by
  have halong : Along body (fun _ i => i ∈ script) s script := by
    refine along_of_invariant (P := fun _ => True) script s (fun i hi t _ => ⟨hi, ?_⟩) trivial
    cases body t i <;> trivial
  exact run_returns_of_along rank script s halong (fun i hi t ht _ => hbody i hi t ht) hs hrank

/-- When the last iteration of a call decides whether it ends well, and `C` is what it
decides by, the call ends well if and only if every iteration meets `C`. -/
theorem run_iff_along {body : σ → ι → Flow σ ρ} {idle : ρ} {P : σ → Prop} {good : σ → ρ → Prop}
    {C : σ → ι → Prop} (hidle : ∀ s, P s → good s idle) :
    ∀ (script : List ι) (s : σ),
      (∀ i ∈ script, ∀ t, P t →
        (body t i).Sat (fun t' => P t' ∧ C t i) fun t' r => good t' r ↔ C t i) → P s →
      (good (run body idle s script).1 (run body idle s script).2 ↔ Along body C s script) := by
  intro script
  induction script with
  | nil =>
    intro s _ hs
    exact iff_of_true (hidle s hs) trivial
  | cons i is ih =>
    intro s hbody hs
    have hstep := hbody i (by simp) s hs
    rw [run, Along]
    cases hflow : body s i with
    | next s' =>
      rw [hflow] at hstep
      exact (ih s' (fun j hj => hbody j (by simp [hj])) hstep.1).trans
        (and_iff_right hstep.2).symm
    | ret s' r =>
      rw [hflow] at hstep
      exact Iff.trans hstep (and_iff_left trivial).symm

end Loop

section Calls

variable {μ ω : Type u} {ι : Type w} {ε α : Type v}

/-- The machines that any number of calls leave behind, with answers that satisfy
`A`.  Between two calls the world around a machine can change in any way.  A call
that fails is the last one. -/
inductive Reached (body : μ × ω → ι → Flow (μ × ω) (Poll ε α)) (A : ι → Prop) (start : μ) :
    μ → Prop where
  | start : Reached body A start start
  | call {self self' : μ} {world world' : ω} {script : List ι} {a : Async α} :
      Reached body A start self → (∀ i ∈ script, A i) →
      run body (.ok .notReady) (self, world) script = ((self', world'), .ok a) →
      Reached body A start self'

/-- What every iteration keeps holds of the machines that are reached.  An iteration
that fails does not have to keep it. -/
theorem Reached.invariant {body : μ × ω → ι → Flow (μ × ω) (Poll ε α)} {A : ι → Prop}
    {start self : μ} {I : μ → Prop} (h : Reached body A start self) (hstart : I start)
    (hbody : ∀ s i, A i → I s.1 →
      (body s i).Sat (fun s' => I s'.1) fun s' r => ∀ a, r = .ok a → I s'.1) : I self := by
  induction h with
  | start => exact hstart
  | @call self self' world world' script a _ hscript hrun ih =>
    have hkept := @run_sat _ _ _ body (.ok .notReady) (fun s => I s.1)
      (fun s r => ∀ a, r = .ok a → I s.1) (fun s hs _ _ => hs) script (self, world)
      (fun i hi s hs => hbody s i (hscript i hi) hs) ih
    rw [hrun] at hkept
    exact hkept a rfl

end Calls

section EarlyReturn

variable {σ : Type u} {ε : Type v} {α β : Type w}

/-- `try_ready!`: an error and a `NotReady` return at once, a value goes on. -/
def tryReady (s : σ) (p : Poll ε α) (k : α → Flow σ (Poll ε β)) : Flow σ (Poll ε β) :=
  match p with
  | .error e => .ret s (.error e)
  | .ok .notReady => .ret s (.ok .notReady)
  | .ok (.ready a) => k a

/-- `try_stream!`: as `tryReady`, and the end of the stream returns too. -/
def tryStream (s : σ) (p : Poll ε (Option α)) (k : α → Flow σ (Poll ε (Option β))) :
    Flow σ (Poll ε (Option β)) :=
  tryReady s p fun
    | none => .ret s (.ok (.ready none))
    | some a => k a

theorem tryReady_sat {P : σ → Prop} {Q : σ → Poll ε β → Prop} {s : σ} {p : Poll ε α}
    {k : α → Flow σ (Poll ε β)}
    (herror : ∀ e, p = .error e → Q s (.error e))
    (hnotReady : p = .ok .notReady → Q s (.ok .notReady))
    (hready : ∀ a, p = .ok (.ready a) → (k a).Sat P Q) :
    (tryReady s p k).Sat P Q := by
  rcases p with e | _ | a
  · exact herror e rfl
  · exact hnotReady rfl
  · exact hready a rfl

theorem tryStream_sat {P : σ → Prop} {Q : σ → Poll ε (Option β) → Prop} {s : σ}
    {p : Poll ε (Option α)} {k : α → Flow σ (Poll ε (Option β))}
    (herror : ∀ e, p = .error e → Q s (.error e))
    (hnotReady : p = .ok .notReady → Q s (.ok .notReady))
    (hend : p = .ok (.ready none) → Q s (.ok (.ready none)))
    (hready : ∀ a, p = .ok (.ready (some a)) → (k a).Sat P Q) :
    (tryStream s p k).Sat P Q := by
  refine tryReady_sat herror hnotReady ?_
  intro a hp
  cases a with
  | none => exact hend hp
  | some a => exact hready a hp

end EarlyReturn

end PollLoop
