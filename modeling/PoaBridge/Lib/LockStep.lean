import PoaBridge.Lib.Futures

/-!
# Two calls of one machine, side by side

`Flow.map` changes the state of an iteration.  When a body commutes with a change of the
state, so does the call (`run_map_state`): the part that changes has no influence on the
other parts and on the result.

`LockStep` is the case in which the part that changes can make one of the two iterations
fail.  `run_lockStep` says that the calls agree then, unless one of them fails.
-/

namespace PollLoop

universe u v w

variable {σ : Type u} {ι : Type w}

section Map

variable {ρ : Type v}

/-- The iteration with another state. -/
def Flow.map (f : σ → σ) : Flow σ ρ → Flow σ ρ
  | .next s => .next (f s)
  | .ret s r => .ret (f s) r

/-- A change of the state that every iteration commutes with, the call commutes with. -/
theorem run_map_state {body : σ → ι → Flow σ ρ} {f : σ → σ} (idle : ρ)
    (hbody : ∀ s i, body (f s) i = (body s i).map f) (s : σ) (script : List ι) :
    run body idle (f s) script = (f (run body idle s script).1, (run body idle s script).2) := by
  induction script generalizing s with
  | nil => rfl
  | cons i script ih =>
    rw [run, run, hbody]
    cases body s i with
    | next s' => exact ih s'
    | ret s' r => rfl

end Map

section EarlyReturn

variable {ε : Type v} {α β : Type w}

theorem tryReady_map {s : σ} {p : Poll ε α} {k : α → Flow σ (Poll ε β)} {f : σ → σ} :
    (tryReady s p k).map f = tryReady (f s) p fun a => (k a).map f := by
  rcases p with e | _ | a <;> rfl

theorem tryStream_map {s : σ} {p : Poll ε (Option α)} {k : α → Flow σ (Poll ε (Option β))}
    {f : σ → σ} : (tryStream s p k).map f = tryStream (f s) p fun a => (k a).map f := by
  rcases p with e | _ | _ | a <;> rfl

end EarlyReturn

/-! ## A collection of futures -/

section Collect

variable {κ φ ω ι α : Type u} {ε : Type v}

/-- A change of the world that no future notices, the collection does not notice. -/
theorem Collect.poll_map_world {pollFuture : κ → φ → ω → ι → (φ × ω) × Poll ε α} {f : ω → ω}
    (hpoll : ∀ job future w answers, pollFuture job future (f w) answers
      = (((pollFuture job future w answers).1.1, f (pollFuture job future w answers).1.2),
        (pollFuture job future w answers).2))
    (self : Collect κ φ α) (world : ω) (script : List (Nat × ι)) :
    poll pollFuture (self, f world) script
      = (((poll pollFuture (self, world) script).1.1, f (poll pollFuture (self, world) script).1.2),
        (poll pollFuture (self, world) script).2) := by
  refine run_map_state (f := fun s : Collect κ φ α × ω => (s.1, f s.2)) _ (fun s answers => ?_)
    (self, world) script
  obtain ⟨futures, w⟩ := s
  unfold body
  dsimp only
  split
  · rfl
  · split
    · rfl
    · rename_i job future _
      rw [hpoll]
      rcases pollFuture job future w answers.2 with ⟨⟨future', w'⟩, e | _ | result⟩ <;> rfl

end Collect

/-! ## Agreement unless one side fails -/

section LockStep

variable {ε : Type v} {α : Type w} {R : σ → σ → Prop}

/-- Two iterations that do the same, up to `R`, or one of which fails. -/
inductive LockStep (R : σ → σ → Prop) : Flow σ (Except ε α) → Flow σ (Except ε α) → Prop where
  | next {s t : σ} : R s t → LockStep R (.next s) (.next t)
  | ret {s t : σ} {r : Except ε α} : R s t → LockStep R (.ret s r) (.ret t r)
  | leftFails {s : σ} {e : ε} {flow : Flow σ (Except ε α)} : LockStep R (.ret s (.error e)) flow
  | rightFails {t : σ} {e : ε} {flow : Flow σ (Except ε α)} : LockStep R flow (.ret t (.error e))

theorem LockStep.of_map {f : σ → σ} {flow : Flow σ (Except ε α)} (hf : ∀ s, R s (f s)) :
    LockStep R flow (flow.map f) := by
  cases flow with
  | next s => exact .next (hf s)
  | ret s r => exact .ret (hf s)

/-- Two calls that end in the same way, up to `R`, or one of which fails. -/
def Agree (R : σ → σ → Prop) (p q : σ × Except ε α) : Prop :=
  R p.1 q.1 ∧ p.2 = q.2 ∨ (∃ e, p.2 = .error e) ∨ ∃ e, q.2 = .error e

theorem run_lockStep {body : σ → ι → Flow σ (Except ε α)} (idle : Except ε α)
    (hbody : ∀ s t i, R s t → LockStep R (body s i) (body t i)) :
    ∀ (script : List ι) (s t : σ), R s t →
      Agree R (run body idle s script) (run body idle t script) := by
  intro script
  induction script with
  | nil => exact fun s t h => .inl ⟨h, rfl⟩
  | cons i script ih =>
    intro s t h
    have hstep := hbody s t i h
    rw [run, run]
    generalize body s i = flow at hstep ⊢
    generalize body t i = flow' at hstep ⊢
    cases hstep with
    | next h' => exact ih _ _ h'
    | ret h' => exact .inl ⟨h', rfl⟩
    | leftFails => exact .inr (.inl ⟨_, rfl⟩)
    | rightFails => exact .inr (.inr ⟨_, rfl⟩)

end LockStep

end PollLoop
