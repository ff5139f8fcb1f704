import PoaBridge.Lib.PollLoop
import PoaBridge.Lib.Runs

/-!
# Traces of machines that are driven by polls

`trace` is what the iterations of a call make observable, in their order.

An abstract machine describes the observations: a state, how an observation
changes it, and which observations it allows.  A poll-driven machine
`Simulates` it when every iteration does.  Then every call does, and machines
that are built from machines that simulate it can be shown to do so too.
-/

namespace PollLoop

universe u v w

variable {σ : Type u} {ρ : Type v} {ι : Type w} {ω τ : Type u}

/-- The observations of one call, fed with a script of answers. -/
def trace (body : σ → ι → Flow σ ρ) (observed : σ → ι → List ω) : σ → List ι → List ω
  | _, [] => []
  | s, i :: is => observed s i ++
    match body s i with
    | .next s' => trace body observed s' is
    | .ret _ _ => []

/-- Every observation of a call is one of an iteration. -/
theorem exists_of_mem_trace {body : σ → ι → Flow σ ρ} {observed : σ → ι → List ω} {o : ω} :
    ∀ {script : List ι} {s : σ}, o ∈ trace body observed s script →
      ∃ s' i, o ∈ observed s' i := by
  intro script
  induction script with
  | nil => exact fun h => by cases h
  | cons i is ih =>
    intro s h
    rw [trace, List.mem_append] at h
    rcases h with h | h
    · exact ⟨s, i, h⟩
    · split at h
      · exact ih h
      · cases h

/-- Every iteration does what the abstract machine allows, and `abstract` is
the state of the abstract machine before and after it. -/
structure Simulates (body : σ → ι → Flow σ ρ) (observed : σ → ι → List ω) (abstract : σ → τ)
    (step : τ → ω → τ) (allowed : τ → ω → Prop) : Prop where
  allows : ∀ s i, Runs.Along step allowed (abstract s) (observed s i)
  follows : ∀ s i, (body s i).Sat
    (fun s' => abstract s' = (observed s i).foldl step (abstract s))
    (fun s' _ => abstract s' = (observed s i).foldl step (abstract s))

/-- A call does what the abstract machine allows. -/
theorem Simulates.call {body : σ → ι → Flow σ ρ} {observed : σ → ι → List ω}
    {abstract : σ → τ} {step : τ → ω → τ} {allowed : τ → ω → Prop}
    (h : Simulates body observed abstract step allowed) (idle : ρ) :
    ∀ (script : List ι) (s : σ),
      Runs.Along step allowed (abstract s) (trace body observed s script) ∧
        abstract (run body idle s script).1
          = (trace body observed s script).foldl step (abstract s) := by
  intro script
  induction script with
  | nil => exact fun s => ⟨trivial, rfl⟩
  | cons i is ih =>
    intro s
    have hallows := h.allows s i
    have hfollows := h.follows s i
    rw [trace, run, Runs.along_append, List.foldl_append]
    cases hflow : body s i with
    | next s' =>
      rw [hflow] at hfollows
      have hnext := ih s'
      rw [Flow.sat_next] at hfollows
      rw [hfollows] at hnext
      exact ⟨⟨hallows, hnext.1⟩, hnext.2⟩
    | ret s' r =>
      rw [hflow] at hfollows
      exact ⟨⟨hallows, trivial⟩, hfollows⟩

end PollLoop
