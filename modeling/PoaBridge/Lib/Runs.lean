import Mathlib.Data.List.Nodup

/-!
# Runs of a step function

A run is a fold of a step function over a list of inputs.  `Along` says that
every input of a run meets a condition in the state that it is applied to, and
`foldl_of_along` is the invariant rule for such runs.  `foldl_of_step` is the
case without a condition.

`nodup_foldl_iff` is for runs that record a value now and then: it says when nothing is
recorded twice.

A step that can be refused is a partial function; `accepted` are the inputs of a
run that are not refused.

`progress` counts the steps that make progress, and `progress_add_le` bounds them by
a potential.

`Always` says that every state of a run has a property.  When the condition is
also needed for the property, `always_iff_along` turns the two into one
another.
-/

namespace Runs

universe u v

variable {σ : Type u} {ι : Type v}

/-- Every step of the run meets `P` in the state before it. -/
def Along (step : σ → ι → σ) (P : σ → ι → Prop) : σ → List ι → Prop
  | _, [] => True
  | s, i :: is => P s i ∧ Along step P (step s i) is

instance Along.decidable (step : σ → ι → σ) (P : σ → ι → Prop) [∀ s i, Decidable (P s i)] :
    ∀ (s : σ) (inputs : List ι), Decidable (Along step P s inputs)
  | _, [] => .isTrue trivial
  | s, i :: is =>
    have := Along.decidable step P (step s i) is
    inferInstanceAs (Decidable (P s i ∧ Along step P (step s i) is))

theorem along_append {step : σ → ι → σ} {P : σ → ι → Prop} {s : σ} {before after : List ι} :
    Along step P s (before ++ after) ↔
      Along step P s before ∧ Along step P (before.foldl step s) after := by
  induction before generalizing s with
  | nil => exact ⟨fun h => ⟨trivial, h⟩, fun h => h.2⟩
  | cons i before ih => exact (and_congr_right fun _ => ih).trans and_assoc.symm

/-- An invariant that every step keeps, as long as it meets `P`, holds at the
end of every run whose steps meet `P`. -/
theorem foldl_of_along {step : σ → ι → σ} {P : σ → ι → Prop} {Inv : σ → Prop}
    (hstep : ∀ s i, Inv s → P s i → Inv (step s i)) :
    ∀ (inputs : List ι) (s : σ), Along step P s inputs → Inv s → Inv (inputs.foldl step s) := by
  intro inputs
  induction inputs with
  | nil => exact fun s _ hs => hs
  | cons i is ih => exact fun s halong hs => ih _ halong.2 (hstep s i hs halong.1)

/-- What a step guarantees where the invariant holds, every step of the run
guarantees. -/
theorem Along.of_invariant {step : σ → ι → σ} {P Q : σ → ι → Prop} {Inv : σ → Prop}
    (hstep : ∀ s i, Inv s → P s i → Inv (step s i)) (hguarantee : ∀ s i, Inv s → P s i → Q s i) :
    ∀ {inputs : List ι} {s : σ}, Along step P s inputs → Inv s → Along step Q s inputs := by
  intro inputs
  induction inputs with
  | nil => exact fun _ _ => trivial
  | cons i is ih =>
    intro s halong hs
    exact ⟨hguarantee s i hs halong.1, ih halong.2 (hstep s i hs halong.1)⟩

/-- What a step guarantees where the invariant holds that every step keeps. -/
theorem along_of_step {step : σ → ι → σ} {Q : σ → ι → Prop} {Inv : σ → Prop}
    (hstep : ∀ s i, Inv s → Inv (step s i)) (hguarantee : ∀ s i, Inv s → Q s i) :
    ∀ (inputs : List ι) {s : σ}, Inv s → Along step Q s inputs := by
  intro inputs
  induction inputs with
  | nil => exact fun _ => trivial
  | cons i is ih => exact fun hs => ⟨hguarantee _ i hs, ih (hstep _ i hs)⟩

/-- Two conditions that agree where the invariant holds agree on runs. -/
theorem along_congr_of_step {step : σ → ι → σ} {P Q : σ → ι → Prop} {Inv : σ → Prop}
    (hstep : ∀ s i, Inv s → Inv (step s i)) (hiff : ∀ s i, Inv s → (P s i ↔ Q s i))
    {inputs : List ι} {s : σ} (hs : Inv s) : Along step P s inputs ↔ Along step Q s inputs :=
  ⟨fun h => h.of_invariant (fun s i hs _ => hstep s i hs) (fun s i hs => (hiff s i hs).1) hs,
    fun h => h.of_invariant (fun s i hs _ => hstep s i hs) (fun s i hs => (hiff s i hs).2) hs⟩

/-- An invariant that every step keeps holds at the end of every run. -/
theorem foldl_of_step {step : σ → ι → σ} {Inv : σ → Prop}
    (hstep : ∀ s i, Inv s → Inv (step s i)) (inputs : List ι) {s : σ} (hs : Inv s) :
    Inv (inputs.foldl step s) :=
  List.foldlRecOn inputs step (motive := Inv) hs fun s hs i _ => hstep s i hs

/-! ## Runs that record values -/

section Records

variable {α : Type v} {step : σ → ι → σ} {recorded : σ → List α}

/-- What is recorded stays. -/
theorem sublist_foldl (hgrows : ∀ s i, (recorded s).Sublist (recorded (step s i)))
    (inputs : List ι) (s : σ) : (recorded s).Sublist (recorded (inputs.foldl step s)) :=
  @foldl_of_step _ _ step (fun s' => (recorded s).Sublist (recorded s'))
    (fun _ i h => h.trans (hgrows _ i)) inputs _ (List.Sublist.refl _)

/-- When a step records at most one value, and `C` is whether it is new, a run records
nothing twice if and only if all its steps meet `C`.  The invariant is needed as long as
they do. -/
theorem nodup_foldl_iff {C : σ → ι → Prop} {Inv : σ → Prop}
    (hgrows : ∀ s i, (recorded s).Sublist (recorded (step s i)))
    (hinv : ∀ s i, Inv s → C s i → Inv (step s i))
    (hstep : ∀ s i, Inv s → recorded (step s i) = recorded s ∧ C s i ∨
      ∃ a, recorded (step s i) = recorded s ++ [a] ∧ (C s i ↔ a ∉ recorded s)) :
    ∀ (inputs : List ι) (s : σ), Inv s → (recorded s).Nodup →
      ((recorded (inputs.foldl step s)).Nodup ↔ Along step C s inputs) := by
  intro inputs
  induction inputs with
  | nil => exact fun s _ h => iff_of_true h trivial
  | cons i is ih =>
    intro s hs h
    rw [Along, List.foldl_cons]
    rcases hstep s i hs with ⟨hsame, hmeets⟩ | ⟨a, hnew, hiff⟩
    · rw [and_iff_right hmeets]
      exact ih _ (hinv s i hs hmeets) (hsame ▸ h)
    · by_cases hmem : a ∈ recorded s
      · refine iff_of_false (fun hnodup => ?_) fun hmeets => hiff.1 hmeets.1 hmem
        have hnext := hnodup.sublist (sublist_foldl hgrows is (step s i))
        rw [hnew] at hnext
        exact (List.nodup_append.1 hnext).2.2 a hmem a (List.mem_singleton_self _) rfl
      · have hmeets := hiff.2 hmem
        rw [and_iff_right hmeets]
        refine ih _ (hinv s i hs hmeets) ?_
        rw [hnew]
        exact List.nodup_append.2 ⟨h, List.nodup_singleton _, fun b hb c hc hbc =>
          hmem (List.mem_singleton.1 hc ▸ hbc ▸ hb)⟩

end Records

/-! ## Steps that can be refused -/

section Refused

variable (exec : σ → ι → Option σ)

/-- A refused input changes nothing. -/
def attempt (s : σ) (i : ι) : σ := (exec s i).getD s

/-- The inputs of a run that are not refused. -/
def accepted : σ → List ι → List ι
  | _, [] => []
  | s, i :: is =>
    (if (exec s i).isSome then [i] else []) ++ accepted (attempt exec s i) is

theorem accepted_append (s : σ) (inputs : List ι) (i : ι) :
    accepted exec s (inputs ++ [i]) = accepted exec s inputs ++
      if (exec (inputs.foldl (attempt exec) s) i).isSome then [i] else [] := by
  induction inputs generalizing s with
  | nil => exact List.append_nil _
  | cons j inputs ih =>
    rw [List.cons_append, accepted, ih, accepted, List.append_assoc]
    rfl

end Refused

/-! ## States of a run -/

/-- Every state of the run has `P`, the first and the last one included. -/
def Always (step : σ → ι → σ) (P : σ → Prop) : σ → List ι → Prop
  | s, [] => P s
  | s, i :: is => P s ∧ Always step P (step s i) is

/-- An invariant that every step keeps holds in every state of a run. -/
theorem always_of_step {step : σ → ι → σ} {Inv : σ → Prop}
    (hstep : ∀ s i, Inv s → Inv (step s i)) (inputs : List ι) {s : σ} (hs : Inv s) :
    Always step Inv s inputs := by
  induction inputs generalizing s with
  | nil => exact hs
  | cons i is ih => exact ⟨hs, ih (hstep s i hs)⟩

theorem Always.head {step : σ → ι → σ} {P : σ → Prop} {s : σ} {inputs : List ι}
    (h : Always step P s inputs) : P s := by
  cases inputs with
  | nil => exact h
  | cons i is => exact h.1

theorem Always.last {step : σ → ι → σ} {P : σ → Prop} {s : σ} {inputs : List ι}
    (h : Always step P s inputs) : P (inputs.foldl step s) := by
  induction inputs generalizing s with
  | nil => exact h
  | cons i is ih => exact ih h.2

/-- Where the invariant holds, the condition on a step is what keeps it, and
the property of the next state needs the condition. -/
theorem always_iff_along {step : σ → ι → σ} {C : σ → ι → Prop} {P Inv : σ → Prop}
    (hsound : ∀ s, Inv s → P s) (hstep : ∀ s i, Inv s → C s i → Inv (step s i))
    (hneeded : ∀ s i, Inv s → P (step s i) → C s i) :
    ∀ (inputs : List ι) (s : σ), Inv s →
      (Always step P s inputs ↔ Along step C s inputs) := by
  intro inputs
  induction inputs with
  | nil => exact fun s hs => iff_of_true (hsound s hs) trivial
  | cons i is ih =>
    intro s hs
    constructor
    · intro h
      have hcond := hneeded s i hs h.2.head
      exact ⟨hcond, (ih _ (hstep s i hs hcond)).1 h.2⟩
    · intro h
      exact ⟨hsound s hs, (ih _ (hstep s i hs h.1)).2 h.2⟩

/-! ## Steps that make progress -/

/-- How many inputs of the run make progress. -/
def progress (step : σ → ι → σ) (E : σ → ι → Bool) : σ → List ι → Nat
  | _, [] => 0
  | s, i :: is => (if E s i then 1 else 0) + progress step E (step s i) is

/-- The rule for runs that come to an end: a potential that no step raises, and that
every step lowers that makes progress, bounds how many of these there are. -/
theorem progress_add_le {step : σ → ι → σ} {P : σ → ι → Prop} {E : σ → ι → Bool} {Inv : σ → Prop}
    (potential : σ → Nat) (hstep : ∀ s i, Inv s → P s i → Inv (step s i))
    (hlower : ∀ s i, Inv s → P s i →
      (if E s i then 1 else 0) + potential (step s i) ≤ potential s) :
    ∀ (inputs : List ι) (s : σ), Along step P s inputs → Inv s →
      progress step E s inputs + potential (inputs.foldl step s) ≤ potential s := by
  intro inputs
  induction inputs with
  | nil => exact fun s _ _ => Nat.le_of_eq (Nat.zero_add _)
  | cons i is ih =>
    intro s halong hs
    have hhead := hlower s i hs halong.1
    have htail := ih (step s i) halong.2 (hstep s i hs halong.1)
    rw [progress, List.foldl_cons]
    omega

end Runs
