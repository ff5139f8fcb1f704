import Mathlib.Order.Basic

/-!
# Loops

`DoWhile body again s t` is a finished run of `do { body } while (again)`: it
starts in `s`, no iteration fails, and it leaves the state `t`.  A loop that
does not end, or that fails, has no such run.

`DoWhile.exists_of_decreasing` is the rule of total correctness: one iteration
keeps the invariant and lowers the measure, or it leaves the loop.

`Loop body s r` is a finished run of `loop { body }`, whose body decides by itself
whether the loop goes on.  `loop_of_inl` and `loop_of_inr` unfold one iteration.
-/

namespace Loops

universe u v

variable {σ : Type u}

/-- A run of the loop from its first state to its last one. -/
inductive DoWhile (body : σ → Option σ) (again : σ → Prop) : σ → σ → Prop where
  | leave {s t : σ} : body s = some t → ¬ again t → DoWhile body again s t
  | iterate {s s' t : σ} : body s = some s' → again s' → DoWhile body again s' t →
      DoWhile body again s t

namespace DoWhile

variable {body : σ → Option σ} {again : σ → Prop}

/-- The state that a loop leaves depends on its first state only. -/
theorem unique {s t t' : σ} (h : DoWhile body again s t) (h' : DoWhile body again s t') :
    t = t' := by
  induction h with
  | leave hbody hleave =>
    cases h' with
    | leave hbody' _ =>
      rw [hbody] at hbody'
      exact Option.some.inj hbody'
    | iterate hbody' hagain' _ =>
      rw [hbody] at hbody'
      rw [← Option.some.inj hbody'] at hagain'
      exact absurd hagain' hleave
  | iterate hbody hagain _ ih =>
    cases h' with
    | leave hbody' hleave' =>
      rw [hbody] at hbody'
      rw [← Option.some.inj hbody'] at hleave'
      exact absurd hagain hleave'
    | iterate hbody' _ hrest' =>
      rw [hbody] at hbody'
      apply ih
      rw [Option.some.inj hbody']
      exact hrest'

/-- The rule of total correctness. -/
theorem exists_of_decreasing (Inv Post : σ → Prop) (measure : σ → Nat)
    (hbody : ∀ s, Inv s → ∃ s', body s = some s' ∧
      (again s' → Inv s' ∧ measure s' < measure s) ∧ (¬ again s' → Post s'))
    {s : σ} (hs : Inv s) : ∃ t, DoWhile body again s t ∧ Post t := by
  induction hm : measure s using Nat.strongRecOn generalizing s with
  | ind m ih =>
    obtain ⟨s', hbody', hagain, hleave⟩ := hbody s hs
    by_cases h : again s'
    · obtain ⟨hs', hlt⟩ := hagain h
      obtain ⟨t, hrun, hpost⟩ := ih (measure s') (by omega) hs' rfl
      exact ⟨t, .iterate hbody' h hrun, hpost⟩
    · exact ⟨s', .leave hbody' h, hleave h⟩

end DoWhile

variable {ρ : Type v}

/-- A run from the first state of the loop to the value that it is left with. -/
inductive Loop (body : σ → σ ⊕ ρ) : σ → ρ → Prop where
  | leave {s : σ} {r : ρ} : body s = .inr r → Loop body s r
  | iterate {s s' : σ} {r : ρ} : body s = .inl s' → Loop body s' r → Loop body s r

theorem loop_of_inr {body : σ → σ ⊕ ρ} {s : σ} {r r' : ρ} (h : body s = .inr r) :
    Loop body s r' ↔ r' = r := by
  constructor
  · intro hrun
    cases hrun with
    | leave hleave => exact Sum.inr.inj (hleave.symm.trans h)
    | iterate hiterate _ => cases hiterate.symm.trans h
  · rintro rfl
    exact .leave h

theorem loop_of_inl {body : σ → σ ⊕ ρ} {s s' : σ} {r : ρ} (h : body s = .inl s') :
    Loop body s r ↔ Loop body s' r := by
  constructor
  · intro hrun
    cases hrun with
    | leave hleave => cases hleave.symm.trans h
    | iterate hiterate hrest => exact Sum.inl.inj (hiterate.symm.trans h) ▸ hrest
  · exact .iterate h

end Loops
