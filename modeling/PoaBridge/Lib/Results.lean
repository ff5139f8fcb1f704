import Mathlib.Data.List.Forall2

/-!
# Fallible computations

How a computation in `Except` that returned a value got there, and how the values
of its loops belong to the elements.
-/

namespace Results

universe u v

variable {ε : Type v} {α β γ : Type u}

/-- The second part of a computation that succeeded ran on the value of the
first. -/
theorem exists_of_bind_eq_ok {x : Except ε α} {f : α → Except ε β} {b : β}
    (h : (x >>= f) = .ok b) : ∃ a, x = .ok a ∧ f a = .ok b := by
  cases x with
  | error e => cases h
  | ok a => exact ⟨a, rfl, h⟩

theorem exists_bind_eq_ok_iff {x : Except ε α} {f : α → Except ε β} :
    (∃ b, (x >>= f) = .ok b) ↔ ∃ a, x = .ok a ∧ ∃ b, f a = .ok b := by
  constructor
  · intro h
    obtain ⟨b, h⟩ := h
    obtain ⟨a, hx, hf⟩ := exists_of_bind_eq_ok h
    exact ⟨a, hx, b, hf⟩
  · intro h
    obtain ⟨a, rfl, b, hf⟩ := h
    exact ⟨b, hf⟩

/-- A loop over a list that succeeded has a value for every element, in
order. -/
theorem forall₂_of_mapM_eq_ok {f : α → Except ε β} {xs : List α} {ys : List β}
    (h : xs.mapM f = .ok ys) : List.Forall₂ (fun x y => f x = .ok y) xs ys := by
  induction xs generalizing ys with
  | nil =>
    cases h
    exact .nil
  | cons x xs ih =>
    rw [List.mapM_cons] at h
    obtain ⟨y, hy, h⟩ := exists_of_bind_eq_ok h
    obtain ⟨ys', hys, h⟩ := exists_of_bind_eq_ok h
    cases h
    exact .cons hy (ih hys)

/-- A loop succeeds when its body does for every element. -/
theorem exists_mapM_eq_ok {f : α → Except ε β} {xs : List α}
    (h : ∀ x ∈ xs, ∃ y, f x = .ok y) : ∃ ys, xs.mapM f = .ok ys := by
  induction xs with
  | nil => exact ⟨[], rfl⟩
  | cons x xs ih =>
    obtain ⟨y, hy⟩ := h x (List.mem_cons_self ..)
    obtain ⟨ys, hys⟩ := ih fun x hx => h x (List.mem_cons_of_mem _ hx)
    exact ⟨y :: ys, by rw [List.mapM_cons, hy, hys]; rfl⟩

/-- What the body of the loop keeps of its element, the loop keeps of the list. -/
theorem map_eq_of_mapM_eq_ok {f : α → Except ε β} {g : β → γ} {k : α → γ} {xs : List α}
    {ys : List β} (h : xs.mapM f = .ok ys) (hkeep : ∀ x y, f x = .ok y → g y = k x) :
    ys.map g = xs.map k := by
  have hall := forall₂_of_mapM_eq_ok h
  clear h
  induction hall with
  | nil => rfl
  | cons hy _ ih => rw [List.map_cons, List.map_cons, hkeep _ _ hy, ih]

theorem exists_mem_of_forall₂ {R : α → β → Prop} {xs : List α} {ys : List β}
    (h : List.Forall₂ R xs ys) {y : β} (hy : y ∈ ys) : ∃ x ∈ xs, R x y := by
  induction h with
  | nil => cases hy
  | @cons x y' xs ys' hx _ ih =>
    rcases List.mem_cons.1 hy with rfl | hy
    · exact ⟨x, by simp, hx⟩
    · obtain ⟨x', hmem, hx'⟩ := ih hy
      exact ⟨x', by simp [hmem], hx'⟩

/-- Every value of the loop comes from an element. -/
theorem exists_mem_of_mapM_eq_ok {f : α → Except ε β} {xs : List α} {ys : List β}
    (h : xs.mapM f = .ok ys) {y : β} (hy : y ∈ ys) : ∃ x ∈ xs, f x = .ok y :=
  exists_mem_of_forall₂ (forall₂_of_mapM_eq_ok h) hy

/-- A loop fails with the error of the first element whose body fails. -/
theorem mapM_eq_error_iff {f : α → Except ε β} {xs : List α} {e : ε} :
    xs.mapM f = .error e ↔ ∃ before x after, xs = before ++ x :: after ∧
      (∀ y ∈ before, ∃ b, f y = .ok b) ∧ f x = .error e := by
  induction xs with
  | nil =>
    constructor
    · intro h
      cases h
    · intro h
      obtain ⟨before, x, after, heq, -⟩ := h
      simp at heq
  | cons x xs ih =>
    rw [List.mapM_cons]
    constructor
    · intro h
      cases hx : f x with
      | error e' =>
        rw [hx] at h
        cases h
        exact ⟨[], x, xs, rfl, by simp, hx⟩
      | ok b =>
        rw [hx] at h
        cases hxs : xs.mapM f with
        | ok ys =>
          rw [hxs] at h
          cases h
        | error e' =>
          rw [hxs] at h
          cases h
          obtain ⟨before, y, after, rfl, hbefore, hy⟩ := ih.1 hxs
          refine ⟨x :: before, y, after, rfl, ?_, hy⟩
          intro z hz
          rcases List.mem_cons.1 hz with rfl | hz
          · exact ⟨b, hx⟩
          · exact hbefore z hz
    · intro h
      obtain ⟨before, y, after, heq, hbefore, hy⟩ := h
      cases before with
      | nil =>
        cases heq
        rw [hy]
        rfl
      | cons z before =>
        rw [List.cons_append] at heq
        obtain ⟨rfl, rfl⟩ := List.cons.inj heq
        obtain ⟨b, hb⟩ := hbefore x (by simp)
        have hrest : (before ++ y :: after).mapM f = .error e :=
          ih.2 ⟨before, y, after, rfl, fun z hz => hbefore z (by simp [hz]), hy⟩
        rw [hb, hrest]
        rfl

/-- A function of the values can be applied inside the loop. -/
theorem map_mapM (f : α → Except ε β) (g : β → γ) (xs : List α) :
    (xs.mapM f).map (List.map g) = xs.mapM fun x => (f x).map g := by
  induction xs with
  | nil => rfl
  | cons x xs ih =>
    rw [List.mapM_cons, List.mapM_cons, ← ih]
    cases f x with
    | error e => rfl
    | ok b => cases xs.mapM f <;> rfl

/-! ## Two loops, one after the other or side by side -/

theorem forall₂_comp {R : α → β → Prop} {S : β → γ → Prop} {xs : List α} {ys : List β}
    {zs : List γ} (h : List.Forall₂ R xs ys) (h' : List.Forall₂ S ys zs) :
    List.Forall₂ (fun x z => ∃ y, R x y ∧ S y z) xs zs := by
  induction h generalizing zs with
  | nil =>
    cases h'
    exact .nil
  | cons hR _ ih =>
    cases h' with
    | cons hS hrest => exact .cons ⟨_, hR, hS⟩ (ih hrest)

theorem forall₂_zip_right {R : α → β → Prop} {S : α → γ → Prop} {xs : List α} {ys : List β}
    {zs : List γ} (h : List.Forall₂ R xs ys) (h' : List.Forall₂ S xs zs) :
    List.Forall₂ (fun x p => R x p.1 ∧ S x p.2) xs (ys.zip zs) := by
  induction h generalizing zs with
  | nil =>
    cases h'
    exact .nil
  | cons hR _ ih =>
    cases h' with
    | cons hS hrest => exact .cons ⟨hR, hS⟩ (ih hrest)

end Results
