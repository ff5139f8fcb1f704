import Mathlib.Data.Nat.Basic
import Mathlib.Data.List.Basic
import Mathlib.Data.List.Induction
import Mathlib.Tactic.Ring

/-!
# Decimal numbers in byte strings

`digits n` are the ASCII bytes of the decimal digits of `n`, without leading
zeros, and `value` is the number that a string of digits denotes.
`value_digits` and `digits_value` are the two round trips.

A string of digits that is part of another one denotes at most the same number,
also when the parts are not next to each other: this is `value_le_of_sublist`.
-/

namespace Decimal

/-- The decimal digits of a number in ASCII. -/
def digits (n : Nat) : List UInt8 :=
  (Nat.toDigits 10 n).map fun c => UInt8.ofNat c.toNat

/-- The number that a string of digits denotes. -/
def value (ds : List UInt8) : Nat :=
  ds.foldl (fun sofar d => 10 * sofar + (d.toNat - 48)) 0

theorem digitChar_toNat {d : Nat} (h : d < 10) : d.digitChar.toNat = 48 + d :=
  (by decide : ∀ d < 10, d.digitChar.toNat = 48 + d) d h

theorem digits_of_lt {n : Nat} (h : n < 10) : digits n = [UInt8.ofNat (48 + n)] := by
  rw [digits, Nat.toDigits_of_lt_base h, List.map_singleton, digitChar_toNat h]

theorem digits_of_le {n : Nat} (h : 10 ≤ n) :
    digits n = digits (n / 10) ++ [UInt8.ofNat (48 + n % 10)] := by
  rw [digits, Nat.toDigits_of_base_le (by decide) h, List.map_append, List.map_singleton,
    digitChar_toNat (Nat.mod_lt n (by decide)), digits]

theorem length_digits_pos (n : Nat) : 0 < (digits n).length := by
  rw [digits, List.length_map]
  exact Nat.length_toDigits_pos

theorem length_digits_le_iff {n k : Nat} (h : 0 < k) : (digits n).length ≤ k ↔ n < 10 ^ k := by
  rw [digits, List.length_map]
  exact Nat.length_toDigits_le_iff (by decide) h

theorem value_append_singleton (ds : List UInt8) (d : UInt8) :
    value (ds ++ [d]) = 10 * value ds + (d.toNat - 48) := by
  simp [value]

theorem toNat_digit {d : Nat} (h : d < 10) : (UInt8.ofNat (48 + d)).toNat = 48 + d := by
  rw [UInt8.toNat_ofNat', Nat.mod_eq_of_lt (by omega)]

/-- The digits of a number denote it. -/
theorem value_digits (n : Nat) : value (digits n) = n := by
  induction n using Nat.strongRecOn with
  | ind n ih =>
    rcases Nat.lt_or_ge n 10 with hlt | hge
    · rw [digits_of_lt hlt, ← List.nil_append [UInt8.ofNat (48 + n)], value_append_singleton,
        toNat_digit hlt]
      simp [value]
    · rw [digits_of_le hge, value_append_singleton, ih (n / 10) (by omega),
        toNat_digit (Nat.mod_lt n (by decide))]
      omega

theorem digits_injective : Function.Injective digits := fun m n h => by
  rw [← value_digits m, h, value_digits]

/-! ## Strings of digits -/

/-- The byte is the ASCII code of a decimal digit. -/
def IsDigit (b : UInt8) : Prop := 48 ≤ b.toNat ∧ b.toNat ≤ 57

instance (b : UInt8) : Decidable (IsDigit b) := inferInstanceAs (Decidable (_ ∧ _))

theorem isDigit_ofNat {d : Nat} (h : d < 10) : IsDigit (UInt8.ofNat (48 + d)) := by
  rw [IsDigit, toNat_digit h]
  omega

theorem isDigit_of_mem_digits {n : Nat} : ∀ b ∈ digits n, IsDigit b := by
  induction n using Nat.strongRecOn with
  | ind n ih =>
    intro b hb
    rcases Nat.lt_or_ge n 10 with hlt | hge
    · rw [digits_of_lt hlt, List.mem_singleton] at hb
      exact hb ▸ isDigit_ofNat hlt
    · rw [digits_of_le hge, List.mem_append, List.mem_singleton] at hb
      rcases hb with hb | hb
      · exact ih (n / 10) (by omega) b hb
      · exact hb ▸ isDigit_ofNat (Nat.mod_lt n (by decide))

theorem value_append (xs ys : List UInt8) :
    value (xs ++ ys) = value xs * 10 ^ ys.length + value ys := by
  induction ys using List.reverseRecOn with
  | nil => simp [value]
  | append_singleton ys d ih =>
    rw [← List.append_assoc, value_append_singleton, value_append_singleton, ih,
      List.length_append, List.length_singleton, pow_succ]
    ring

theorem value_cons (d : UInt8) (ds : List UInt8) :
    value (d :: ds) = (d.toNat - 48) * 10 ^ ds.length + value ds := by
  rw [← List.singleton_append, value_append]
  simp [value]

theorem value_lt {ds : List UInt8} (h : ∀ d ∈ ds, IsDigit d) : value ds < 10 ^ ds.length := by
  induction ds with
  | nil => exact Nat.one_pos
  | cons d ds ih =>
    obtain ⟨hd, hds⟩ := List.forall_mem_cons.1 h
    have hdigit : d.toNat - 48 + 1 ≤ 10 := by
      have := hd.2
      omega
    calc value (d :: ds)
        = (d.toNat - 48) * 10 ^ ds.length + value ds := value_cons d ds
      _ < (d.toNat - 48) * 10 ^ ds.length + 10 ^ ds.length := by
          exact Nat.add_lt_add_left (ih hds) _
      _ = (d.toNat - 48 + 1) * 10 ^ ds.length := by ring
      _ ≤ 10 * 10 ^ ds.length := Nat.mul_le_mul_right _ hdigit
      _ = 10 ^ (d :: ds).length := by rw [List.length_cons, pow_succ]; ring

/-- Deleting digits does not make a number greater. -/
theorem value_le_of_sublist {xs ys : List UInt8} (h : xs.Sublist ys) : value xs ≤ value ys := by
  induction h with
  | slnil => exact Nat.le_refl _
  | cons d _ ih =>
    rw [value_cons]
    exact ih.trans (Nat.le_add_left _ _)
  | cons_cons d hsub ih =>
    rw [value_cons, value_cons]
    exact Nat.add_le_add
      (Nat.mul_le_mul_left _ (Nat.pow_le_pow_right (by decide) hsub.length_le)) ih

/-- Two strings of digits with the same length and a common beginning. -/
theorem value_append_le_iff {xs ys zs : List UInt8} (h : ys.length = zs.length) :
    value (xs ++ ys) ≤ value (xs ++ zs) ↔ value ys ≤ value zs := by
  rw [value_append, value_append, h]
  exact Nat.add_le_add_iff_left

/-- A number does not begin with a zero, unless it is zero. -/
theorem head_digits_ne {n : Nat} (h : n ≠ 0) : (digits n).head? ≠ some 48 := by
  induction n using Nat.strongRecOn with
  | ind n ih =>
    rcases Nat.lt_or_ge n 10 with hlt | hge
    · rw [digits_of_lt hlt, List.head?_cons]
      intro heq
      have hbyte := congrArg UInt8.toNat (Option.some.inj heq)
      rw [toNat_digit hlt] at hbyte
      exact h (by simpa using hbyte)
    · have hne : digits (n / 10) ≠ [] :=
        List.length_pos_iff.1 (length_digits_pos (n / 10))
      rw [digits_of_le hge, List.head?_append_of_ne_nil _ hne]
      exact ih (n / 10) (by omega) (by omega)

/-- The text of a number: its digits, and no zero in front of another digit. -/
structure Canonical (n : Nat) (ds : List UInt8) : Prop where
  digits : ∀ d ∈ ds, IsDigit d
  value : value ds = n
  nonempty : ds ≠ []
  leading : ds.head? = some 48 → ds = [48]

theorem canonical_digits (n : Nat) : Canonical n (digits n) := by
  refine ⟨isDigit_of_mem_digits, value_digits n, ?_, fun hhead => ?_⟩
  · exact List.length_pos_iff.1 (length_digits_pos n)
  · by_cases hzero : n = 0
    · rw [hzero]
      rfl
    · exact absurd hhead (head_digits_ne hzero)

/-- A string of digits that does not begin with a zero are the digits of its
number. -/
theorem digits_value {ds : List UInt8} (h : ∀ d ∈ ds, IsDigit d) (hne : ds ≠ [])
    (hhead : ds.head? ≠ some 48) : digits (value ds) = ds := by
  induction ds using List.reverseRecOn with
  | nil => exact absurd rfl hne
  | append_singleton ds d ih =>
    obtain ⟨hlow, hhigh⟩ := h d (by simp)
    have hbyte : UInt8.ofNat (48 + (d.toNat - 48)) = d := by
      rw [Nat.add_sub_cancel' hlow]
      exact UInt8.ofNat_toNat
    rw [value_append_singleton]
    by_cases hnil : ds = []
    · rw [hnil, show value [] = 0 from rfl, Nat.mul_zero, Nat.zero_add,
        digits_of_lt (by omega), hbyte, List.nil_append]
    · rw [List.head?_append_of_ne_nil _ hnil] at hhead
      have hds := ih (fun d hd => h d (by simp [hd])) hnil hhead
      have hpos : value ds ≠ 0 := by
        intro hzero
        rw [hzero, digits_of_lt (by decide)] at hds
        exact hhead (by rw [← hds]; rfl)
      rw [digits_of_le (by omega), show (10 * value ds + (d.toNat - 48)) / 10 = value ds by omega,
        show (10 * value ds + (d.toNat - 48)) % 10 = d.toNat - 48 by omega, hds, hbyte]

theorem length_digits_mono {m n : Nat} (h : m ≤ n) : (digits m).length ≤ (digits n).length := by
  rw [length_digits_le_iff (length_digits_pos n)]
  exact h.trans_lt ((length_digits_le_iff (length_digits_pos n)).1 (Nat.le_refl _))

/-- A number is greater than all strings with fewer digits. -/
theorem value_le_of_length_lt {ds : List UInt8} {n : Nat} (h : ∀ d ∈ ds, IsDigit d)
    (hlength : ds.length < (digits n).length) : value ds ≤ n := by
  rcases Nat.eq_zero_or_pos ds.length with hzero | hpos
  · rw [List.length_eq_zero_iff.1 hzero]
    exact Nat.zero_le n
  · refine (value_lt h).le.trans (Nat.le_of_not_lt fun hlt => ?_)
    exact absurd ((length_digits_le_iff hpos).2 hlt) (Nat.not_le.2 hlength)

section Mixture

variable {m n : Nat} (k : Nat)

/-- The first digits of a number, and the others of another one. -/
def mixture (m n k : Nat) : List UInt8 := (digits n).take k ++ (digits m).drop k

theorem isDigit_of_mem_mixture : ∀ d ∈ mixture m n k, IsDigit d := by
  intro d hd
  rcases List.mem_append.1 hd with hd | hd
  · exact isDigit_of_mem_digits d (List.mem_of_mem_take hd)
  · exact isDigit_of_mem_digits d (List.mem_of_mem_drop hd)

/-- The mixture is written like a number. -/
theorem digits_value_mixture (h : m ≤ n) : digits (value (mixture m n k)) = mixture m n k := by
  rcases Nat.eq_zero_or_pos n with rfl | hpos
  · cases Nat.le_zero.1 h
    rw [mixture, List.take_append_drop, value_digits]
  · cases k with
    | zero => rw [mixture, List.take_zero, List.drop_zero, List.nil_append, value_digits]
    | succ k =>
      cases hdigits : digits n with
      | nil => exact absurd (length_digits_pos n) (by simp [hdigits])
      | cons d ds =>
        have hhead : (mixture m n (k + 1)).head? = (digits n).head? := by
          simp [mixture, hdigits]
        refine digits_value (isDigit_of_mem_mixture _) (by simp [mixture, hdigits]) ?_
        rw [hhead]
        exact head_digits_ne hpos.ne'

/-- With the same length, the mixture is greater exactly when the digits that
stay are greater. -/
theorem value_mixture_le_iff (h : (digits m).length = (digits n).length) :
    value (mixture m n k) ≤ n ↔ value ((digits m).drop k) ≤ value ((digits n).drop k) := by
  have hn : value ((digits n).take k ++ (digits n).drop k) = n := by
    rw [List.take_append_drop, value_digits]
  calc value (mixture m n k) ≤ n
      ↔ value (mixture m n k) ≤ value ((digits n).take k ++ (digits n).drop k) := by rw [hn]
    _ ↔ value ((digits m).drop k) ≤ value ((digits n).drop k) :=
        value_append_le_iff (by rw [List.length_drop, List.length_drop, h])

/-- With fewer digits, the mixture is not greater. -/
theorem value_mixture_le (h : (digits m).length < (digits n).length) {k : Nat}
    (hk : k ≤ (digits m).length) : value (mixture m n k) ≤ n := by
  refine value_le_of_length_lt (isDigit_of_mem_mixture k) ?_
  rw [mixture, List.length_append, List.length_take, List.length_drop]
  omega

end Mixture

end Decimal
