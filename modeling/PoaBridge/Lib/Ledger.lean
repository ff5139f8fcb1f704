import Mathlib.Algebra.BigOperators.Group.Finset.Piecewise
import Mathlib.Algebra.BigOperators.Group.Finset.Basic
import Mathlib.Algebra.Order.Ring.Nat
import Mathlib.Data.Fintype.Basic

/-!
# Ledgers

A ledger gives every account an amount.  `credit` and `debit` change one
account, `transfer` moves an amount from one account to another, and `total` is
the sum over all accounts.

The second part is about a custodian: an account that takes amounts in custody
and releases them again.  `Action` are the four ways to change such a ledger.
What the custodian holds never falls behind the balance of what it has taken and
released (`run_backed`), as long as it does not spend anything otherwise.
-/

namespace Ledger

universe u

variable {α : Type u} [DecidableEq α]

/-! ## Accounts -/

def credit (balance : α → ℕ) (target : α) (amount : ℕ) : α → ℕ :=
  Function.update balance target (balance target + amount)

def debit (balance : α → ℕ) (source : α) (amount : ℕ) : α → ℕ :=
  Function.update balance source (balance source - amount)

/-- The amount leaves the source before it reaches the target. -/
def transfer (balance : α → ℕ) (source target : α) (amount : ℕ) : α → ℕ :=
  credit (debit balance source amount) target amount

@[simp] theorem credit_self (balance : α → ℕ) (target : α) (amount : ℕ) :
    credit balance target amount target = balance target + amount :=
  Function.update_self ..

@[simp] theorem debit_self (balance : α → ℕ) (source : α) (amount : ℕ) :
    debit balance source amount source = balance source - amount :=
  Function.update_self ..

theorem credit_of_ne {balance : α → ℕ} {target a : α} (amount : ℕ) (h : a ≠ target) :
    credit balance target amount a = balance a :=
  Function.update_of_ne h ..

theorem debit_of_ne {balance : α → ℕ} {source a : α} (amount : ℕ) (h : a ≠ source) :
    debit balance source amount a = balance a :=
  Function.update_of_ne h ..

theorem transfer_target {balance : α → ℕ} {source target : α} (amount : ℕ)
    (h : target ≠ source) :
    transfer balance source target amount target = balance target + amount := by
  rw [transfer, credit_self, debit_of_ne _ h]

theorem transfer_source {balance : α → ℕ} {source target : α} (amount : ℕ)
    (h : source ≠ target) :
    transfer balance source target amount source = balance source - amount := by
  rw [transfer, credit_of_ne _ h, debit_self]

theorem transfer_of_ne {balance : α → ℕ} {source target a : α} (amount : ℕ) (h : a ≠ source)
    (h' : a ≠ target) : transfer balance source target amount a = balance a := by
  rw [transfer, credit_of_ne _ h', debit_of_ne _ h]

theorem transfer_zero {balance : α → ℕ} {source target : α} :
    transfer balance source target 0 = balance := by
  rw [transfer, debit, Nat.sub_zero, Function.update_eq_self, credit, Nat.add_zero,
    Function.update_eq_self]

/-- A transfer to the source itself changes nothing. -/
theorem transfer_self {balance : α → ℕ} {a : α} {amount : ℕ} (h : amount ≤ balance a) :
    transfer balance a a amount = balance := by
  rw [transfer, credit, debit_self, Nat.sub_add_cancel h, debit, Function.update_idem,
    Function.update_eq_self]

/-- The target may get the amount before it leaves the source. -/
theorem debit_credit_of_ne {balance : α → ℕ} {source target : α} (amount : ℕ)
    (h : source ≠ target) :
    debit (credit balance target amount) source amount = transfer balance source target amount := by
  unfold transfer debit credit
  rw [Function.update_of_ne h, Function.update_of_ne (Ne.symm h), Function.update_comm h]

/-- In that order a transfer to the source itself needs no cover. -/
theorem debit_credit_self {balance : α → ℕ} {a : α} (amount : ℕ) :
    debit (credit balance a amount) a amount = balance := by
  rw [debit, credit_self, Nat.add_sub_cancel, credit, Function.update_idem,
    Function.update_eq_self]

/-- Only the source loses something. -/
theorem le_transfer {balance : α → ℕ} {source target a : α} (amount : ℕ) (h : a ≠ source) :
    balance a ≤ transfer balance source target amount a := by
  by_cases ha : a = target
  · subst ha
    rw [transfer_target _ h]
    omega
  · rw [transfer_of_ne _ h ha]

section Total

variable [Fintype α]

/-- The sum of all accounts. -/
def total (balance : α → ℕ) : ℕ := ∑ a, balance a

omit [DecidableEq α] in
theorem total_zero : total (fun _ : α => 0) = 0 := Finset.sum_const_zero

theorem total_update (balance : α → ℕ) (a : α) (amount : ℕ) :
    total (Function.update balance a amount) + balance a = total balance + amount := by
  unfold total
  have hsplit := Finset.add_sum_erase Finset.univ balance (Finset.mem_univ a)
  rw [Finset.sum_update_of_mem (Finset.mem_univ a), Finset.sdiff_singleton_eq_erase]
  omega

theorem le_total (balance : α → ℕ) (a : α) : balance a ≤ total balance := by
  have hsplit := Finset.add_sum_erase Finset.univ balance (Finset.mem_univ a)
  unfold total
  omega

theorem total_credit (balance : α → ℕ) (target : α) (amount : ℕ) :
    total (credit balance target amount) = total balance + amount := by
  have hupdate := total_update balance target (balance target + amount)
  unfold credit
  omega

theorem total_debit {balance : α → ℕ} {source : α} {amount : ℕ} (h : amount ≤ balance source) :
    total (debit balance source amount) + amount = total balance := by
  have hupdate := total_update balance source (balance source - amount)
  unfold debit
  omega

theorem total_transfer {balance : α → ℕ} {source : α} (target : α) {amount : ℕ}
    (h : amount ≤ balance source) :
    total (transfer balance source target amount) = total balance := by
  rw [transfer, total_credit, total_debit h]

end Total

/-! ## A custodian -/

/-- A ledger and its supply. -/
structure State (α : Type u) where
  balance : α → ℕ
  supply : ℕ

inductive Action (α : Type u) where
  /-- An account other than the custodian spends. -/
  | move (source target : α) (amount : ℕ)
  | mint (target : α) (amount : ℕ)
  /-- The custodian takes an amount of another account. -/
  | lock (source : α) (amount : ℕ)
  /-- The custodian spends. -/
  | release (target : α) (amount : ℕ)
deriving DecidableEq

/-- What an action puts in custody. -/
def Action.lock? : Action α → Option (α × ℕ)
  | .lock source amount => some (source, amount)
  | _ => none

/-- What an action releases. -/
def Action.release? : Action α → Option (α × ℕ)
  | .release target amount => some (target, amount)
  | _ => none

def locks (actions : List (Action α)) : List (α × ℕ) := actions.filterMap Action.lock?

def releases (actions : List (Action α)) : List (α × ℕ) := actions.filterMap Action.release?

/-- The sum of the amounts. -/
def amounts (entries : List (α × ℕ)) : ℕ := (entries.map Prod.snd).sum

/-- An action that is not covered, or that spends for the custodian without
releasing, is refused. -/
def apply (custodian : α) (s : State α) : Action α → Option (State α)
  | .move source target amount =>
    if source ≠ custodian ∧ amount ≤ s.balance source then
      some { s with balance := transfer s.balance source target amount }
    else none
  | .mint target amount =>
    some ⟨credit s.balance target amount, s.supply + amount⟩
  | .lock source amount =>
    if source ≠ custodian ∧ amount ≤ s.balance source then
      some { s with balance := transfer s.balance source custodian amount }
    else none
  | .release target amount =>
    if amount ≤ s.balance custodian then
      some { s with balance := transfer s.balance custodian target amount }
    else none

theorem apply_move {custodian source target : α} {s : State α} {amount : ℕ}
    (hsource : source ≠ custodian) (hcovered : amount ≤ s.balance source) :
    apply custodian s (.move source target amount)
      = some { s with balance := transfer s.balance source target amount } :=
  if_pos ⟨hsource, hcovered⟩

theorem apply_lock {custodian source : α} {s : State α} {amount : ℕ}
    (hsource : source ≠ custodian) (hcovered : amount ≤ s.balance source) :
    apply custodian s (.lock source amount)
      = some { s with balance := transfer s.balance source custodian amount } :=
  if_pos ⟨hsource, hcovered⟩

theorem apply_release {custodian target : α} {s : State α} {amount : ℕ}
    (hcovered : amount ≤ s.balance custodian) :
    apply custodian s (.release target amount)
      = some { s with balance := transfer s.balance custodian target amount } :=
  if_pos hcovered

/-- A list of actions, none of which is refused. -/
def run (custodian : α) (s : State α) (actions : List (Action α)) : Option (State α) :=
  actions.foldlM (apply custodian) s

omit [DecidableEq α] in
theorem locks_append (before after : List (Action α)) :
    locks (before ++ after) = locks before ++ locks after :=
  List.filterMap_append ..

omit [DecidableEq α] in
theorem releases_append (before after : List (Action α)) :
    releases (before ++ after) = releases before ++ releases after :=
  List.filterMap_append ..

theorem run_append {custodian : α} {s t u : State α} {before after : List (Action α)}
    (h : run custodian s before = some t) (h' : run custodian t after = some u) :
    run custodian s (before ++ after) = some u := by
  unfold run at h h' ⊢
  rw [List.foldlM_append, h]
  exact h'

theorem run_singleton {custodian : α} {s t : State α} {action : Action α}
    (h : apply custodian s action = some t) : run custodian s [action] = some t := by
  show (apply custodian s action >>= fun s => run custodian s []) = some t
  rw [h]
  rfl

section Custodian

variable {custodian : α} {s s' : State α}

theorem apply_backed {action : Action α} (h : apply custodian s action = some s') :
    s.balance custodian + amounts action.lock?.toList
      ≤ s'.balance custodian + amounts action.release?.toList := by
  cases action with
  | move source target amount =>
    rw [apply] at h
    split at h
    · rename_i hcovered
      rw [← Option.some.inj h]
      exact le_transfer amount (Ne.symm hcovered.1)
    · cases h
  | mint target amount =>
    rw [← Option.some.inj h]
    show s.balance custodian ≤ credit s.balance target amount custodian
    by_cases heq : custodian = target
    · rw [heq, credit_self]
      omega
    · rw [credit_of_ne _ heq]
  | lock source amount =>
    rw [apply] at h
    split at h
    · rename_i hcovered
      rw [← Option.some.inj h]
      show _ ≤ transfer s.balance source custodian amount custodian
      exact (transfer_target amount (Ne.symm hcovered.1)).ge
    · cases h
  | release target amount =>
    rw [apply] at h
    split at h
    · rename_i hcovered
      rw [← Option.some.inj h]
      show s.balance custodian ≤ transfer s.balance custodian target amount custodian + amount
      by_cases heq : custodian = target
      · rw [← heq, transfer_self hcovered]
        omega
      · rw [transfer_source _ heq]
        omega
    · cases h

/-- What the custodian holds at the end covers what it held at the start and
what it has taken, up to what it has released. -/
theorem run_backed {actions : List (Action α)} (h : run custodian s actions = some s') :
    s.balance custodian + amounts (locks actions)
      ≤ s'.balance custodian + amounts (releases actions) := by
  induction actions generalizing s with
  | nil =>
    rw [← Option.some.inj h]
    exact Nat.le_refl _
  | cons action actions ih =>
    obtain ⟨t, haction, hrest⟩ := Option.bind_eq_some_iff.1 h
    have hfirst := apply_backed haction
    have hothers := ih hrest
    have hsplit : ∀ f : Action α → Option (α × ℕ), amounts ((action :: actions).filterMap f)
        = amounts (f action).toList + amounts (actions.filterMap f) := by
      intro f
      cases hf : f action <;> simp [amounts, hf]
    rw [locks, releases, hsplit, hsplit]
    unfold locks releases at hothers
    omega

variable [Fintype α]

theorem apply_total {action : Action α} (h : apply custodian s action = some s')
    (htotal : total s.balance = s.supply) : total s'.balance = s'.supply := by
  cases action with
  | mint target amount =>
    rw [← Option.some.inj h]
    show total (credit s.balance target amount) = s.supply + amount
    rw [total_credit, htotal]
  | move source target amount | lock source amount | release target amount =>
    rw [apply] at h
    split at h
    · rw [← Option.some.inj h]
      refine (total_transfer _ ?_).trans htotal
      omega
    · cases h

/-- The supply stays the sum of all accounts. -/
theorem run_total {actions : List (Action α)} (h : run custodian s actions = some s')
    (htotal : total s.balance = s.supply) : total s'.balance = s'.supply := by
  induction actions generalizing s with
  | nil =>
    rw [← Option.some.inj h]
    exact htotal
  | cons action actions ih =>
    obtain ⟨t, haction, hrest⟩ := Option.bind_eq_some_iff.1 h
    exact ih hrest (apply_total haction htotal)

end Custodian

end Ledger
