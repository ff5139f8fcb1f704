import Mathlib.Algebra.Order.BigOperators.Group.List
import Mathlib.Algebra.Order.Ring.Nat
import Mathlib.Data.List.Nodup
import Mathlib.Data.List.Perm.Subperm

/-!
# Exchanges

An exchange has two sides, and each side has a vault.  What is locked in the
vault of one side is a claim on the vault of the other side, and a claim is
released once.  A vault may also get something for nothing.

`Action` are the three ways to change an exchange.  An action that releases what
was not claimed, or what was released before, or what the vault does not hold, is
refused.

There are three results about runs.

* `run_backed` : what a side has released are distinct claims of the other side.
  `Backed.amounts_le` bounds the amounts by this, for every class of claims, for
  example those of one target.
* `run_books` : a vault changes by what its side locks, releases and is given.
* `run_surplus` : what the vaults hold together beyond what may still be released
  changes by the gifts only.

`run_of_backed` is for clients.  A transaction of one side that keeps its books is
a run of the exchange, in whatever order the transaction did its parts.
-/

namespace Exchange

universe u v

/-! ## The machine -/

inductive Side where
  | left
  | right
deriving DecidableEq, Repr

def Side.other : Side → Side
  | .left => .right
  | .right => .left

theorem Side.other_ne (side : Side) : side.other ≠ side := by
  cases side <;> decide

/-- An amount for a target.  The key tells claims apart that are otherwise the
same. -/
structure Claim (κ : Type u) (α : Type v) where
  key : κ
  target : α
  amount : ℕ
deriving DecidableEq, Repr

/-- One side: what its vault holds, what was locked in it, and what was released
from it. -/
structure Vault (κ : Type u) (α : Type v) where
  held : ℕ
  locked : List (Claim κ α)
  released : List (Claim κ α)

abbrev State (κ : Type u) (α : Type v) := Side → Vault κ α

inductive Action (κ : Type u) (α : Type v) where
  | gift (side : Side) (amount : ℕ)
  | lock (side : Side) (claim : Claim κ α)
  | release (side : Side) (claim : Claim κ α)

variable {κ : Type u} {α : Type v}

/-- The sum of the amounts. -/
def amounts (claims : List (Claim κ α)) : ℕ := (claims.map Claim.amount).sum

@[simp] theorem amounts_nil : amounts ([] : List (Claim κ α)) = 0 := rfl

@[simp] theorem amounts_cons (claim : Claim κ α) (claims : List (Claim κ α)) :
    amounts (claim :: claims) = claim.amount + amounts claims := rfl

@[simp] theorem amounts_append (before after : List (Claim κ α)) :
    amounts (before ++ after) = amounts before + amounts after := by
  unfold amounts
  rw [List.map_append, List.sum_append]

/-- What an action gives to a side. -/
def Action.given (side : Side) : Action κ α → ℕ
  | .gift side' amount => if side' = side then amount else 0
  | _ => 0

/-- What the actions give to a side. -/
def gifts (side : Side) (actions : List (Action κ α)) : ℕ :=
  (actions.map (Action.given side)).sum

variable [DecidableEq κ] [DecidableEq α]

/-- One action; `none` means that it is refused. -/
def apply (s : State κ α) : Action κ α → Option (State κ α)
  | .gift side amount =>
    some (Function.update s side { s side with held := (s side).held + amount })
  | .lock side claim =>
    some (Function.update s side { s side with
      held := (s side).held + claim.amount
      locked := (s side).locked ++ [claim] })
  | .release side claim =>
    if claim ∈ (s side.other).locked ∧ claim ∉ (s side).released ∧
        claim.amount ≤ (s side).held then
      some (Function.update s side { s side with
        held := (s side).held - claim.amount
        released := (s side).released ++ [claim] })
    else none

/-- A list of actions, none of which is refused. -/
def run (s : State κ α) (actions : List (Action κ α)) : Option (State κ α) :=
  actions.foldlM apply s

theorem run_append {s t u : State κ α} {before after : List (Action κ α)}
    (h : run s before = some t) (h' : run t after = some u) :
    run s (before ++ after) = some u := by
  unfold run at h h' ⊢
  rw [List.foldlM_append, h]
  exact h'

theorem run_cons {s t u : State κ α} {action : Action κ α} {actions : List (Action κ α)}
    (h : apply s action = some t) (h' : run t actions = some u) :
    run s (action :: actions) = some u := by
  unfold run at h' ⊢
  rw [List.foldlM_cons, h]
  exact h'

/-- What one action keeps, a run keeps. -/
theorem run_induction {P : State κ α → Prop}
    (hstep : ∀ s s' action, P s → apply s action = some s' → P s') {s s' : State κ α}
    {actions : List (Action κ α)} (hs : P s) (h : run s actions = some s') : P s' := by
  induction actions generalizing s with
  | nil =>
    rw [← Option.some.inj h]
    exact hs
  | cons action actions ih =>
    obtain ⟨t, haction, hrest⟩ := Option.bind_eq_some_iff.1 h
    exact ih (hstep s t action hs haction) hrest

/-- What a successful action did. -/
theorem apply_cases {s s' : State κ α} {action : Action κ α} (h : apply s action = some s') :
    (∃ side amount, action = .gift side amount ∧
      s' = Function.update s side { s side with held := (s side).held + amount }) ∨
    (∃ side claim, action = .lock side claim ∧
      s' = Function.update s side { s side with
        held := (s side).held + claim.amount
        locked := (s side).locked ++ [claim] }) ∨
    ∃ side claim, action = .release side claim ∧ claim ∈ (s side.other).locked ∧
      claim ∉ (s side).released ∧ claim.amount ≤ (s side).held ∧
      s' = Function.update s side { s side with
        held := (s side).held - claim.amount
        released := (s side).released ++ [claim] } := by
  cases action with
  | gift side amount => exact .inl ⟨side, amount, rfl, (Option.some.inj h).symm⟩
  | lock side claim => exact .inr (.inl ⟨side, claim, rfl, (Option.some.inj h).symm⟩)
  | release side claim =>
    rw [apply] at h
    split at h
    · rename_i hgood
      exact .inr (.inr ⟨side, claim, rfl, hgood.1, hgood.2.1, hgood.2.2,
        (Option.some.inj h).symm⟩)
    · cases h

/-! ## What is released is backed -/

/-- What a side has released are distinct claims of the other side. -/
structure Backed (s : State κ α) : Prop where
  claimed : ∀ side, ∀ claim ∈ (s side).released, claim ∈ (s side.other).locked
  once : ∀ side, (s side).released.Nodup

omit [DecidableEq κ] [DecidableEq α] in
/-- A change of one side that forgets no claim. -/
theorem Backed.update {s : State κ α} (h : Backed s) {side : Side} {vault : Vault κ α}
    (hlocked : ∀ claim ∈ (s side).locked, claim ∈ vault.locked)
    (hclaimed : ∀ claim ∈ vault.released, claim ∈ (s side.other).locked)
    (honce : vault.released.Nodup) : Backed (Function.update s side vault) := by
  constructor
  · intro side' claim hclaim
    by_cases heq : side' = side
    · subst heq
      rw [Function.update_self] at hclaim
      rw [Function.update_of_ne side'.other_ne]
      exact hclaimed claim hclaim
    · rw [Function.update_of_ne heq] at hclaim
      have hother : side'.other = side := by
        cases side' <;> cases side <;> first | rfl | exact absurd rfl heq
      have hold := h.claimed side' claim hclaim
      rw [hother] at hold ⊢
      rw [Function.update_self]
      exact hlocked claim hold
  · intro side'
    by_cases heq : side' = side
    · subst heq
      rw [Function.update_self]
      exact honce
    · rw [Function.update_of_ne heq]
      exact h.once side'

theorem apply_backed {s s' : State κ α} {action : Action κ α} (h : Backed s)
    (happly : apply s action = some s') : Backed s' := by
  obtain ⟨side, amount, -, rfl⟩ | ⟨side, claim, -, rfl⟩ |
    ⟨side, claim, -, hclaimed, hnew, -, rfl⟩ := apply_cases happly
  · exact h.update (fun _ hmem => hmem) (h.claimed side) (h.once side)
  · exact h.update (fun _ hmem => List.mem_append_left _ hmem) (h.claimed side) (h.once side)
  · refine h.update (fun _ hmem => hmem) (fun c hmem => ?_) ?_
    · rcases List.mem_append.1 hmem with hmem | hmem
      · exact h.claimed side c hmem
      · rw [List.mem_singleton.1 hmem]
        exact hclaimed
    · rw [← List.concat_eq_append]
      exact List.Nodup.concat hnew (h.once side)

theorem run_backed {s s' : State κ α} {actions : List (Action κ α)} (h : Backed s)
    (hrun : run s actions = some s') : Backed s' :=
  run_induction (P := Backed) (fun _ _ _ => apply_backed) h hrun

omit [DecidableEq κ] [DecidableEq α] in
/-- Distinct claims that are all in a list amount to no more than the list. -/
theorem amounts_le_of_subset {claims within : List (Claim κ α)} (honce : claims.Nodup)
    (hsubset : ∀ claim ∈ claims, claim ∈ within) : amounts claims ≤ amounts within := by
  obtain ⟨claims', hperm, hsublist⟩ := List.subperm_of_subset honce hsubset
  unfold amounts
  rw [← (hperm.map Claim.amount).sum_eq]
  exact (hsublist.map Claim.amount).sum_le_sum fun _ _ => Nat.zero_le _

omit [DecidableEq κ] [DecidableEq α] in
/-- No more is released than was claimed, in every class of claims. -/
theorem Backed.amounts_le {s : State κ α} (h : Backed s) (side : Side)
    (p : Claim κ α → Bool) :
    amounts ((s side).released.filter p) ≤ amounts ((s side.other).locked.filter p) := by
  apply amounts_le_of_subset ((h.once side).filter p)
  intro claim hmem
  rw [List.mem_filter] at hmem ⊢
  exact ⟨h.claimed side claim hmem.1, hmem.2⟩

/-! ## The books -/

/-- A vault changes by what its side locks, releases and is given. -/
theorem run_books {s s' : State κ α} {actions : List (Action κ α)}
    (hrun : run s actions = some s') (side : Side) :
    (s' side).held + amounts (s' side).released + amounts (s side).locked
      = (s side).held + amounts (s side).released + amounts (s' side).locked
        + gifts side actions := by
  induction actions generalizing s with
  | nil =>
    rw [← Option.some.inj hrun, gifts, List.map_nil, List.sum_nil, Nat.add_zero]
  | cons action actions ih =>
    obtain ⟨t, haction, hrest⟩ := Option.bind_eq_some_iff.1 hrun
    have hothers := ih hrest
    have hsplit : gifts side (action :: actions) = action.given side + gifts side actions := rfl
    have hone : (t side).held + amounts (t side).released + amounts (s side).locked
        = (s side).held + amounts (s side).released + amounts (t side).locked
          + action.given side := by
      obtain ⟨side', amount, rfl, rfl⟩ | ⟨side', claim, rfl, rfl⟩ |
        ⟨side', claim, rfl, -, -, hheld, rfl⟩ := apply_cases haction
      all_goals
        by_cases heq : side' = side
        · subst heq
          simp only [Function.update_self, amounts_append, amounts_cons, amounts_nil, Action.given,
            if_true]
          omega
        · simp only [Function.update_of_ne (Ne.symm heq), Action.given, if_neg heq]
          omega
    rw [hsplit]
    omega

/-- What may still be released on a side. -/
def outstanding (s : State κ α) (side : Side) : ℕ :=
  amounts (s side.other).locked - amounts (s side).released

omit [DecidableEq κ] [DecidableEq α] in
theorem Backed.released_add_outstanding {s : State κ α} (h : Backed s) (side : Side) :
    amounts (s side).released + outstanding s side = amounts (s side.other).locked := by
  have hle := amounts_le_of_subset (h.once side) (h.claimed side)
  unfold outstanding
  omega

/-- What the vaults hold together, beyond what may still be released, changes by
the gifts only. -/
theorem run_surplus {s s' : State κ α} {actions : List (Action κ α)} (h : Backed s)
    (hrun : run s actions = some s') :
    (s' .left).held + (s' .right).held + (outstanding s .left + outstanding s .right)
      = (s .left).held + (s .right).held + (outstanding s' .left + outstanding s' .right)
        + (gifts .left actions + gifts .right actions) := by
  have hleft := run_books hrun .left
  have hright := run_books hrun .right
  have hbacked := run_backed h hrun
  have hl : amounts (s .left).released + outstanding s .left = amounts (s .right).locked :=
    h.released_add_outstanding .left
  have hr : amounts (s .right).released + outstanding s .right = amounts (s .left).locked :=
    h.released_add_outstanding .right
  have hl' : amounts (s' .left).released + outstanding s' .left = amounts (s' .right).locked :=
    hbacked.released_add_outstanding .left
  have hr' : amounts (s' .right).released + outstanding s' .right = amounts (s' .left).locked :=
    hbacked.released_add_outstanding .right
  omega

/-! ## Transactions of one side -/

theorem run_locks (s : State κ α) (side : Side) (locks : List (Claim κ α)) :
    run s (locks.map (.lock side)) = some (Function.update s side
      ⟨(s side).held + amounts locks, (s side).locked ++ locks, (s side).released⟩) := by
  induction locks generalizing s with
  | nil => simp [run]
  | cons claim locks ih =>
    rw [List.map_cons]
    refine run_cons rfl ((ih _).trans ?_)
    simp [Function.update_idem, Nat.add_assoc]

theorem run_releases {s : State κ α} {side : Side} {releases : List (Claim κ α)}
    (hclaimed : ∀ claim ∈ releases, claim ∈ (s side.other).locked)
    (honce : ((s side).released ++ releases).Nodup) (hheld : amounts releases ≤ (s side).held) :
    run s (releases.map (.release side)) = some (Function.update s side
      ⟨(s side).held - amounts releases, (s side).locked, (s side).released ++ releases⟩) := by
  induction releases generalizing s with
  | nil => simp [run]
  | cons claim releases ih =>
    rw [amounts_cons] at hheld
    rw [List.append_cons] at honce
    have hnew : claim ∉ (s side).released := by
      intro hmem
      rw [List.nodup_append] at honce
      have hconcat := honce.1
      rw [List.nodup_append] at hconcat
      exact hconcat.2.2 claim hmem claim (by simp) rfl
    have hfirst : apply s (.release side claim) = some (Function.update s side
        ⟨(s side).held - claim.amount, (s side).locked, (s side).released ++ [claim]⟩) :=
      if_pos ⟨hclaimed claim (by simp), hnew, by omega⟩
    rw [List.map_cons]
    refine run_cons hfirst ((ih ?_ ?_ ?_).trans ?_)
    · intro c hmem
      rw [Function.update_of_ne side.other_ne]
      exact hclaimed c (List.mem_cons_of_mem _ hmem)
    · rw [Function.update_self]
      exact honce
    · rw [Function.update_self]
      dsimp only
      omega
    · simp [Function.update_idem, Nat.sub_sub]

/-- A transaction of one side locks and releases claims, and the vault holds at least
what the two leave. -/
theorem run_of_books {s : State κ α} {side : Side} {locks releases : List (Claim κ α)} {held : ℕ}
    (hclaimed : ∀ claim ∈ releases, claim ∈ (s side.other).locked)
    (honce : ((s side).released ++ releases).Nodup)
    (hheld : (s side).held + amounts locks ≤ held + amounts releases) :
    ∃ actions, run s actions = some (Function.update s side
      ⟨held, (s side).locked ++ locks, (s side).released ++ releases⟩) := by
  let gift := held + amounts releases - ((s side).held + amounts locks)
  let given : State κ α :=
    Function.update s side { s side with held := (s side).held + gift }
  have hgiven : run s [.gift side gift] = some given := rfl
  have hlocked := run_locks given side locks
  have hreleased := @run_releases _ _ _ _ (Function.update given side
      ⟨(given side).held + amounts locks, (given side).locked ++ locks, (given side).released⟩)
    side releases (by
      intro claim hmem
      rw [Function.update_of_ne side.other_ne]
      simpa only [given, Function.update_of_ne side.other_ne] using hclaimed claim hmem)
    (by simpa only [given, Function.update_self] using honce)
    (by
      simp only [given, gift, Function.update_self]
      omega)
  refine ⟨_, (run_append (run_append hgiven hlocked) hreleased).trans ?_⟩
  have hend : (s side).held + gift + amounts locks - amounts releases = held := by
    simp only [gift]
    omega
  simp only [given, Function.update_self, Function.update_idem, hend]

/-- A transaction of one side that keeps its books is a run when what is released
after it is backed. -/
theorem run_of_backed {s : State κ α} {side : Side} {held : ℕ} {locks releases : List (Claim κ α)}
    (hbacked : Backed (Function.update s side
      ⟨held, (s side).locked ++ locks, (s side).released ++ releases⟩))
    (hheld : (s side).held + amounts locks ≤ held + amounts releases) :
    ∃ actions, run s actions = some (Function.update s side
      ⟨held, (s side).locked ++ locks, (s side).released ++ releases⟩) := by
  have hclaimed := hbacked.claimed side
  have honce := hbacked.once side
  rw [Function.update_self, Function.update_of_ne side.other_ne] at hclaimed
  rw [Function.update_self] at honce
  exact run_of_books (fun claim hmem => hclaimed claim (List.mem_append_right _ hmem)) honce hheld

end Exchange
