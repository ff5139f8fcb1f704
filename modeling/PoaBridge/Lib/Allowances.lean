import PoaBridge.Lib.Ledger

/-!
# Ledgers with allowances

The accounts of a ledger can let others spend for them, each up to an allowance.
The ledger has an owner, who appoints the agents that may create amounts.

`Entry` are the ways to change such a ledger.  Every entry has one account that
asks for it, its `actor`, and `apply` refuses what the actor has no right to.
`Accounted` is the statement of a list of entries:

* the balance of an account is what it had and what came in, less what went out;
* what a spender has taken from an account is covered by what that account
  approved;
* the supply is what it was and what was created.

`run_accounted` is the statement for every run.  `run_trusted` says who creates
amounts: as long as the accounts of a set appoint only one another, nobody else
does.  `outgoing_eq_zero` is the case of an account that asks for nothing.
-/

namespace Allowances

universe u

variable {α : Type u}

/-! ## Entries -/

structure State (α : Type u) where
  balance : α → ℕ
  /-- What the holder lets the spender spend. -/
  allowed : α → α → ℕ
  supply : ℕ
  owner : α
  agents : α → Bool

inductive Entry (α : Type u) where
  | transfer (source target : α) (amount : ℕ)
  /-- The spender takes an amount of the source. -/
  | spend (spender source target : α) (amount : ℕ)
  | approve (holder spender : α) (amount : ℕ)
  | mint (agent target : α) (amount : ℕ)
  | appoint (owner agent : α) (allow : Bool)
  | handOver (owner successor : α)
deriving DecidableEq, Repr

namespace Entry

/-- The account that asks for the entry. -/
def actor : Entry α → α
  | .transfer source _ _ => source
  | .spend spender _ _ _ => spender
  | .approve holder _ _ => holder
  | .mint agent _ _ => agent
  | .appoint owner _ _ => owner
  | .handOver owner _ => owner

/-- An amount is created. -/
def Mints : Entry α → Prop
  | .mint .. => True
  | _ => False

/-- Only accounts of the set get a right to create amounts, or to appoint others. -/
def AppointsIn (T : Set α) : Entry α → Prop
  | .appoint _ agent allow => allow = true → agent ∈ T
  | .handOver _ successor => successor ∈ T
  | _ => True

/-- What the entry creates. -/
def minted : Entry α → ℕ
  | .mint _ _ amount => amount
  | _ => 0

variable [DecidableEq α]

/-- What leaves the account. -/
def outgoing (a : α) : Entry α → ℕ
  | .transfer source _ amount => if source = a then amount else 0
  | .spend _ source _ amount => if source = a then amount else 0
  | _ => 0

/-- What the account gets. -/
def incoming (a : α) : Entry α → ℕ
  | .transfer _ target amount => if target = a then amount else 0
  | .spend _ _ target amount => if target = a then amount else 0
  | .mint _ target amount => if target = a then amount else 0
  | _ => 0

/-- What the spender takes from the holder. -/
def spent (holder spender : α) : Entry α → ℕ
  | .spend spender' source _ amount => if source = holder ∧ spender' = spender then amount else 0
  | _ => 0

/-- What the holder lets the spender spend. -/
def approved (holder spender : α) : Entry α → ℕ
  | .approve holder' spender' amount =>
    if holder' = holder ∧ spender' = spender then amount else 0
  | _ => 0

end Entry

/-- The sum over the entries. -/
def tally (f : Entry α → ℕ) (entries : List (Entry α)) : ℕ := (entries.map f).sum

theorem tally_cons (f : Entry α → ℕ) (entry : Entry α) (entries : List (Entry α)) :
    tally f (entry :: entries) = f entry + tally f entries :=
  List.sum_cons

theorem tally_eq_zero {f : Entry α → ℕ} {entries : List (Entry α)} :
    tally f entries = 0 ↔ ∀ entry ∈ entries, f entry = 0 := by
  unfold tally
  rw [List.sum_eq_zero_iff_forall_eq_nat]
  exact List.forall_mem_map

variable [DecidableEq α]

/-- The allowances after an approval. -/
def allow (allowed : α → α → ℕ) (holder spender : α) (amount : ℕ) : α → α → ℕ :=
  Function.update allowed holder (Function.update (allowed holder) spender amount)

/-- An entry that is not covered, or that the actor has no right to, is refused.
What is spent reaches the target before it leaves the source. -/
def apply (s : State α) : Entry α → Option (State α)
  | .transfer source target amount =>
    if amount ≤ s.balance source then
      some { s with balance := Ledger.transfer s.balance source target amount }
    else none
  | .spend spender source target amount =>
    if amount ≤ s.allowed source spender ∧
        amount ≤ Ledger.credit s.balance target amount source then
      some { s with
        balance := Ledger.debit (Ledger.credit s.balance target amount) source amount
        allowed := allow s.allowed source spender (s.allowed source spender - amount) }
    else none
  | .approve holder spender amount =>
    some { s with allowed := allow s.allowed holder spender amount }
  | .mint agent target amount =>
    if s.agents agent = true then
      some { s with
        balance := Ledger.credit s.balance target amount
        supply := s.supply + amount }
    else none
  | .appoint owner agent allow =>
    if owner = s.owner then some { s with agents := Function.update s.agents agent allow } else none
  | .handOver owner successor =>
    if owner = s.owner then some { s with owner := successor } else none

/-- A list of entries, none of which is refused. -/
def run (s : State α) (entries : List (Entry α)) : Option (State α) := entries.foldlM apply s

theorem run_append {s t u : State α} {before after : List (Entry α)}
    (h : run s before = some t) (h' : run t after = some u) :
    run s (before ++ after) = some u := by
  unfold run at h h' ⊢
  rw [List.foldlM_append, h]
  exact h'

theorem run_singleton {s t : State α} {entry : Entry α} (h : apply s entry = some t) :
    run s [entry] = some t := by
  show (apply s entry >>= fun s => run s []) = some t
  rw [h]
  rfl

/-! ## The statement of a run -/

theorem allow_self (allowed : α → α → ℕ) (holder spender : α) (amount : ℕ) :
    allow allowed holder spender amount holder spender = amount := by
  rw [allow, Function.update_self, Function.update_self]

theorem allow_of_ne (allowed : α → α → ℕ) {holder spender holder' spender' : α} (amount : ℕ)
    (h : ¬(holder = holder' ∧ spender = spender')) :
    allow allowed holder spender amount holder' spender' = allowed holder' spender' := by
  unfold allow
  by_cases hholder : holder' = holder
  · subst hholder
    have hspender : spender' ≠ spender := fun heq => h ⟨rfl, heq.symm⟩
    rw [Function.update_self, Function.update_of_ne hspender]
  · rw [Function.update_of_ne hholder]

theorem balance_transfer {balance : α → ℕ} {source : α} (target a : α) {amount : ℕ}
    (h : amount ≤ balance source) :
    Ledger.transfer balance source target amount a + (if source = a then amount else 0)
      = balance a + if target = a then amount else 0 := by
  by_cases hself : source = target
  · rw [← hself, Ledger.transfer_self h]
  · by_cases hsource : source = a
    · subst hsource
      rw [Ledger.transfer_source _ hself, if_pos rfl, if_neg (Ne.symm hself)]
      omega
    · rw [if_neg hsource]
      by_cases htarget : target = a
      · subst htarget
        rw [Ledger.transfer_target _ (Ne.symm hself), if_pos rfl, Nat.add_zero]
      · rw [Ledger.transfer_of_ne _ (Ne.symm hsource) (Ne.symm htarget), if_neg htarget]

theorem balance_spend {balance : α → ℕ} {source target : α} (a : α) {amount : ℕ}
    (h : amount ≤ Ledger.credit balance target amount source) :
    Ledger.debit (Ledger.credit balance target amount) source amount a
        + (if source = a then amount else 0)
      = balance a + if target = a then amount else 0 := by
  by_cases hself : source = target
  · rw [hself, Ledger.debit_credit_self]
  · rw [Ledger.credit_of_ne _ hself] at h
    rw [Ledger.debit_credit_of_ne _ hself]
    exact balance_transfer target a h

/-- What the entries say about the difference of two states. -/
structure Accounted (s : State α) (entries : List (Entry α)) (s' : State α) : Prop where
  balance : ∀ a, s'.balance a + tally (Entry.outgoing a) entries
    = s.balance a + tally (Entry.incoming a) entries
  allowance : ∀ holder spender, tally (Entry.spent holder spender) entries
      + s'.allowed holder spender
    ≤ s.allowed holder spender + tally (Entry.approved holder spender) entries
  supply : s'.supply = s.supply + tally Entry.minted entries

theorem apply_balance {s s' : State α} {entry : Entry α} (h : apply s entry = some s') (a : α) :
    s'.balance a + entry.outgoing a = s.balance a + entry.incoming a := by
  cases entry with
  | transfer source target amount =>
    obtain ⟨hcovered, heq⟩ := Option.ite_none_right_eq_some.1 h
    rw [← Option.some.inj heq]
    exact balance_transfer target a hcovered
  | spend spender source target amount =>
    obtain ⟨⟨-, hcovered⟩, heq⟩ := Option.ite_none_right_eq_some.1 h
    rw [← Option.some.inj heq]
    exact balance_spend a hcovered
  | approve holder spender amount =>
    rw [← Option.some.inj h]
    rfl
  | mint agent target amount =>
    obtain ⟨-, heq⟩ := Option.ite_none_right_eq_some.1 h
    rw [← Option.some.inj heq]
    show Ledger.credit s.balance target amount a = s.balance a + if target = a then amount else 0
    by_cases htarget : target = a
    · rw [htarget, Ledger.credit_self, if_pos rfl]
    · rw [Ledger.credit_of_ne _ (Ne.symm htarget), if_neg htarget, Nat.add_zero]
  | appoint owner agent allow | handOver owner successor =>
    obtain ⟨-, heq⟩ := Option.ite_none_right_eq_some.1 h
    rw [← Option.some.inj heq]
    rfl

theorem apply_allowance {s s' : State α} {entry : Entry α} (h : apply s entry = some s')
    (holder spender : α) :
    entry.spent holder spender + s'.allowed holder spender
      ≤ s.allowed holder spender + entry.approved holder spender := by
  cases entry with
  | spend spender' source target amount =>
    obtain ⟨⟨hallowed, -⟩, heq⟩ := Option.ite_none_right_eq_some.1 h
    rw [← Option.some.inj heq]
    show (if source = holder ∧ spender' = spender then amount else 0)
      + allow s.allowed source spender' (s.allowed source spender' - amount) holder spender
        ≤ s.allowed holder spender + 0
    by_cases hsame : source = holder ∧ spender' = spender
    · obtain ⟨rfl, rfl⟩ := hsame
      rw [if_pos ⟨rfl, rfl⟩, allow_self]
      omega
    · rw [if_neg hsame, allow_of_ne _ _ hsame, Nat.zero_add, Nat.add_zero]
  | approve holder' spender' amount =>
    rw [← Option.some.inj h]
    show 0 + allow s.allowed holder' spender' amount holder spender ≤ s.allowed holder spender
      + if holder' = holder ∧ spender' = spender then amount else 0
    by_cases hsame : holder' = holder ∧ spender' = spender
    · obtain ⟨rfl, rfl⟩ := hsame
      rw [if_pos ⟨rfl, rfl⟩, allow_self]
      omega
    · rw [if_neg hsame, allow_of_ne _ _ hsame, Nat.zero_add, Nat.add_zero]
  | transfer source target amount | mint agent target amount | appoint owner agent allow
  | handOver owner successor =>
    obtain ⟨-, heq⟩ := Option.ite_none_right_eq_some.1 h
    rw [← Option.some.inj heq]
    exact (Nat.zero_add _).le

theorem apply_supply {s s' : State α} {entry : Entry α} (h : apply s entry = some s') :
    s'.supply = s.supply + entry.minted := by
  cases entry with
  | approve holder spender amount =>
    rw [← Option.some.inj h]
    rfl
  | transfer source target amount | spend spender source target amount
  | mint agent target amount | appoint owner agent allow | handOver owner successor =>
    obtain ⟨-, heq⟩ := Option.ite_none_right_eq_some.1 h
    rw [← Option.some.inj heq]
    rfl

/-- The statement of every run. -/
theorem run_accounted {s s' : State α} {entries : List (Entry α)}
    (h : run s entries = some s') : Accounted s entries s' := by
  induction entries generalizing s with
  | nil =>
    rw [← Option.some.inj h]
    exact ⟨fun _ => rfl, fun _ _ => (Nat.zero_add _).le, rfl⟩
  | cons entry entries ih =>
    obtain ⟨t, hentry, hrest⟩ := Option.bind_eq_some_iff.1 h
    have hrest := ih hrest
    refine ⟨fun a => ?_, fun holder spender => ?_, ?_⟩
    · have hfirst := apply_balance hentry a
      have hothers := hrest.balance a
      rw [tally_cons, tally_cons]
      omega
    · have hfirst := apply_allowance hentry holder spender
      have hothers := hrest.allowance holder spender
      rw [tally_cons, tally_cons]
      omega
    · rw [hrest.supply, apply_supply hentry, tally_cons, Nat.add_assoc]

/-- Nothing leaves an account that pays nothing and from which nothing is spent. -/
theorem outgoing_eq_zero {a : α} {entries : List (Entry α)}
    (hactor : ∀ entry ∈ entries, entry.actor ≠ a)
    (hspent : ∀ spender, tally (Entry.spent a spender) entries = 0) :
    tally (Entry.outgoing a) entries = 0 := by
  rw [tally_eq_zero]
  intro entry hmem
  cases entry with
  | transfer source target amount => exact if_neg (hactor _ hmem)
  | spend spender source target amount =>
    have hzero : (if source = a ∧ spender = spender then amount else 0) = 0 :=
      tally_eq_zero.1 (hspent spender) _ hmem
    show (if source = a then amount else 0) = 0
    simpa using hzero
  | approve holder spender amount | mint agent target amount | appoint owner agent allow
  | handOver owner successor => rfl

/-! ## Who creates amounts -/

/-- The owner and the agents are accounts of the set. -/
structure Trusts (T : Set α) (s : State α) : Prop where
  owner : s.owner ∈ T
  agents : ∀ a, s.agents a = true → a ∈ T

theorem apply_trusted {T : Set α} {s s' : State α} {entry : Entry α} (h : apply s entry = some s')
    (htrusts : Trusts T s) (happoints : entry.actor ∈ T → entry.AppointsIn T) :
    Trusts T s' ∧ (entry.Mints → entry.actor ∈ T) := by
  cases entry with
  | approve holder spender amount =>
    rw [← Option.some.inj h]
    exact ⟨⟨htrusts.owner, htrusts.agents⟩, False.elim⟩
  | transfer source target amount | spend spender source target amount =>
    obtain ⟨-, heq⟩ := Option.ite_none_right_eq_some.1 h
    rw [← Option.some.inj heq]
    exact ⟨⟨htrusts.owner, htrusts.agents⟩, False.elim⟩
  | mint agent target amount =>
    obtain ⟨hagent, heq⟩ := Option.ite_none_right_eq_some.1 h
    rw [← Option.some.inj heq]
    exact ⟨⟨htrusts.owner, htrusts.agents⟩, fun _ => htrusts.agents agent hagent⟩
  | appoint owner agent allow =>
    obtain ⟨howner, heq⟩ := Option.ite_none_right_eq_some.1 h
    have hagent : allow = true → agent ∈ T := happoints (howner ▸ htrusts.owner)
    rw [← Option.some.inj heq]
    refine ⟨⟨htrusts.owner, fun a ha => ?_⟩, False.elim⟩
    change Function.update s.agents agent allow a = true at ha
    by_cases heq : a = agent
    · subst heq
      rw [Function.update_self] at ha
      exact hagent ha
    · rw [Function.update_of_ne heq] at ha
      exact htrusts.agents a ha
  | handOver owner successor =>
    obtain ⟨howner, heq⟩ := Option.ite_none_right_eq_some.1 h
    have hsuccessor : successor ∈ T := happoints (howner ▸ htrusts.owner)
    rw [← Option.some.inj heq]
    exact ⟨⟨hsuccessor, htrusts.agents⟩, False.elim⟩

/-- Only accounts of the set create amounts, as long as they appoint only one
another. -/
theorem run_trusted {T : Set α} {s s' : State α} {entries : List (Entry α)}
    (h : run s entries = some s') (htrusts : Trusts T s)
    (happoints : ∀ entry ∈ entries, entry.actor ∈ T → entry.AppointsIn T) :
    Trusts T s' ∧ ∀ entry ∈ entries, entry.Mints → entry.actor ∈ T := by
  induction entries generalizing s with
  | nil =>
    rw [← Option.some.inj h]
    exact ⟨htrusts, fun _ hmem => absurd hmem List.not_mem_nil⟩
  | cons entry entries ih =>
    obtain ⟨t, hentry, hrest⟩ := Option.bind_eq_some_iff.1 h
    obtain ⟨hfirst, hmints⟩ := apply_trusted hentry htrusts (happoints entry List.mem_cons_self)
    obtain ⟨hlast, hothers⟩ :=
      ih hrest hfirst fun e hmem => happoints e (List.mem_cons_of_mem _ hmem)
    refine ⟨hlast, fun e hmem => ?_⟩
    rcases List.mem_cons.1 hmem with rfl | hmem
    · exact hmints
    · exact hothers e hmem

end Allowances
