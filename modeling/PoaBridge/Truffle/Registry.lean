import Mathlib.Data.Set.Card
import PoaBridge.Lib.Runs
import PoaBridge.Truffle.Validators

/-!
# Runs of the validator registry

`BridgeValidators` keeps its members twice: in the array `validators`, which
only grows, and in the mapping `validatorStatus`.  `validatorCount` walks the
array and asks the mapping, so an address that is twice in the array counts
twice.

Nothing keeps an address from being twice there: `initialize` takes any array
of non-zero addresses, and a validator that is removed and added again is
pushed again.  `sound_throughout_iff` says that these are the only two ways:
the count is the number of validators, and the threshold within it, in every
state of a run exactly when the initial array has no duplicates and the owner
never adds a removed validator again.
-/

namespace PoaBridge.Truffle.BridgeValidators

/-- A reverted call changes nothing. -/
def step (self : BridgeValidators) (call : Address × Call) : BridgeValidators :=
  (self.call call.1 call.2).getD self

/-- The addresses that are validators now. -/
def currentValidators (self : BridgeValidators) : Set Address :=
  {a | self.isValidator a = true}

/-- The count is right, and the threshold can be met by distinct validators. -/
structure Sound (registry : BridgeValidators) : Prop where
  count : registry.validatorCount = registry.currentValidators.ncard
  positive : 1 ≤ registry.requiredSignatures
  reachable : registry.requiredSignatures ≤ registry.currentValidators.ncard

/-- The owner does not ask to add a validator that was removed before. -/
def NoReturn (self : BridgeValidators) : Address × Call → Prop
  | (sender, .addValidator validator) =>
    sender = self.owner → validator ∈ self.validators → self.isValidator validator = true
  | _ => True

instance (self : BridgeValidators) : ∀ call, Decidable (self.NoReturn call)
  | (sender, .addValidator validator) => inferInstanceAs (Decidable (sender = self.owner →
      validator ∈ self.validators → self.isValidator validator = true))
  | (_, .initializeValidators ..) | (_, .removeValidator _) | (_, .setRequiredSignatures _) =>
    .isTrue trivial

/-! ## What a call does -/

/-- What a successful call checked and did in an initialized registry. -/
theorem call_cases {self self' : BridgeValidators} {sender : Address} {call : Call}
    (h : self.call sender call = some self') (hinitialized : self.initialized = true) :
    (∃ validator, call = .addValidator validator ∧ sender = self.owner ∧ validator ≠ 0 ∧
      self.isValidator validator = false ∧ self' = self.pushValidator validator) ∨
    (∃ validator, call = .removeValidator validator ∧ sender = self.owner ∧
      self.requiredSignatures < self.validatorCount ∧ self.isValidator validator = true ∧
      self' = { self with
        validatorStatus := Function.update self.validatorStatus validator false }) ∨
    (∃ threshold, call = .setRequiredSignatures threshold ∧ sender = self.owner ∧
      threshold ≤ self.validatorCount ∧ threshold ≠ 0 ∧
      self' = { self with requiredSignatures := threshold }) := by
  cases call with
  | initializeValidators requiredSignatures initialValidators owner =>
    simp [BridgeValidators.call, initializeValidators, hinitialized, require] at h
  | addValidator validator =>
    simp only [BridgeValidators.call, addValidator, require_bind_eq_some] at h
    obtain ⟨hsender, hzero, hnew, h⟩ := h
    exact .inl ⟨validator, rfl, hsender, hzero, hnew, (Option.some.inj h).symm⟩
  | removeValidator validator =>
    simp only [BridgeValidators.call, removeValidator, require_bind_eq_some] at h
    obtain ⟨hsender, hcount, hvalidator, h⟩ := h
    exact .inr (.inl ⟨validator, rfl, hsender, hcount, hvalidator, (Option.some.inj h).symm⟩)
  | setRequiredSignatures threshold =>
    simp only [BridgeValidators.call, setRequiredSignatures, require_bind_eq_some] at h
    obtain ⟨hsender, hcount, hpositive, h⟩ := h
    exact .inr (.inr ⟨threshold, rfl, hsender, hcount, hpositive, (Option.some.inj h).symm⟩)

/-- The threshold of an initialized registry stays positive. -/
theorem call_positive {self self' : BridgeValidators} {sender : Address} {call : Call}
    (h : self.call sender call = some self') (hinitialized : self.initialized = true)
    (hpositive : 1 ≤ self.requiredSignatures) :
    self'.initialized = true ∧ 1 ≤ self'.requiredSignatures := by
  obtain ⟨validator, -, -, -, -, rfl⟩ | ⟨validator, -, -, -, -, rfl⟩ |
    ⟨threshold, -, -, -, hne, rfl⟩ := call_cases h hinitialized
  · exact ⟨hinitialized, hpositive⟩
  · exact ⟨hinitialized, hpositive⟩
  · exact ⟨hinitialized, Nat.one_le_iff_ne_zero.2 hne⟩

/-- The owner can add every address that is not a validator, except zero. -/
theorem addValidator_eq_some {self : BridgeValidators} {validator : Address}
    (hzero : validator ≠ 0) (hnew : self.isValidator validator = false) :
    self.addValidator self.owner validator = some (self.pushValidator validator) := by
  rw [addValidator, require_bind_eq_some, require_bind_eq_some, require_bind_eq_some]
  exact ⟨rfl, hzero, hnew, rfl⟩

theorem pushValidator_isValidator_iff {self : BridgeValidators} {validator a : Address} :
    (self.pushValidator validator).isValidator a = true ↔
      a = validator ∨ self.isValidator a = true := by
  show Function.update self.validatorStatus validator true a = true ↔ _
  by_cases heq : a = validator
  · simp [heq]
  · rw [Function.update_of_ne heq]
    simp [heq, isValidator]

/-- A push keeps every validator in the array. -/
theorem pushValidator_listed {self : BridgeValidators} {validator : Address}
    (hlisted : ∀ a, self.isValidator a = true → a ∈ self.validators) (a : Address)
    (ha : (self.pushValidator validator).isValidator a = true) :
    a ∈ (self.pushValidator validator).validators := by
  show a ∈ self.validators ++ [validator]
  rw [List.mem_append, List.mem_singleton]
  rcases pushValidator_isValidator_iff.1 ha with heq | hold
  · exact .inr heq
  · exact .inl (hlisted a hold)

/-- The initial validators are the array, and all of them are validators. -/
theorem pushValidators_validators {initialValidators : List Address}
    {self self' : BridgeValidators} (h : self.pushValidators initialValidators = some self') :
    self'.validators = self.validators ++ initialValidators ∧
      (0 ∉ self.validators → 0 ∉ self'.validators) := by
  induction initialValidators generalizing self with
  | nil =>
    rw [← Option.some.inj h]
    exact ⟨(List.append_nil _).symm, id⟩
  | cons validator rest ih =>
    rw [pushValidators] at h
    split at h
    · cases h
    · rename_i hne
      obtain ⟨hvalidators, hzero⟩ := ih h
      refine ⟨by simp [hvalidators, pushValidator], fun hold => hzero ?_⟩
      rw [pushValidator, List.mem_append, List.mem_singleton]
      rintro (hmem | hmem)
      · exact hold hmem
      · exact hne hmem.symm

/-! ## The count -/

/-- The count is the number of validators exactly when no validator is twice in
the array. -/
theorem validatorCount_eq_ncard_iff {self : BridgeValidators}
    (hlisted : ∀ a, self.isValidator a = true → a ∈ self.validators) :
    self.validatorCount = self.currentValidators.ncard ↔
      (self.validators.filter self.isValidator).Nodup := by
  have hset : self.currentValidators
      = ↑(self.validators.filter self.isValidator).toFinset := by
    ext a
    simp only [currentValidators, Set.mem_ofPred_eq, List.coe_toFinset, List.mem_filter]
    exact ⟨fun h => ⟨hlisted a h, h⟩, fun h => h.2⟩
  rw [hset, Set.ncard_coe_finset, validatorCount, List.countP_eq_length_filter, eq_comm]
  exact Multiset.toFinset_card_eq_card_iff_nodup

/-- One validator less is at most as many entries less as it has. -/
theorem countP_le_countP_update {α : Type} [DecidableEq α] (p : α → Bool) (a : α)
    (l : List α) : l.countP p ≤ l.countP (Function.update p a false) + l.count a := by
  induction l with
  | nil => simp
  | cons b l ih =>
    rw [List.countP_cons, List.countP_cons, List.count_cons]
    by_cases hba : b = a
    · subst hba
      simp only [beq_self_eq_true, if_true]
      split <;> omega
    · rw [Function.update_of_ne hba]
      omega

/-- What the registry keeps after `initialize`, as long as no address is pushed
twice. -/
structure Tracked (registry : BridgeValidators) : Prop where
  initialized : registry.initialized = true
  listed : ∀ a, registry.isValidator a = true → a ∈ registry.validators
  nonzero : 0 ∉ registry.validators
  distinct : registry.validators.Nodup
  positive : 1 ≤ registry.requiredSignatures
  reachable : registry.requiredSignatures ≤ registry.validatorCount

theorem Tracked.sound {self : BridgeValidators} (h : self.Tracked) : self.Sound := by
  have hcount := (validatorCount_eq_ncard_iff h.listed).2 (h.distinct.filter _)
  exact ⟨hcount, h.positive, hcount ▸ h.reachable⟩

theorem Tracked.pushValidator {self : BridgeValidators} {validator : Address}
    (h : self.Tracked) (hzero : validator ≠ 0) (hfresh : validator ∉ self.validators) :
    (self.pushValidator validator).Tracked where
  initialized := h.initialized
  listed := pushValidator_listed h.listed
  nonzero := by
    show 0 ∉ self.validators ++ [validator]
    rw [List.mem_append, List.mem_singleton]
    rintro (hmem | hmem)
    · exact h.nonzero hmem
    · exact hzero hmem.symm
  distinct := List.nodup_append.2 ⟨h.distinct, List.nodup_singleton _, by
    intro a ha b hb hab
    exact hfresh (List.mem_singleton.1 hb ▸ hab ▸ ha)⟩
  positive := h.positive
  reachable := by
    refine h.reachable.trans ?_
    show self.validators.countP self.validatorStatus
      ≤ (self.validators ++ [validator]).countP
          (Function.update self.validatorStatus validator true)
    rw [List.countP_append]
    refine le_trans (List.countP_mono_left fun a _ ha => ?_) (Nat.le_add_right _ _)
    exact pushValidator_isValidator_iff.2 (.inr ha)

theorem Tracked.removeValidator {self : BridgeValidators} {validator : Address}
    (h : self.Tracked) (hcount : self.requiredSignatures < self.validatorCount) :
    { self with validatorStatus :=
        Function.update self.validatorStatus validator false }.Tracked where
  initialized := h.initialized
  listed := by
    intro a ha
    have hstatus : Function.update self.validatorStatus validator false a = true := ha
    by_cases heq : a = validator
    · rw [heq, Function.update_self] at hstatus
      cases hstatus
    · rw [Function.update_of_ne heq] at hstatus
      exact h.listed a hstatus
  nonzero := h.nonzero
  distinct := h.distinct
  positive := h.positive
  reachable := by
    show self.requiredSignatures ≤ self.validators.countP
      (Function.update self.validatorStatus validator false)
    have hless := countP_le_countP_update self.validatorStatus validator self.validators
    have honce := List.nodup_iff_count_le_one.1 h.distinct validator
    have hcount' : self.requiredSignatures < self.validators.countP self.validatorStatus :=
      hcount
    omega

/-- A call that meets the condition keeps the registry in step. -/
theorem Tracked.step {self : BridgeValidators} {call : Address × Call} (h : self.Tracked)
    (hcall : self.NoReturn call) : (self.step call).Tracked := by
  rw [BridgeValidators.step]
  cases hexec : self.call call.1 call.2 with
  | none => exact h
  | some self' =>
    rw [Option.getD_some]
    obtain ⟨sender, call⟩ := call
    obtain ⟨validator, rfl, hsender, hzero, hnew, rfl⟩ | ⟨validator, rfl, -, hcount, -, rfl⟩ |
      ⟨threshold, rfl, -, hcount, hpositive, rfl⟩ := call_cases hexec h.initialized
    · refine h.pushValidator hzero fun hmem => ?_
      have hagain : self.isValidator validator = true := hcall hsender hmem
      rw [hnew] at hagain
      cases hagain
    · exact h.removeValidator hcount
    · exact ⟨h.initialized, h.listed, h.nonzero, h.distinct,
        Nat.one_le_iff_ne_zero.2 hpositive, hcount⟩

/-- A validator that returns is twice in the array, and counts twice. -/
theorem Tracked.noReturn_of_sound {self : BridgeValidators} {call : Address × Call}
    (h : self.Tracked) (hsound : (self.step call).Sound) : self.NoReturn call := by
  obtain ⟨sender, call⟩ := call
  cases call with
  | initializeValidators requiredSignatures initialValidators owner => trivial
  | removeValidator validator => trivial
  | setRequiredSignatures requiredSignatures => trivial
  | addValidator validator =>
    intro hsender hmem
    by_contra hnew
    have hzero : validator ≠ 0 := fun hz => h.nonzero (hz ▸ hmem)
    have hstep : self.step (sender, .addValidator validator) = self.pushValidator validator := by
      have hsome := addValidator_eq_some hzero (Bool.eq_false_iff.2 hnew)
      rw [BridgeValidators.step, BridgeValidators.call, hsender, hsome, Option.getD_some]
    rw [hstep] at hsound
    have hnodup := (validatorCount_eq_ncard_iff (pushValidator_listed h.listed)).1 hsound.count
    have htwice : validator ∈ self.validators.filter
        (self.pushValidator validator).isValidator :=
      List.mem_filter.2 ⟨hmem, Function.update_self ..⟩
    have hlast : validator ∈ [validator].filter (self.pushValidator validator).isValidator :=
      List.mem_filter.2 ⟨List.mem_singleton_self _, Function.update_self ..⟩
    rw [BridgeValidators.pushValidator, List.filter_append, List.nodup_append] at hnodup
    exact hnodup.2.2 validator htwice validator hlast rfl

/-! ## After `initialize` -/

section Initialized

variable {requiredSignatures : Nat} {initialValidators : List Address} {owner : Address}
  {registry : BridgeValidators}
  (h : deployed.initializeValidators requiredSignatures initialValidators owner = some registry)

include h

/-- The array is the argument of `initialize`, and all of it are validators. -/
theorem initializeValidators_spec :
    registry.initialized = true ∧ registry.validators = initialValidators ∧
      0 ∉ registry.validators ∧ (∀ a, registry.isValidator a = true ↔ a ∈ initialValidators) ∧
      1 ≤ registry.requiredSignatures ∧
      registry.requiredSignatures ≤ initialValidators.length := by
  simp only [initializeValidators, require_bind_eq_some] at h
  obtain ⟨-, hpositive, hlength, h⟩ := h
  obtain ⟨pushed, hpushed, h⟩ := Option.bind_eq_some_iff.1 h
  obtain ⟨hvalidators, hzero⟩ := pushValidators_validators hpushed
  obtain ⟨-, hstatus⟩ := pushValidators_frame hpushed
  rw [← Option.some.inj h]
  refine ⟨rfl, hvalidators, hzero (by simp [deployed]), fun a => ?_,
    Nat.one_le_iff_ne_zero.2 hpositive, hlength⟩
  refine (hstatus a).trans ?_
  simp [isValidator, deployed]

theorem validatorCount_of_initialized : registry.validatorCount = initialValidators.length := by
  obtain ⟨-, hvalidators, -, hstatus, -, -⟩ := initializeValidators_spec h
  rw [validatorCount, hvalidators, List.countP_eq_length]
  exact fun a ha => (hstatus a).2 ha

theorem tracked_of_initialized (hnodup : initialValidators.Nodup) : registry.Tracked := by
  obtain ⟨hinitialized, hvalidators, hzero, hstatus, hpositive, hlength⟩ :=
    initializeValidators_spec h
  refine ⟨hinitialized, ?_, hzero, hvalidators ▸ hnodup, hpositive, ?_⟩
  · intro a ha
    rw [hvalidators]
    exact (hstatus a).1 ha
  · rw [validatorCount_of_initialized h]
    exact hlength

theorem nodup_of_sound (hsound : registry.Sound) : initialValidators.Nodup := by
  obtain ⟨-, hvalidators, -, hstatus, -, -⟩ := initializeValidators_spec h
  have hnodup := (validatorCount_eq_ncard_iff fun a ha => by
    rw [hvalidators]
    exact (hstatus a).1 ha).1 hsound.count
  rwa [List.filter_eq_self.2 fun a ha => (hstatus a).2 (hvalidators ▸ ha), hvalidators] at hnodup

end Initialized

/-- After every successful `initialize` and for every list of calls by any
senders: the count is the number of validators, and the threshold is between
one and it, in every state of the run, if and only if the initial validators
are distinct and the owner never asks to add a removed validator again. -/
theorem sound_throughout_iff {requiredSignatures : Nat} {initialValidators : List Address}
    {owner : Address} {registry : BridgeValidators}
    (h : deployed.initializeValidators requiredSignatures initialValidators owner
      = some registry) (calls : List (Address × Call)) :
    Runs.Always step Sound registry calls ↔
      initialValidators.Nodup ∧ Runs.Along step NoReturn registry calls := by
  have hrule := @Runs.always_iff_along _ _ step NoReturn Sound Tracked (fun _ => Tracked.sound)
    (fun _ _ => Tracked.step) (fun _ _ => Tracked.noReturn_of_sound) calls registry
  constructor
  · intro halways
    have hnodup := nodup_of_sound h halways.head
    exact ⟨hnodup, (hrule (tracked_of_initialized h hnodup)).1 halways⟩
  · rintro ⟨hnodup, halong⟩
    exact (hrule (tracked_of_initialized h hnodup)).2 halong

/-- One of two validators is replaced by a new one, and both have to sign. -/
theorem sound_throughout_iff_replaced :
    ∃ registry, deployed.initializeValidators 1 [0xa1, 0xa2] 0xff = some registry ∧
      Runs.Always step Sound registry [(0xff, .removeValidator 0xa2),
        (0xff, .addValidator 0xa3), (0xff, .setRequiredSignatures 2)] := by
  exact ⟨_, rfl, (@sound_throughout_iff 1 [0xa1, 0xa2] 0xff _ rfl _).2
    ⟨by decide, by decide +kernel⟩⟩

/-- A validator is removed and added again.  The registry then counts three
validators, and a threshold of `3` passes the guard, but there are only
two. -/
theorem readded_validator_counts_twice :
    ¬ ∀ (requiredSignatures : Nat) (initialValidators : List Address) (owner : Address)
      (registry : BridgeValidators) (calls : List (Address × Call)),
      deployed.initializeValidators requiredSignatures initialValidators owner = some registry →
        Runs.Always step Sound registry calls := by
  intro halways
  have hsound := (halways 1 [0xa1, 0xa2] 0xff _ [(0xff, .removeValidator 0xa2),
    (0xff, .addValidator 0xa2), (0xff, .setRequiredSignatures 3)] rfl).last
  have htwo : ∀ registry : BridgeValidators,
      registry.currentValidators ⊆ ↑({0xa1, 0xa2} : Finset Address) →
        registry.currentValidators.ncard ≤ 2 := by
    intro registry hsub
    refine (Set.ncard_le_ncard hsub (Finset.finite_toSet _)).trans ?_
    rw [Set.ncard_coe_finset]
    decide
  refine absurd (hsound.reachable.trans (htwo _ fun a ha => ?_)) (by decide +kernel)
  have hstatus : Function.update (Function.update (Function.update (Function.update
      (fun _ => false) 0xa1 true) 0xa2 true) 0xa2 false) 0xa2 true a = true := ha
  by_contra hne
  rw [Finset.coe_insert, Finset.coe_singleton, Set.mem_insert_iff, Set.mem_singleton_iff,
    not_or] at hne
  rw [Function.update_of_ne hne.2, Function.update_of_ne hne.2, Function.update_of_ne hne.2,
    Function.update_of_ne hne.1] at hstatus
  cases hstatus

end PoaBridge.Truffle.BridgeValidators
