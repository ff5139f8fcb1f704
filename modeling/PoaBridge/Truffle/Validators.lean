import Mathlib.Data.List.Nodup
import PoaBridge.Solidity

/-!
# `BridgeValidators`

The validator registry of `truffle/contracts/BridgeValidators.sol`, and the
two things that the bridge contracts read from it: `isValidator` and
`requiredSignatures`.

The module ends with the quorum check `Message.hasEnoughValidSignatures` of
`truffle/contracts/libraries/helpers.sol`, which takes the registry as an
argument.  `hasEnoughValidSignatures_iff` says exactly when it does not
revert.
-/

namespace PoaBridge.Truffle

/-! ## The contract -/

/-- The storage of the contract.  The events are read by nobody here. -/
structure BridgeValidators where
  requiredSignatures : Nat
  owner : Address
  validators : List Address
  validatorStatus : Address → Bool
  initialized : Bool

namespace BridgeValidators

/-- The storage after the deployment. -/
def deployed : BridgeValidators where
  requiredSignatures := 0
  owner := 0
  validators := []
  validatorStatus := fun _ => false
  initialized := false

/-- `isValidator`. -/
def isValidator (self : BridgeValidators) (validator : Address) : Bool :=
  self.validatorStatus validator

/-- `validatorCount`: the loop counts the entries of the array that are
validators now. -/
def validatorCount (self : BridgeValidators) : Nat :=
  self.validators.countP self.isValidator

/-- `validators.push(v); validatorStatus[v] = true`. -/
def pushValidator (self : BridgeValidators) (validator : Address) : BridgeValidators :=
  { self with
    validators := self.validators ++ [validator]
    validatorStatus := Function.update self.validatorStatus validator true }

/-- The loop of `initialize` over the initial validators. -/
def pushValidators (self : BridgeValidators) : List Address → Option BridgeValidators
  | [] => some self
  | validator :: rest =>
    if validator = 0 then none else (self.pushValidator validator).pushValidators rest

/-- `initialize`. -/
def initializeValidators (self : BridgeValidators) (requiredSignatures : Nat)
    (initialValidators : List Address) (owner : Address) : Option BridgeValidators := do
  require (self.initialized = false)
  require (requiredSignatures ≠ 0)
  require (requiredSignatures ≤ initialValidators.length)
  let self ← { self with owner := owner }.pushValidators initialValidators
  return { self with requiredSignatures := requiredSignatures, initialized := true }

/-- `addValidator`, `external onlyOwner`. -/
def addValidator (self : BridgeValidators) (sender validator : Address) :
    Option BridgeValidators := do
  require (sender = self.owner)
  require (validator ≠ 0)
  require (self.isValidator validator = false)
  return self.pushValidator validator

/-- `removeValidator`, `external onlyOwner`. -/
def removeValidator (self : BridgeValidators) (sender validator : Address) :
    Option BridgeValidators := do
  require (sender = self.owner)
  require (self.requiredSignatures < self.validatorCount)
  require (self.isValidator validator = true)
  return { self with
    validatorStatus := Function.update self.validatorStatus validator false }

/-- `setRequiredSignatures`, `external onlyOwner`. -/
def setRequiredSignatures (self : BridgeValidators) (sender : Address)
    (requiredSignatures : Nat) : Option BridgeValidators := do
  require (sender = self.owner)
  require (requiredSignatures ≤ self.validatorCount)
  require (requiredSignatures ≠ 0)
  return { self with requiredSignatures := requiredSignatures }

/-- A call of one of the functions that change the registry. -/
inductive Call where
  | initializeValidators (requiredSignatures : Nat) (initialValidators : List Address)
      (owner : Address)
  | addValidator (validator : Address)
  | removeValidator (validator : Address)
  | setRequiredSignatures (requiredSignatures : Nat)
deriving DecidableEq

/-- The dispatch of a call by `sender`. -/
def call (self : BridgeValidators) (sender : Address) : Call → Option BridgeValidators
  | .initializeValidators requiredSignatures initialValidators owner =>
    self.initializeValidators requiredSignatures initialValidators owner
  | .addValidator validator => self.addValidator sender validator
  | .removeValidator validator => self.removeValidator sender validator
  | .setRequiredSignatures requiredSignatures =>
    self.setRequiredSignatures sender requiredSignatures

/-- The threshold that a call sets, if it sets one. -/
def Call.threshold : Call → Option Nat
  | .initializeValidators requiredSignatures _ _ => some requiredSignatures
  | .setRequiredSignatures requiredSignatures => some requiredSignatures
  | _ => none

theorem call_requiredSignatures {self self' : BridgeValidators} {sender : Address} {call : Call}
    (h : self.call sender call = some self') :
    self'.requiredSignatures = call.threshold.getD self.requiredSignatures := by
  cases call with
  | initializeValidators requiredSignatures initialValidators owner =>
    simp only [BridgeValidators.call, initializeValidators, require_bind_eq_some] at h
    obtain ⟨-, -, -, h⟩ := h
    rw [Option.bind_eq_bind, Option.bind_eq_some_iff] at h
    obtain ⟨pushed, -, h⟩ := h
    rw [← Option.some.inj h]
    rfl
  | addValidator validator =>
    simp only [BridgeValidators.call, addValidator, require_bind_eq_some] at h
    rw [← Option.some.inj h.2.2.2]
    rfl
  | removeValidator validator =>
    simp only [BridgeValidators.call, removeValidator, require_bind_eq_some] at h
    rw [← Option.some.inj h.2.2.2]
    rfl
  | setRequiredSignatures requiredSignatures =>
    simp only [BridgeValidators.call, setRequiredSignatures, require_bind_eq_some] at h
    rw [← Option.some.inj h.2.2.2]
    rfl

theorem pushValidator_isValidator_zero {self : BridgeValidators} {validator : Address}
    (h : validator ≠ 0) : (self.pushValidator validator).isValidator 0 = self.isValidator 0 :=
  Function.update_of_ne (Ne.symm h) _ _

theorem pushValidators_isValidator_zero {validators : List Address}
    {self self' : BridgeValidators} (h : self.pushValidators validators = some self')
    (hzero : self.isValidator 0 = false) : self'.isValidator 0 = false := by
  induction validators generalizing self with
  | nil =>
    rw [← Option.some.inj h]
    exact hzero
  | cons validator rest ih =>
    rw [pushValidators] at h
    split at h
    · cases h
    · rename_i hne
      exact ih h ((pushValidator_isValidator_zero hne).trans hzero)

/-- The zero address never becomes a validator. -/
theorem call_isValidator_zero {self self' : BridgeValidators} {sender : Address} {call : Call}
    (h : self.call sender call = some self') (hzero : self.isValidator 0 = false) :
    self'.isValidator 0 = false := by
  cases call with
  | initializeValidators requiredSignatures initialValidators owner =>
    simp only [BridgeValidators.call, initializeValidators, require_bind_eq_some] at h
    obtain ⟨-, -, -, h⟩ := h
    obtain ⟨pushed, hpushed, h⟩ := Option.bind_eq_some_iff.1 h
    have hpushed' : pushed.isValidator 0 = false :=
      pushValidators_isValidator_zero hpushed hzero
    rw [← Option.some.inj h]
    exact hpushed'
  | addValidator validator =>
    simp only [BridgeValidators.call, addValidator, require_bind_eq_some] at h
    obtain ⟨-, hne, -, h⟩ := h
    rw [← Option.some.inj h]
    exact (pushValidator_isValidator_zero hne).trans hzero
  | removeValidator validator =>
    simp only [BridgeValidators.call, removeValidator, require_bind_eq_some] at h
    obtain ⟨-, -, -, h⟩ := h
    rw [← Option.some.inj h]
    show Function.update self.validatorStatus validator false 0 = false
    by_cases heq : (0 : Address) = validator
    · rw [← heq, Function.update_self]
    · rw [Function.update_of_ne heq]
      exact hzero
  | setRequiredSignatures requiredSignatures =>
    simp only [BridgeValidators.call, setRequiredSignatures, require_bind_eq_some] at h
    rw [← Option.some.inj h.2.2.2]
    exact hzero

theorem pushValidators_frame {validators : List Address} {self self' : BridgeValidators}
    (h : self.pushValidators validators = some self') :
    self'.owner = self.owner ∧
      ∀ a, self'.isValidator a = true ↔ self.isValidator a = true ∨ a ∈ validators := by
  induction validators generalizing self with
  | nil =>
    rw [← Option.some.inj h]
    exact ⟨rfl, by simp⟩
  | cons validator rest ih =>
    rw [pushValidators] at h
    split at h
    · cases h
    · obtain ⟨howner, hvalidators⟩ := ih h
      refine ⟨howner, fun a => ?_⟩
      rw [hvalidators, List.mem_cons]
      show Function.update self.validatorStatus validator true a = true ∨ _ ↔ _
      by_cases heq : a = validator
      · simp [heq]
      · rw [Function.update_of_ne heq]
        simp [heq, isValidator]

end BridgeValidators

/-- A registry that was initialized, and whose owner leaves it as it is. -/
structure FixedRegistry where
  requiredSignatures : Nat
  initialValidators : List Address
  owner : Address
  validators : BridgeValidators
  initialized : BridgeValidators.deployed.initializeValidators requiredSignatures
    initialValidators owner = some validators

namespace FixedRegistry

/-- The registry that a successful `initialize` leaves. -/
def ofInitialize (requiredSignatures : Nat) (initialValidators : List Address)
    (owner : Address) (h : (BridgeValidators.deployed.initializeValidators requiredSignatures
      initialValidators owner).isSome) : FixedRegistry :=
  ⟨requiredSignatures, initialValidators, owner, _, Option.some_get h |>.symm⟩

/-- Two of three, for examples. -/
def twoOfThree : FixedRegistry := ofInitialize 2 [0xa1, 0xa2, 0xa3] 0xff (by decide)

variable (self : FixedRegistry)

/-- What `initialize` has checked and written. -/
theorem spec :
    1 ≤ self.requiredSignatures ∧
      self.validators.requiredSignatures = self.requiredSignatures ∧
      self.validators.owner = self.owner ∧ self.validators.initialized = true ∧
      ∀ a, self.validators.isValidator a = true ↔ a ∈ self.initialValidators := by
  have h := self.initialized
  simp only [BridgeValidators.initializeValidators, require_bind_eq_some] at h
  obtain ⟨-, hpositive, -, h⟩ := h
  obtain ⟨pushed, hpushed, h⟩ := Option.bind_eq_some_iff.1 h
  obtain ⟨howner, hvalidators⟩ := BridgeValidators.pushValidators_frame hpushed
  rw [← Option.some.inj h]
  refine ⟨Nat.one_le_iff_ne_zero.2 hpositive, rfl, howner, rfl, fun a => ?_⟩
  show pushed.isValidator a = true ↔ _
  rw [hvalidators]
  simp [BridgeValidators.isValidator, BridgeValidators.deployed]

/-- Nobody but the owner can change the registry. -/
theorem call_eq_none {sender : Address} (h : sender ≠ self.owner)
    (call : BridgeValidators.Call) : self.validators.call sender call = none := by
  obtain ⟨-, -, howner, hinitialized, -⟩ := self.spec
  have hsender : ¬ sender = self.validators.owner := by
    rw [howner]
    exact h
  cases call with
  | initializeValidators requiredSignatures initialValidators owner =>
    simp [BridgeValidators.call, BridgeValidators.initializeValidators, require, hinitialized]
  | addValidator validator =>
    simp [BridgeValidators.call, BridgeValidators.addValidator, require, hsender]
  | removeValidator validator =>
    simp [BridgeValidators.call, BridgeValidators.removeValidator, require, hsender]
  | setRequiredSignatures requiredSignatures =>
    simp [BridgeValidators.call, BridgeValidators.setRequiredSignatures, require, hsender]

end FixedRegistry

/-! ## The environment of the contracts -/

/-- What the contracts of one chain see around them: the EVM functions, the
address of the bridge itself and the address of its validator registry. -/
structure Evm (Digest : Type) where
  keccak256 : Bytes → Digest
  ecrecover : Digest → UInt8 → H256 → H256 → Address
  bridge : Address
  validators : Address

/-- The target of an external call to `validatorContract`, which is stored as an
address.  A call of an address without the registry reverts. -/
def Evm.registryAt {Digest : Type} (env : Evm Digest) (validators : BridgeValidators)
    (validatorContract : Address) : Option BridgeValidators :=
  if validatorContract = env.validators then some validators else none

theorem Evm.registryAt_eq_some {Digest : Type} {env : Evm Digest}
    {validators validators' : BridgeValidators} {validatorContract : Address} :
    env.registryAt validators validatorContract = some validators' ↔
      validatorContract = env.validators ∧ validators' = validators := by
  unfold Evm.registryAt
  split <;> simp_all [eq_comm]

/-- An EVM for examples.  Its hash is the identity, which never collides, and
its signatures name their signer in `r`. -/
def transparentEvm : Evm Bytes where
  keccak256 := id
  ecrecover := fun _ _ r _ => r.setWidth 160
  bridge := 0xb1
  validators := 0xb2

/-! ## The quorum check -/

section Quorum

variable {Digest : Type} (keccak256 : Bytes → Digest)
  (ecrecover : Digest → UInt8 → H256 → H256 → Address)

/-- `Message.hashMessage` of truffle: the length text is the constant
`"116"`. -/
def hashMessage (message : Bytes) : Digest :=
  keccak256 (signedMessagePrefix ++ asciiBytes "116" ++ message)

/-- `ecrecover(hash, _vs[i], _rs[i], _ss[i])`; an index outside an array
reverts. -/
def recoverAt (hash : Digest) (vs : List UInt8) (rs ss : List H256) (i : Nat) :
    Option Address := do
  let v ← vs[i]?
  let r ← rs[i]?
  let s ← ss[i]?
  return ecrecover hash v r s

/-- The loop of the quorum check: `count` more signatures from index `i` on.
`encountered` is the array of the recovered addresses, with zeros in the slots
that are not filled yet. -/
def checkSignatures (recover : Nat → Option Address) (isValidator : Address → Bool) :
    (count i : Nat) → (encountered : List Address) → Option Unit
  | 0, _, _ => some ()
  | count + 1, i, encountered => do
    let recovered ← recover i
    require (isValidator recovered = true)
    require (addressArrayContains encountered recovered = false)
    checkSignatures recover isValidator count (i + 1) (encountered.set i recovered)

/-- `Message.hasEnoughValidSignatures` of truffle. -/
def hasEnoughValidSignatures (message : Bytes) (vs : List UInt8) (rs ss : List H256)
    (validatorContract : BridgeValidators) : Option Unit := do
  let requiredSignatures := validatorContract.requiredSignatures
  require (requiredSignatures ≤ vs.length)
  checkSignatures (recoverAt ecrecover (hashMessage keccak256 message) vs rs ss)
    validatorContract.isValidator requiredSignatures 0 (List.replicate requiredSignatures 0)

/-- The signers that a successful check has seen, in index order. -/
structure Signers (recover : Nat → Option Address) (isValidator : Address → Bool)
    (start : Nat) (before signers : List Address) : Prop where
  recovered : ∀ j (h : j < signers.length), recover (start + j) = some signers[j]
  valid : ∀ a ∈ signers, isValidator a = true
  nonzero : ∀ a ∈ signers, a ≠ 0
  fresh : ∀ a ∈ signers, a ∉ before
  distinct : signers.Nodup

theorem signers_cons_iff {recover : Nat → Option Address} {isValidator : Address → Bool}
    {before signers : List Address} {a : Address} :
    Signers recover isValidator before.length before (a :: signers) ↔
      (recover before.length = some a ∧ isValidator a = true ∧ a ≠ 0 ∧ a ∉ before) ∧
        Signers recover isValidator (before ++ [a]).length (before ++ [a]) signers := by
  constructor
  · rintro ⟨hrec, hvalid, hzero, hfresh, hnodup⟩
    rw [List.nodup_cons] at hnodup
    refine ⟨⟨hrec 0 (by simp), hvalid a (by simp), hzero a (by simp), hfresh a (by simp)⟩,
      ?_, fun b hb => hvalid b (by simp [hb]), fun b hb => hzero b (by simp [hb]), ?_,
      hnodup.2⟩
    · intro j hj
      have := hrec (j + 1) (by simpa using hj)
      simpa [Nat.add_assoc, Nat.add_comm 1 j] using this
    · intro b hb hmem
      rcases List.mem_append.1 hmem with hmem | hmem
      · exact hfresh b (by simp [hb]) hmem
      · exact hnodup.1 (List.mem_singleton.1 hmem ▸ hb)
  · rintro ⟨⟨hrec0, hvalid0, hzero0, hfresh0⟩, ⟨hrec, hvalid, hzero, hfresh, hnodup⟩⟩
    refine ⟨?_, ?_, ?_, ?_, List.nodup_cons.2 ⟨?_, hnodup⟩⟩
    · intro j hj
      cases j with
      | zero => exact hrec0
      | succ j =>
        have := hrec j (by simpa using hj)
        simpa [Nat.add_assoc, Nat.add_comm 1 j] using this
    · exact List.forall_mem_cons.2 ⟨hvalid0, hvalid⟩
    · exact List.forall_mem_cons.2 ⟨hzero0, hzero⟩
    · refine List.forall_mem_cons.2 ⟨hfresh0, fun b hb hmem => ?_⟩
      exact hfresh b hb (List.mem_append_left _ hmem)
    · exact fun hmem => hfresh a hmem (by simp)

/-- The loop runs to its end exactly when every remaining signature recovers to
a validator that is not zero and not an earlier signer.  The zero address is
refused because the slot of the signature itself is still zero. -/
theorem checkSignatures_iff {recover : Nat → Option Address} {isValidator : Address → Bool}
    {count : Nat} {before : List Address} :
    checkSignatures recover isValidator count before.length
        (before ++ List.replicate count 0) = some () ↔
      ∃ signers : List Address, signers.length = count ∧
        Signers recover isValidator before.length before signers := by
  induction count generalizing before with
  | zero =>
    simp only [checkSignatures, List.length_eq_zero_iff, true_iff]
    exact ⟨[], rfl, by simp, by simp, by simp, by simp, by simp⟩
  | succ count ih =>
    have hset : ∀ a : Address,
        (before ++ List.replicate (count + 1) 0).set before.length a
          = (before ++ [a]) ++ List.replicate count 0 := by
      intro a
      simp [List.replicate_succ]
    have hstep : checkSignatures recover isValidator (count + 1) before.length
          (before ++ List.replicate (count + 1) 0) = some () ↔
        ∃ a, (recover before.length = some a ∧ isValidator a = true ∧ a ≠ 0 ∧ a ∉ before) ∧
          checkSignatures recover isValidator count (before ++ [a]).length
            ((before ++ [a]) ++ List.replicate count 0) = some () := by
      have hcontains : ∀ a : Address,
          addressArrayContains (before ++ List.replicate (count + 1) 0) a = false
            ↔ a ≠ 0 ∧ a ∉ before := by
        intro a
        rw [Bool.eq_false_iff, ne_eq, addressArrayContains_iff, List.mem_append,
          List.mem_replicate]
        tauto
      rw [checkSignatures, Option.bind_eq_bind, Option.bind_eq_some_iff]
      simp only [require_bind_eq_some, hset, hcontains, List.length_append,
        List.length_singleton]
      simp only [and_assoc]
    rw [hstep]
    constructor
    · rintro ⟨a, ha, hrest⟩
      obtain ⟨signers, hlen, hsigners⟩ := ih.1 hrest
      exact ⟨a :: signers, by simp [hlen], signers_cons_iff.2 ⟨ha, hsigners⟩⟩
    · rintro ⟨signers, hlen, hsigners⟩
      obtain ⟨a, signers, rfl⟩ := List.exists_cons_of_length_eq_add_one hlen
      obtain ⟨ha, hrest⟩ := signers_cons_iff.1 hsigners
      exact ⟨a, ha, ih.2 ⟨signers, by simpa using hlen, hrest⟩⟩

/-- The quorum check does not revert exactly when the first
`requiredSignatures` signatures recover to that many distinct validators,
none of them zero. -/
theorem hasEnoughValidSignatures_iff {message : Bytes} {vs : List UInt8} {rs ss : List H256}
    {validatorContract : BridgeValidators} :
    hasEnoughValidSignatures keccak256 ecrecover message vs rs ss validatorContract
        = some () ↔
      validatorContract.requiredSignatures ≤ vs.length ∧
      ∃ signers : List Address, signers.length = validatorContract.requiredSignatures ∧
        Signers (recoverAt ecrecover (hashMessage keccak256 message) vs rs ss)
          validatorContract.isValidator 0 [] signers := by
  have h := @checkSignatures_iff
    (recoverAt ecrecover (hashMessage keccak256 message) vs rs ss)
    validatorContract.isValidator validatorContract.requiredSignatures []
  rw [hasEnoughValidSignatures, require_bind_eq_some]
  exact and_congr_right fun _ => h

/-- Signatures of enough distinct validators pass the quorum check, also when
there are more of them than it looks at. -/
theorem hasEnoughValidSignatures_of_signers {message : Bytes} {vs : List UInt8}
    {rs ss : List H256} {validatorContract : BridgeValidators} {signers : List Address}
    (hlength : validatorContract.requiredSignatures ≤ signers.length)
    (hrecovered : ∀ j (h : j < signers.length),
      recoverAt ecrecover (hashMessage keccak256 message) vs rs ss j = some signers[j])
    (hvalid : ∀ a ∈ signers, validatorContract.isValidator a = true)
    (hnonzero : ∀ a ∈ signers, a ≠ 0) (hnodup : signers.Nodup) :
    hasEnoughValidSignatures keccak256 ecrecover message vs rs ss validatorContract
      = some () := by
  rw [hasEnoughValidSignatures_iff]
  have htake : ∀ a ∈ signers.take validatorContract.requiredSignatures, a ∈ signers :=
    fun a => List.mem_of_mem_take
  refine ⟨?_, signers.take validatorContract.requiredSignatures, by simp [hlength],
    ?_, ?_, ?_, ?_, ?_⟩
  · by_contra hlt
    rw [not_le] at hlt
    have := hrecovered vs.length (hlt.trans_le hlength)
    simp [recoverAt] at this
  · intro j hj
    have hj' : j < signers.length := lt_of_lt_of_le hj (by simp)
    rw [Nat.zero_add, hrecovered j hj', List.getElem_take]
  · exact fun a ha => hvalid a (htake a ha)
  · exact fun a ha => hnonzero a (htake a ha)
  · exact fun a _ => List.not_mem_nil
  · exact hnodup.sublist (List.take_sublist _ _)

end Quorum

end PoaBridge.Truffle
