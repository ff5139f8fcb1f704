import PoaBridge.Message
import PoaBridge.Truffle.Validators

/-!
# The quorum check

`Helpers.hasEnoughValidSignatures` of `contracts/bridge.sol`.  It keeps the
signers that it has seen in a scratch array.  The array is as long as the list
of the allowed signers and is filled with zeros, and the loop runs to
`requiredSignatures`, which may be greater.

The check never leaves the array: every signer in it is allowed, and they are
distinct, so an array that is full holds all allowed signers, and the next
signature is refused as a duplicate.  The zero address is never counted, because
it equals a slot that is still empty, and once no slot is empty it is not one of
the allowed signers.

`quorum_checks_exact` says exactly when this check and the one of truffle
succeed.
-/

namespace PoaBridge.Contracts

open Truffle (recoverAt BridgeValidators)

section Check

variable {Digest : Type} (keccak256 : Bytes → Digest)
  (ecrecover : Digest → UInt8 → H256 → H256 → Address)

/-- The loop of the check: `count` more signatures from index `i` on.  An index
outside an array reverts. -/
def checkSignatures (recover : Nat → Option Address) (allowedSigners : List Address) :
    (count i : Nat) → (encounteredAddresses : List Address) → Option Bool
  | 0, _, _ => some true
  | count + 1, i, encounteredAddresses => do
    let recoveredAddress ← recover i
    -- only signatures by allowed addresses are allowed
    if addressArrayContains allowedSigners recoveredAddress = false then return false
    -- duplicate signatures are not allowed
    else if addressArrayContains encounteredAddresses recoveredAddress = true then return false
    else do
      require (i < encounteredAddresses.length)
      checkSignatures recover allowedSigners count (i + 1)
        (encounteredAddresses.set i recoveredAddress)

/-- `Helpers.hasEnoughValidSignatures`. -/
def hasEnoughValidSignatures (message : Bytes) (vs : List UInt8) (rs ss : List H256)
    (allowedSigners : List Address) (requiredSignatures : Nat) : Option Bool :=
  -- not enough signatures
  if vs.length < requiredSignatures then some false
  else do
    let hash ← hashMessage keccak256 message
    checkSignatures (recoverAt ecrecover hash vs rs ss) allowedSigners requiredSignatures 0
      (List.replicate allowedSigners.length 0)

/-- The addresses that the first `count` signatures recover to. -/
def recoveredAddresses (hash : Digest) (vs : List UInt8) (rs ss : List H256) (count : Nat) :
    List Address :=
  ((vs.zip (rs.zip ss)).take count).map fun p => ecrecover hash p.1 p.2.1 p.2.2

end Check

/-- The addresses are members, pairwise distinct, and none of them is zero. -/
structure Quorum (member : Address → Prop) (signers : List Address) : Prop where
  nonzero : ∀ a ∈ signers, a ≠ 0
  members : ∀ a ∈ signers, member a
  distinct : signers.Nodup

/-! ## The loop -/

/-- What the loop has seen so far. -/
structure Seen (allowedSigners before : List Address) : Prop where
  members : ∀ a ∈ before, a ∈ allowedSigners
  distinct : before.Nodup

/-- A signer that is allowed and new has a slot in the array. -/
theorem Seen.length_lt {allowedSigners before : List Address} {a : Address}
    (h : Seen allowedSigners before) (hallowed : a ∈ allowedSigners) (hnew : a ∉ before) :
    before.length < allowedSigners.length := by
  have hnodup : (a :: before).Nodup := List.nodup_cons.2 ⟨hnew, h.distinct⟩
  have hsubset : a :: before ⊆ allowedSigners := by
    intro b hb
    rcases List.mem_cons.1 hb with rfl | hb
    · exact hallowed
    · exact h.members b hb
  exact (hnodup.subperm hsubset).length_le

theorem Seen.append {allowedSigners before : List Address} {a : Address}
    (h : Seen allowedSigners before) (hallowed : a ∈ allowedSigners) (hnew : a ∉ before) :
    Seen allowedSigners (before ++ [a]) := by
  constructor
  · intro b hb
    rcases List.mem_append.1 hb with hb | hb
    · exact h.members b hb
    · exact List.mem_singleton.1 hb ▸ hallowed
  · exact (List.nodup_cons.2 ⟨hnew, h.distinct⟩).perm (List.perm_append_singleton a before).symm

/-- Taken together with the signers before them, the signers are a quorum. -/
def Completes (allowedSigners before signers : List Address) : Prop :=
  Quorum (· ∈ allowedSigners) signers ∧ ∀ a ∈ signers, a ∉ before

theorem completes_cons_iff {allowedSigners before signers : List Address} {a : Address} :
    Completes allowedSigners before (a :: signers) ↔
      (a ≠ 0 ∧ a ∈ allowedSigners ∧ a ∉ before) ∧
        Completes allowedSigners (before ++ [a]) signers := by
  have hfresh : (∀ b ∈ signers, b ∉ before ++ [a]) ↔
      (∀ b ∈ signers, b ∉ before) ∧ a ∉ signers := by
    simp only [List.mem_append, List.mem_singleton, not_or]
    constructor
    · intro h
      exact ⟨fun b hb => (h b hb).1, fun hmem => (h a hmem).2 rfl⟩
    · intro h b hb
      exact ⟨h.1 b hb, fun heq => h.2 (heq ▸ hb)⟩
  unfold Completes
  rw [hfresh]
  constructor
  · intro h
    obtain ⟨⟨hnonzero, hmembers, hdistinct⟩, hnew⟩ := h
    rw [List.forall_mem_cons] at hnonzero hmembers hnew
    rw [List.nodup_cons] at hdistinct
    exact ⟨⟨hnonzero.1, hmembers.1, hnew.1⟩, ⟨hnonzero.2, hmembers.2, hdistinct.2⟩, hnew.2,
      hdistinct.1⟩
  · intro h
    obtain ⟨⟨hzero, hallowed, hnew⟩, ⟨hnonzero, hmembers, hdistinct⟩, hbefore, hmem⟩ := h
    exact ⟨⟨List.forall_mem_cons.2 ⟨hzero, hnonzero⟩, List.forall_mem_cons.2 ⟨hallowed, hmembers⟩,
      List.nodup_cons.2 ⟨hmem, hdistinct⟩⟩, List.forall_mem_cons.2 ⟨hnew, hbefore⟩⟩

theorem checkSignatures_refused {recover : Nat → Option Address}
    {allowedSigners encountered : List Address} {count i : Nat} {a : Address}
    (hrecover : recover i = some a) (h : a ∈ allowedSigners → a ∈ encountered) :
    checkSignatures recover allowedSigners (count + 1) i encountered = some false := by
  rw [checkSignatures, hrecover]
  show (if _ then _ else _) = _
  by_cases hallowed : a ∈ allowedSigners
  · rw [if_neg (by simpa using hallowed), if_pos (by simpa using h hallowed)]
    rfl
  · rw [if_pos (by rw [Bool.eq_false_iff, ne_eq, addressArrayContains_iff]; exact hallowed)]
    rfl

theorem checkSignatures_accepted {recover : Nat → Option Address}
    {allowedSigners encountered : List Address} {count i : Nat} {a : Address}
    (hrecover : recover i = some a) (hallowed : a ∈ allowedSigners) (hnew : a ∉ encountered)
    (hi : i < encountered.length) :
    checkSignatures recover allowedSigners (count + 1) i encountered
      = checkSignatures recover allowedSigners count (i + 1) (encountered.set i a) := by
  rw [checkSignatures, hrecover]
  show (if _ then _ else _) = _
  rw [if_neg (by simpa using hallowed), if_neg (by simpa using hnew), require, if_pos hi]
  rfl

/-- Filling the first empty slot. -/
theorem set_length_append_replicate {before : List Address} {length : Nat} (a : Address)
    (h : before.length < length) :
    (before ++ List.replicate (length - before.length) 0).set before.length a
      = (before ++ [a]) ++ List.replicate (length - (before ++ [a]).length) 0 := by
  obtain ⟨k, rfl⟩ := Nat.exists_eq_add_of_lt h
  rw [List.length_append, List.length_singleton,
    show before.length + k + 1 - before.length = k + 1 by omega,
    show before.length + k + 1 - (before.length + 1) = k by omega]
  simp [List.replicate_succ]

/-- The loop returns, and it returns `true` exactly if the signatures that are
left complete the quorum. -/
theorem checkSignatures_spec {recover : Nat → Option Address} {allowedSigners : List Address}
    {signers before : List Address} (hseen : Seen allowedSigners before)
    (hrecover : ∀ j (h : j < signers.length), recover (before.length + j) = some signers[j]) :
    ∃ accepted, checkSignatures recover allowedSigners signers.length before.length
        (before ++ List.replicate (allowedSigners.length - before.length) 0) = some accepted ∧
      (accepted = true ↔ Completes allowedSigners before signers) := by
  induction signers generalizing before with
  | nil =>
    refine ⟨true, rfl, iff_of_true rfl ⟨⟨?_, ?_, List.nodup_nil⟩, ?_⟩⟩
    all_goals exact fun a ha => absurd ha List.not_mem_nil
  | cons a signers ih =>
    have hfirst : recover before.length = some a := hrecover 0 (by simp)
    rw [completes_cons_iff, List.length_cons]
    by_cases h : a ∈ allowedSigners →
        a ∈ before ++ List.replicate (allowedSigners.length - before.length) 0
    · -- a signer that is not allowed, or was seen, or is zero
      refine ⟨false, checkSignatures_refused hfirst h, by simp, fun hcompletes => ?_⟩
      obtain ⟨⟨hzero, hallowed, hnew⟩, -⟩ := hcompletes
      rcases List.mem_append.1 (h hallowed) with hmem | hmem
      · exact absurd hmem hnew
      · exact absurd (List.eq_of_mem_replicate hmem) hzero
    · obtain ⟨hallowed, hmem⟩ := Classical.not_imp.1 h
      have hnew : a ∉ before := fun hmem' => hmem (List.mem_append_left _ hmem')
      have hlt := hseen.length_lt hallowed hnew
      have hzero : a ≠ 0 := by
        intro heq
        apply hmem
        rw [heq, List.mem_append, List.mem_replicate]
        exact Or.inr ⟨by omega, rfl⟩
      have hrest : ∀ j (hj : j < signers.length),
          recover ((before ++ [a]).length + j) = some signers[j] := by
        intro j hj
        have hnext := hrecover (j + 1) (by simpa using hj)
        rw [List.length_append, List.length_singleton, Nat.add_assoc, Nat.add_comm 1 j]
        simpa using hnext
      obtain ⟨accepted, haccepted, hiff⟩ := ih (hseen.append hallowed hnew) hrest
      refine ⟨accepted, ?_, ?_⟩
      · rw [checkSignatures_accepted hfirst hallowed hmem (by simp; omega),
          set_length_append_replicate a hlt, ← haccepted, List.length_append,
          List.length_singleton]
      · rw [hiff]
        exact ⟨fun hcompletes => ⟨⟨hzero, hallowed, hnew⟩, hcompletes⟩, fun hcompletes =>
          hcompletes.2⟩

/-! ## The check -/

section Check

variable {Digest : Type} {keccak256 : Bytes → Digest}
  {ecrecover : Digest → UInt8 → H256 → H256 → Address}

/-- The signatures in reach recover to the addresses of the list. -/
theorem recoverAt_eq {hash : Digest} {vs : List UInt8} {rs ss : List H256} {count : Nat}
    (hvs : count ≤ vs.length) (hrs : count ≤ rs.length) (hss : count ≤ ss.length) :
    (recoveredAddresses ecrecover hash vs rs ss count).length = count ∧
      ∀ j (h : j < (recoveredAddresses ecrecover hash vs rs ss count).length),
        recoverAt ecrecover hash vs rs ss j
          = some (recoveredAddresses ecrecover hash vs rs ss count)[j] := by
  have hlength : (recoveredAddresses ecrecover hash vs rs ss count).length = count := by
    simp only [recoveredAddresses, List.length_map, List.length_take, List.length_zip]
    omega
  refine ⟨hlength, fun j hj => ?_⟩
  rw [hlength] at hj
  have hv : j < vs.length := by omega
  have hr : j < rs.length := by omega
  have hs : j < ss.length := by omega
  simp [recoverAt, recoveredAddresses, hv, hr, hs]

/-- The check returns for every input with enough components, and it returns
`true` exactly for a quorum of allowed signers. -/
theorem hasEnoughValidSignatures_spec {message : Bytes} (hmessage : message.length < 2 ^ 256)
    {vs : List UInt8} {rs ss : List H256} (allowedSigners : List Address)
    {requiredSignatures : Nat} (hrs : requiredSignatures ≤ rs.length)
    (hss : requiredSignatures ≤ ss.length) :
    ∃ accepted, hasEnoughValidSignatures keccak256 ecrecover message vs rs ss allowedSigners
        requiredSignatures = some accepted ∧
      (accepted = true ↔ requiredSignatures ≤ vs.length ∧
        Quorum (· ∈ allowedSigners) (recoveredAddresses ecrecover
          (ethDataHash keccak256 message) vs rs ss requiredSignatures)) := by
  unfold hasEnoughValidSignatures
  rw [hashMessage_eq_ethDataHash keccak256 hmessage]
  by_cases hvs : vs.length < requiredSignatures
  · rw [if_pos hvs]
    exact ⟨false, rfl, by simp, fun h => absurd h.1 (Nat.not_le.2 hvs)⟩
  · rw [if_neg hvs]
    obtain ⟨hlength, hrecover⟩ := @recoverAt_eq _ ecrecover (ethDataHash keccak256 message) vs rs
      ss _ (Nat.not_lt.1 hvs) hrs hss
    have hseen : Seen allowedSigners [] := ⟨by simp, List.nodup_nil⟩
    obtain ⟨accepted, haccepted, hiff⟩ := checkSignatures_spec hseen (fun j hj => by
      rw [List.length_nil, Nat.zero_add]
      exact hrecover j hj)
    rw [hlength] at haccepted
    refine ⟨accepted, haccepted, hiff.trans ⟨fun h => ⟨Nat.not_lt.1 hvs, h.1⟩, fun h => ⟨h.2, ?_⟩⟩⟩
    exact fun a _ => List.not_mem_nil

/-- The check of truffle does not revert exactly for a quorum of validators. -/
theorem truffle_hasEnoughValidSignatures_iff {message : Bytes} {vs : List UInt8}
    {rs ss : List H256} {validators : BridgeValidators}
    (hrs : validators.requiredSignatures ≤ rs.length)
    (hss : validators.requiredSignatures ≤ ss.length) :
    Truffle.hasEnoughValidSignatures keccak256 ecrecover message vs rs ss validators = some () ↔
      validators.requiredSignatures ≤ vs.length ∧
        Quorum (fun a => validators.isValidator a = true) (recoveredAddresses ecrecover
          (Truffle.hashMessage keccak256 message) vs rs ss validators.requiredSignatures) := by
  rw [Truffle.hasEnoughValidSignatures_iff]
  refine and_congr_right fun hvs => ?_
  obtain ⟨hlength, hrecover⟩ := @recoverAt_eq _ ecrecover (Truffle.hashMessage keccak256 message)
    vs rs ss _ hvs hrs hss
  constructor
  · intro h
    obtain ⟨signers, hcount, hsigners⟩ := h
    have heq : signers = recoveredAddresses ecrecover (Truffle.hashMessage keccak256 message) vs rs
        ss validators.requiredSignatures := by
      refine List.ext_getElem (hcount.trans hlength.symm) fun j hj hj' => ?_
      have hsigner := hsigners.recovered j hj
      rw [Nat.zero_add, hrecover j hj'] at hsigner
      exact (Option.some.inj hsigner).symm
    rw [← heq]
    exact ⟨hsigners.nonzero, hsigners.valid, hsigners.distinct⟩
  · intro h
    refine ⟨_, hlength, ?_, h.members, h.nonzero, fun a _ => List.not_mem_nil, h.distinct⟩
    intro j hj
    rw [Nat.zero_add]
    exact hrecover j hj

/-- The quorum checks of the two contract generations are exact, for all arrays
that have enough components: the first one always returns, with `true` for a
quorum of allowed signers, and the second one does not revert for a quorum of
validators. -/
theorem quorum_checks_exact (keccak256 : Bytes → Digest)
    (ecrecover : Digest → UInt8 → H256 → H256 → Address) (message : Bytes)
    (hmessage : message.length < 2 ^ 256) (vs : List UInt8) (rs ss : List H256)
    (allowedSigners : List Address) (requiredSignatures : Nat)
    (hrs : requiredSignatures ≤ rs.length) (hss : requiredSignatures ≤ ss.length) :
    (∃ accepted, hasEnoughValidSignatures keccak256 ecrecover message vs rs ss allowedSigners
        requiredSignatures = some accepted ∧
      (accepted = true ↔ requiredSignatures ≤ vs.length ∧
        Quorum (· ∈ allowedSigners) (recoveredAddresses ecrecover
          (ethDataHash keccak256 message) vs rs ss requiredSignatures))) ∧
    ∀ validators : BridgeValidators, validators.requiredSignatures = requiredSignatures →
      (Truffle.hasEnoughValidSignatures keccak256 ecrecover message vs rs ss validators
          = some () ↔
        requiredSignatures ≤ vs.length ∧
          Quorum (fun a => validators.isValidator a = true) (recoveredAddresses ecrecover
            (Truffle.hashMessage keccak256 message) vs rs ss requiredSignatures)) := by
  refine ⟨hasEnoughValidSignatures_spec hmessage allowedSigners hrs hss, ?_⟩
  rintro validators rfl
  exact truffle_hasEnoughValidSignatures_iff hrs hss

/-- Two signatures, of two signers that are allowed, and then both of one of them. -/
theorem quorum_checks_exact_two :
    hasEnoughValidSignatures id (fun _ _ r _ => r.setWidth 160) (List.replicate 116 0) [27, 28]
        [0xa2, 0xa1] [0, 0] [0xa1, 0, 0xa2] 2 = some true ∧
      hasEnoughValidSignatures id (fun _ _ r _ => r.setWidth 160) (List.replicate 116 0) [27, 28]
        [0xa1, 0xa1] [0, 0] [0xa1, 0, 0xa2] 2 = some false := by
  have hexact := fun rs (hrs : 2 ≤ rs.length) => (quorum_checks_exact (id : Bytes → Bytes)
    (fun _ _ r _ => r.setWidth 160) (List.replicate 116 0) (by simp) [27, 28] rs [0, 0]
    [0xa1, 0, 0xa2] 2 hrs (by decide)).1
  have hrecovered : ∀ r r' : H256, recoveredAddresses (fun _ _ r _ => r.setWidth 160)
      (ethDataHash id (List.replicate 116 0) : Bytes) [27, 28] [r, r'] [0, 0] 2
        = [r.setWidth 160, r'.setWidth 160] := fun _ _ => rfl
  refine ⟨?_, ?_⟩
  · obtain ⟨accepted, haccepted, hiff⟩ := hexact [0xa2, 0xa1] (by decide)
    rw [haccepted, hiff.2 ⟨by decide, ?_⟩]
    rw [hrecovered]
    exact ⟨by simp, by simp, by simp⟩
  · obtain ⟨accepted, haccepted, hiff⟩ := hexact [0xa1, 0xa1] (by decide)
    rw [haccepted, Option.some_inj, Bool.eq_false_iff]
    intro htrue
    have hquorum := (hiff.1 htrue).2
    rw [hrecovered] at hquorum
    exact absurd hquorum.distinct (by simp)

end Check

end PoaBridge.Contracts
