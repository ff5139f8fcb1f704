import Mathlib.Data.Finset.Card
import Mathlib.Data.List.Count
import PoaBridge.Solidity

/-!
# `ForeignBridge` of `contracts/bridge.sol`

The collection of signatures.  The contract keeps three mappings for it, which
are addressed by hashes: `messages` by the hash of the message, `signatures` by
the hash and the index of the signature, and the duplicate mark and the counter
by the hash of the sender and the hash of the message.

The counter is the one that decides about the threshold, and it counts what one
sender has submitted.  It is always `1` in a call that succeeds.
`collectsOnce_iff` says what this means for a message: the collection works as
intended exactly as long as the threshold is not reached, or when the threshold
is `1` and nobody else submits.

`Collected` is the invariant of a run for one message.
-/

namespace PoaBridge.Contracts

open BigEndian

/-! ## The contract -/

/-- The EVM functions.  `digestBytes` are the bytes of a digest in the argument
of another hash. -/
structure Evm (Digest : Type) where
  keccak256 : Bytes → Digest
  ecrecover : Digest → UInt8 → H256 → H256 → Address
  digestBytes : Digest → Bytes

inductive ForeignEvent (Digest : Type) where
  | collectedSignatures (authorityResponsibleForRelay : Address) (messageHash : Digest)
      (numberOfCollectedSignatures : Nat)
deriving DecidableEq

/-- The storage that the collection of signatures uses. -/
structure ForeignBridge (Digest : Type) where
  requiredSignatures : Nat
  authorities : Address → Bool
  messages : Digest → Bytes
  signatures : Digest → Bytes
  messagesSigned : Digest → Bool
  numMessagesSigned : Digest → Nat
  /-- The events emitted so far. -/
  logs : List (ForeignEvent Digest)

/-- The arguments of `submitSignature`.  `rest` is the memory behind the
signature. -/
structure Submission where
  sender : Address
  signature : Bytes
  message : Bytes
  rest : Memory

variable {Digest : Type}

namespace Evm

/-- `keccak256(msg.sender, hash)`. -/
def hashSender (env : Evm Digest) (sender : Address) (hash : Digest) : Digest :=
  env.keccak256 (addressBytes sender ++ env.digestBytes hash)

/-- `keccak256(hash, index)`. -/
def signIdx (env : Evm Digest) (hash : Digest) (index : Nat) : Digest :=
  env.keccak256 (env.digestBytes hash ++ wordBytes (BitVec.ofNat 256 index))

end Evm

namespace ForeignBridge

/-- The constructor. -/
def deploy (requiredSignatures : Nat) (authorities : List Address) :
    Option (ForeignBridge Digest) := do
  require (requiredSignatures ≠ 0)
  require (requiredSignatures ≤ authorities.length)
  return {
    requiredSignatures := requiredSignatures
    authorities := fun a => authorities.contains a
    messages := fun _ => []
    signatures := fun _ => []
    messagesSigned := fun _ => false
    numMessagesSigned := fun _ => 0
    logs := [] }

variable [DecidableEq Digest]

/-- `submitSignature` after its checks: the counter, the duplicate mark and the
writes. -/
def collect (self : ForeignBridge Digest) (env : Evm Digest) (c : Submission) :
    Option (ForeignBridge Digest) := do
  let hash := env.keccak256 c.message
  let hashSender := env.hashSender c.sender hash
  let signed := self.numMessagesSigned hashSender + 1
  let self ←
    if signed > 1 then do
      -- duplicated signatures
      require (self.messagesSigned hashSender = false)
      pure self
    else
      pure { self with messages := Function.update self.messages hash c.message }
  let self := { self with
    messagesSigned := Function.update self.messagesSigned hashSender true
    signatures := Function.update self.signatures (env.signIdx hash (signed - 1)) c.signature
    numMessagesSigned := Function.update self.numMessagesSigned hashSender signed }
  if signed = self.requiredSignatures then
    return { self with logs := self.logs ++ [.collectedSignatures c.sender hash signed] }
  else
    return self

/-- `submitSignature`, `public onlyAuthority()`. -/
def submitSignature (self : ForeignBridge Digest) (env : Evm Digest) (c : Submission) :
    Option (ForeignBridge Digest) := do
  require (self.authorities c.sender = true)
  let recovered ← recoverAddressFromSignedMessage env.keccak256 env.ecrecover c.signature
    c.message c.rest
  require (c.sender = recovered)
  require (c.message.length = 116)
  self.collect env c

/-- `signature`. -/
def signature (self : ForeignBridge Digest) (env : Evm Digest) (hash : Digest) (index : Nat) :
    Bytes :=
  self.signatures (env.signIdx hash index)

/-- `message`. -/
def message (self : ForeignBridge Digest) (hash : Digest) : Bytes := self.messages hash

/-- A reverted transaction changes nothing. -/
def step (env : Evm Digest) (self : ForeignBridge Digest) (c : Submission) :
    ForeignBridge Digest :=
  (self.submitSignature env c).getD self

def run (env : Evm Digest) (self : ForeignBridge Digest) (calls : List Submission) :
    ForeignBridge Digest :=
  calls.foldl (step env) self

/-- How often `CollectedSignatures(_, hash, number)` was emitted. -/
def collected (self : ForeignBridge Digest) (hash : Digest) (number : Nat) : Nat :=
  self.logs.countP fun
    | .collectedSignatures _ h n => h = hash ∧ n = number

/-! ## What a call does -/

/-- The storage after a call that succeeds. -/
def submitted (self : ForeignBridge Digest) (env : Evm Digest) (c : Submission) :
    ForeignBridge Digest :=
  let hash := env.keccak256 c.message
  let hashSender := env.hashSender c.sender hash
  let signed := self.numMessagesSigned hashSender + 1
  { self with
    messages := if signed > 1 then self.messages
      else Function.update self.messages hash c.message
    messagesSigned := Function.update self.messagesSigned hashSender true
    signatures := Function.update self.signatures (env.signIdx hash (signed - 1)) c.signature
    numMessagesSigned := Function.update self.numMessagesSigned hashSender signed
    logs := if signed = self.requiredSignatures
      then self.logs ++ [.collectedSignatures c.sender hash signed] else self.logs }

/-- What a call checks before it writes, apart from the duplicate mark: an
authority submits its signature of a message of the right length. -/
structure Valid (env : Evm Digest) (authorities : Address → Bool) (c : Submission) : Prop where
  authority : authorities c.sender = true
  recovered : recoverAddressFromSignedMessage env.keccak256 env.ecrecover c.signature
    c.message c.rest = some c.sender
  length : c.message.length = 116

instance (env : Evm Digest) (authorities : Address → Bool) (c : Submission) :
    Decidable (Valid env authorities c) :=
  decidable_of_iff (authorities c.sender = true ∧
      recoverAddressFromSignedMessage env.keccak256 env.ecrecover c.signature c.message c.rest
        = some c.sender ∧ c.message.length = 116)
    ⟨fun h => ⟨h.1, h.2.1, h.2.2⟩, fun h => ⟨h.authority, h.recovered, h.length⟩⟩

theorem collect_eq (self : ForeignBridge Digest) (env : Evm Digest) (c : Submission) :
    self.collect env c =
      if 0 < self.numMessagesSigned (env.hashSender c.sender (env.keccak256 c.message)) ∧
          self.messagesSigned (env.hashSender c.sender (env.keccak256 c.message)) = true
      then none else some (self.submitted env c) := by
  unfold collect submitted
  dsimp only
  generalize env.hashSender c.sender (env.keccak256 c.message) = hashSender
  by_cases hnum : 0 < self.numMessagesSigned hashSender
  · have hsigned : self.numMessagesSigned hashSender + 1 > 1 := by omega
    rw [if_pos hsigned, if_pos hsigned]
    cases hmark : self.messagesSigned hashSender with
    | true =>
      rw [if_pos ⟨hnum, rfl⟩]
      rfl
    | false =>
      rw [if_neg (by simp)]
      show (if _ then _ else _) = _
      split <;> rfl
  · have hsigned : ¬ self.numMessagesSigned hashSender + 1 > 1 := by omega
    rw [if_neg hsigned, if_neg hsigned, if_neg fun h => hnum h.1]
    show (if _ then _ else _) = _
    split <;> rfl

theorem submitSignature_eq_some {self self' : ForeignBridge Digest} {env : Evm Digest}
    {c : Submission} :
    self.submitSignature env c = some self' ↔
      Valid env self.authorities c ∧
        (0 < self.numMessagesSigned (env.hashSender c.sender (env.keccak256 c.message)) →
          self.messagesSigned (env.hashSender c.sender (env.keccak256 c.message)) = false) ∧
        self' = self.submitted env c := by
  unfold submitSignature
  rw [require_bind_eq_some, Option.bind_eq_bind, Option.bind_eq_some_iff]
  simp only [require_bind_eq_some, collect_eq]
  constructor
  · rintro ⟨hauthority, recovered, hrecovered, rfl, hlength, hcollect⟩
    refine ⟨⟨hauthority, hrecovered, hlength⟩, ?_⟩
    split at hcollect
    · cases hcollect
    · rename_i hfresh
      exact ⟨fun hnum => Bool.eq_false_iff.2 fun hmark => hfresh ⟨hnum, hmark⟩,
        (Option.some.inj hcollect).symm⟩
  · rintro ⟨⟨hauthority, hrecovered, hlength⟩, hfresh, rfl⟩
    refine ⟨hauthority, c.sender, hrecovered, rfl, hlength, if_neg ?_⟩
    rintro ⟨hnum, hmark⟩
    rw [hfresh hnum] at hmark
    cases hmark

end ForeignBridge

namespace Evm

variable {env : Evm Digest} (hkeccak : Function.Injective env.keccak256)
  (hbytes : Function.Injective env.digestBytes)

include hkeccak hbytes

theorem hashSender_inj {a b : Address} {h h' : Digest}
    (heq : env.hashSender a h = env.hashSender b h') : a = b ∧ h = h' := by
  have hsplit := List.append_inj (hkeccak heq) (by simp)
  exact ⟨addressBytes_inj hsplit.1, hbytes hsplit.2⟩

theorem signIdx_inj {h h' : Digest} {i j : Nat} (heq : env.signIdx h i = env.signIdx h' j) :
    h = h' :=
  hbytes (List.append_inj_left' (hkeccak heq) (by simp))

end Evm

namespace ForeignBridge

variable [DecidableEq Digest]

/-! ## The collection of one message -/

/-- The authorities that have submitted a valid signature of the message. -/
def submitters (env : Evm Digest) (authorities : Address → Bool) (message : Bytes)
    (calls : List Submission) : Finset Address :=
  ((calls.filter fun c => decide (Valid env authorities c ∧ c.message = message)).map
    Submission.sender).toFinset

omit [DecidableEq Digest] in
theorem submitters_append (env : Evm Digest) (authorities : Address → Bool) (message : Bytes)
    (calls : List Submission) (c : Submission) :
    submitters env authorities message (calls ++ [c]) =
      if Valid env authorities c ∧ c.message = message
      then insert c.sender (submitters env authorities message calls)
      else submitters env authorities message calls := by
  unfold submitters
  rw [List.filter_append, List.map_append, List.toFinset_append]
  split
  · rename_i hvalid
    rw [List.filter_cons_of_pos (by simpa using hvalid)]
    ext a
    simp
  · rename_i hvalid
    rw [List.filter_cons_of_neg (by simpa using hvalid)]
    simp

/-- The signature recovers to the address. -/
def Recovers (env : Evm Digest) (signature message : Bytes) (a : Address) : Prop :=
  ∀ rest, recoverAddressFromSignedMessage env.keccak256 env.ecrecover signature message rest
    = some a

/-- The invariant of a run for one message. -/
structure Collected (env : Evm Digest) (start : ForeignBridge Digest) (m : Bytes)
    (submitters : Finset Address) (bridge : ForeignBridge Digest) : Prop where
  requiredSignatures : bridge.requiredSignatures = start.requiredSignatures
  authorities : bridge.authorities = start.authorities
  number : ∀ a, bridge.numMessagesSigned (env.hashSender a (env.keccak256 m))
    = if a ∈ submitters then 1 else 0
  marked : ∀ a, bridge.messagesSigned (env.hashSender a (env.keccak256 m))
    = decide (a ∈ submitters)
  events : bridge.collected (env.keccak256 m) start.requiredSignatures
    = if start.requiredSignatures = 1 then submitters.card else 0
  slot : submitters.Nonempty → bridge.message (env.keccak256 m) = m ∧
    ∃ a ∈ submitters, Recovers env (bridge.signature env (env.keccak256 m) 0) m a

section Runs

variable {env : Evm Digest} {start bridge : ForeignBridge Digest} {m : Bytes}
  {submitted : Finset Address}

/-- A call for another message touches none of the places of this one. -/
theorem collected_other (hkeccak : Function.Injective env.keccak256)
    (hbytes : Function.Injective env.digestBytes)
    (h : Collected env start m submitted bridge) {c : Submission} (hother : c.message ≠ m) :
    Collected env start m submitted (bridge.submitted env c) := by
  have hhash : env.keccak256 m ≠ env.keccak256 c.message := fun heq => hother (hkeccak heq).symm
  have hsender : ∀ a, env.hashSender a (env.keccak256 m)
      ≠ env.hashSender c.sender (env.keccak256 c.message) :=
    fun a heq => hhash (Evm.hashSender_inj hkeccak hbytes heq).2
  refine ⟨h.requiredSignatures, h.authorities, ?_, ?_, ?_, ?_⟩
  · intro a
    rw [← h.number a]
    exact Function.update_of_ne (hsender a) _ _
  · intro a
    rw [← h.marked a]
    exact Function.update_of_ne (hsender a) _ _
  · rw [← h.events]
    unfold collected
    show (if _ then _ else _ : List (ForeignEvent Digest)).countP _ = _
    split
    · rw [List.countP_append, List.countP_singleton]
      simp [Ne.symm hhash]
    · rfl
  · intro hnonempty
    obtain ⟨hmessage, hsignature⟩ := h.slot hnonempty
    constructor
    · unfold message ForeignBridge.submitted
      dsimp only
      split
      · exact hmessage
      · rw [Function.update_of_ne hhash]
        exact hmessage
    · have hslot : (bridge.submitted env c).signature env (env.keccak256 m) 0
          = bridge.signature env (env.keccak256 m) 0 :=
        Function.update_of_ne (fun heq => hhash (Evm.signIdx_inj hkeccak hbytes heq)) _ _
      rw [hslot]
      exact hsignature

/-- The first submission of an authority counts `1`, whoever else has submitted,
and it overwrites the first signature. -/
theorem collected_new (hkeccak : Function.Injective env.keccak256)
    (hbytes : Function.Injective env.digestBytes)
    (h : Collected env start m submitted bridge) {c : Submission}
    (hvalid : Valid env bridge.authorities c) (hmessage : c.message = m)
    (hnew : c.sender ∉ submitted) :
    Collected env start m (insert c.sender submitted) (bridge.submitted env c) := by
  subst hmessage
  have hnumber := h.number c.sender
  rw [if_neg hnew] at hnumber
  have hsender : ∀ a, a ≠ c.sender → env.hashSender a (env.keccak256 c.message)
      ≠ env.hashSender c.sender (env.keccak256 c.message) :=
    fun a ha heq => ha (Evm.hashSender_inj hkeccak hbytes heq).1
  have hcount : (bridge.submitted env c).numMessagesSigned
      = Function.update bridge.numMessagesSigned
        (env.hashSender c.sender (env.keccak256 c.message)) 1 := by
    show Function.update _ _ (_ + 1) = _
    rw [hnumber]
  refine ⟨h.requiredSignatures, h.authorities, ?_, ?_, ?_, ?_⟩
  · intro a
    rw [hcount]
    by_cases ha : a = c.sender
    · subst ha
      rw [Function.update_self, if_pos (Finset.mem_insert_self _ _)]
    · rw [Function.update_of_ne (hsender a ha), h.number a]
      simp [ha]
  · intro a
    show Function.update bridge.messagesSigned _ true _ = _
    by_cases ha : a = c.sender
    · subst ha
      simp
    · rw [Function.update_of_ne (hsender a ha), h.marked a]
      simp [ha]
  · have hlogs : (bridge.submitted env c).logs = if start.requiredSignatures = 1
        then bridge.logs ++ [.collectedSignatures c.sender (env.keccak256 c.message) 1]
        else bridge.logs := by
      show (if _ + 1 = bridge.requiredSignatures then _ else _) = _
      rw [hnumber, h.requiredSignatures]
      simp only [Nat.zero_add, eq_comm]
    have hevents := h.events
    unfold collected at hevents ⊢
    rw [hlogs, Finset.card_insert_of_notMem hnew]
    by_cases hone : start.requiredSignatures = 1
    · rw [if_pos hone] at hevents
      rw [if_pos hone, if_pos hone, List.countP_append, hevents, List.countP_singleton]
      simp [hone]
    · rw [if_neg hone] at hevents
      rw [if_neg hone, if_neg hone, hevents]
  · intro _
    constructor
    · show (if _ + 1 > 1 then _ else _ : Digest → Bytes) _ = _
      rw [hnumber, if_neg (by omega), Function.update_self]
    · refine ⟨c.sender, Finset.mem_insert_self _ _, fun rest => ?_⟩
      have hslot : (bridge.submitted env c).signature env (env.keccak256 c.message) 0
          = c.signature := by
        show Function.update bridge.signatures (env.signIdx _ (_ + 1 - 1)) _ _ = _
        rw [hnumber]
        exact Function.update_self ..
      rw [hslot, recoverAddressFromSignedMessage_rest env.keccak256 env.ecrecover c.signature
        c.message rest c.rest]
      exact hvalid.recovered

theorem collected_step (hkeccak : Function.Injective env.keccak256)
    (hbytes : Function.Injective env.digestBytes) {calls : List Submission}
    (h : Collected env start m (submitters env start.authorities m calls) bridge)
    (c : Submission) :
    Collected env start m (submitters env start.authorities m (calls ++ [c]))
      (bridge.step env c) := by
  rw [submitters_append]
  unfold step
  cases hcall : bridge.submitSignature env c with
  | some bridge' =>
    obtain ⟨hvalid, hfresh, rfl⟩ := submitSignature_eq_some.1 hcall
    have hvalid' := hvalid
    rw [h.authorities] at hvalid'
    by_cases hmessage : c.message = m
    · rw [if_pos ⟨hvalid', hmessage⟩]
      refine collected_new hkeccak hbytes h hvalid hmessage fun hmem => ?_
      have hnumber := h.number c.sender
      have hmarked := h.marked c.sender
      rw [if_pos hmem] at hnumber
      rw [hmessage, hmarked, hnumber, decide_eq_true hmem] at hfresh
      cases hfresh Nat.one_pos
    · rw [if_neg fun hcond => hmessage hcond.2]
      exact collected_other hkeccak hbytes h hmessage
  | none =>
    split
    · rename_i hcond
      obtain ⟨hvalid, rfl⟩ := hcond
      -- a valid call is refused only for an authority that has submitted already
      have hmem : c.sender ∈ submitters env start.authorities c.message calls := by
        by_contra hmem
        have hnumber := h.number c.sender
        rw [if_neg hmem] at hnumber
        have hsome := submitSignature_eq_some.2
          ⟨h.authorities ▸ hvalid, fun hpos => absurd hpos (by omega), rfl⟩
        rw [hcall] at hsome
        cases hsome
      rw [Finset.insert_eq_of_mem hmem]
      exact h
    · exact h

theorem collected_run (hkeccak : Function.Injective env.keccak256)
    (hbytes : Function.Injective env.digestBytes) {requiredSignatures : Nat}
    {authorities : List Address} (hdeploy : deploy requiredSignatures authorities = some start)
    (m : Bytes) (calls : List Submission) :
    Collected env start m (submitters env start.authorities m calls) (start.run env calls) := by
  induction calls using List.reverseRecOn with
  | nil =>
    simp only [deploy, require_bind_eq_some] at hdeploy
    rw [← Option.some.inj hdeploy.2.2]
    exact ⟨rfl, rfl, fun _ => rfl, fun _ => rfl, by simp [run, collected, submitters],
      fun hnonempty => absurd hnonempty (by simp [submitters])⟩
  | append_singleton calls c ih =>
    unfold run at ih ⊢
    rw [List.foldl_append]
    exact collected_step hkeccak hbytes ih c

end Runs

omit [DecidableEq Digest] in
theorem submitters_take_subset (env : Evm Digest) (authorities : Address → Bool) (m : Bytes)
    (calls : List Submission) (n : Nat) :
    submitters env authorities m (calls.take n) ⊆ submitters env authorities m calls := by
  intro a ha
  unfold submitters at ha ⊢
  rw [List.mem_toFinset] at ha ⊢
  exact (((List.take_sublist n calls).filter _).map _).subset ha

omit [DecidableEq Digest] in
theorem authority_of_mem_submitters {env : Evm Digest} {authorities : Address → Bool}
    {m : Bytes} {calls : List Submission} {a : Address}
    (h : a ∈ submitters env authorities m calls) : authorities a = true := by
  unfold submitters at h
  rw [List.mem_toFinset] at h
  obtain ⟨c, hc, rfl⟩ := List.mem_map.1 h
  exact (of_decide_eq_true (List.mem_filter.1 hc).2).1.authority

/-- What the withdraw relay fetches for a message: the message, and signatures
of it that recover to `requiredSignatures` distinct authorities. -/
structure Executable (env : Evm Digest) (bridge : ForeignBridge Digest) (m : Bytes) : Prop where
  message : bridge.message (env.keccak256 m) = m
  signatures : ∃ signers : List Address, signers.length = bridge.requiredSignatures ∧
    signers.Nodup ∧ (∀ a ∈ signers, bridge.authorities a = true) ∧
    ∀ i (h : i < signers.length),
      Recovers env (bridge.signature env (env.keccak256 m) i) m signers[i]

/-- The collection of a message works as intended at every point of a run:
`CollectedSignatures` has been emitted once if the threshold is reached and not
at all before, and from the threshold on the message is executable. -/
def CollectsOnce (env : Evm Digest) (start : ForeignBridge Digest) (m : Bytes)
    (calls : List Submission) : Prop :=
  ∀ n, let bridge := start.run env (calls.take n)
    let signers := submitters env start.authorities m (calls.take n)
    bridge.collected (env.keccak256 m) start.requiredSignatures
        = (if start.requiredSignatures ≤ signers.card then 1 else 0) ∧
      (start.requiredSignatures ≤ signers.card → Executable env bridge m)

/-- The counter is kept for each sender, so the collection works exactly when
the threshold is not reached in the run, or when the threshold is `1` and only
one authority submits. -/
theorem collectsOnce_iff (env : Evm Digest) (hkeccak : Function.Injective env.keccak256)
    (hbytes : Function.Injective env.digestBytes) (requiredSignatures : Nat)
    (authorities : List Address) (start : ForeignBridge Digest)
    (hdeploy : deploy requiredSignatures authorities = some start) (m : Bytes)
    (calls : List Submission) :
    CollectsOnce env start m calls ↔
      (submitters env start.authorities m calls).card < requiredSignatures ∨
        (requiredSignatures = 1 ∧ (submitters env start.authorities m calls).card = 1) := by
  have hcollected := collected_run hkeccak hbytes hdeploy m
  have hrequired : start.requiredSignatures = requiredSignatures ∧ 1 ≤ requiredSignatures := by
    simp only [deploy, require_bind_eq_some] at hdeploy
    rw [← Option.some.inj hdeploy.2.2]
    exact ⟨rfl, Nat.one_le_iff_ne_zero.2 hdeploy.1⟩
  obtain ⟨hrequired, hone⟩ := hrequired
  constructor
  · intro h
    have hevents := (hcollected calls).events
    have hend := (h calls.length).1
    rw [List.take_length, hevents, hrequired] at hend
    split at hend <;> split at hend <;> omega
  · intro h n
    have hle := Finset.card_le_card
      (submitters_take_subset env start.authorities m calls n)
    have hrun := hcollected (calls.take n)
    generalize start.run env (calls.take n) = bridge at hrun ⊢
    dsimp only
    rw [hrun.events, hrequired]
    refine ⟨by split <;> split <;> omega, fun hreached => ?_⟩
    -- the threshold can only be reached when it is `1`
    obtain ⟨hthreshold, hcard⟩ : requiredSignatures = 1 ∧
        (submitters env start.authorities m (calls.take n)).card = 1 := by omega
    obtain ⟨hmessage, a, ha, hrecovers⟩ := hrun.slot (Finset.card_pos.1 (by omega))
    refine ⟨hmessage, [a], ?_, by simp, ?_, ?_⟩
    · rw [hrun.requiredSignatures, hrequired, hthreshold]
      rfl
    · rw [hrun.authorities]
      exact List.forall_mem_singleton.2 (authority_of_mem_submitters ha)
    · intro i hi
      obtain rfl : i = 0 := Nat.lt_one_iff.1 hi
      exact hrecovers

/-- An EVM for examples.  Its hash is the identity, which never collides, and
its signatures name their signer in `r`. -/
def transparentEvm : Evm Bytes where
  keccak256 := id
  ecrecover := fun _ _ r _ => r.setWidth 160
  digestBytes := id

/-- A deployment with two authorities. -/
def twoAuthorities (requiredSignatures : Nat)
    (h : (deploy requiredSignatures [0xa1, 0xa2] : Option (ForeignBridge Bytes)).isSome) :
    ForeignBridge Bytes :=
  (deploy requiredSignatures [0xa1, 0xa2]).get h

/-- A message of the right length. -/
def zeroMessage : Bytes := List.replicate 116 0

/-- An authority submits its signature of the message. -/
def submission (sender : Address) : Submission where
  sender := sender
  signature := wordBytes (sender.setWidth 256) ++ wordBytes 0 ++ [27]
  message := zeroMessage
  rest := fun _ => 0

theorem collectsOnce_iff_one :
    CollectsOnce transparentEvm (twoAuthorities 1 (by decide)) zeroMessage
      [submission 0xa1, submission 0xa1] :=
  (collectsOnce_iff transparentEvm Function.injective_id Function.injective_id 1 [0xa1, 0xa2]
    (twoAuthorities 1 (by decide)) rfl zeroMessage
    [submission 0xa1, submission 0xa1]).2 (.inr ⟨rfl, by decide +kernel⟩)

/-- Two authorities, a threshold of `2`, and both submit: the event is not
emitted. -/
theorem threshold_reached_without_event :
    zeroMessage.length = 116 ∧
      (submitters transparentEvm (twoAuthorities 2 (by decide)).authorities zeroMessage
        [submission 0xa1, submission 0xa2]).card = 2 ∧
      ¬ CollectsOnce transparentEvm (twoAuthorities 2 (by decide)) zeroMessage
        [submission 0xa1, submission 0xa2] := by
  refine ⟨rfl, by decide +kernel, fun h => ?_⟩
  have hreached := (h 2).1
  rw [if_pos (by decide +kernel)] at hreached
  exact absurd hreached (by decide +kernel)

end ForeignBridge

end PoaBridge.Contracts
