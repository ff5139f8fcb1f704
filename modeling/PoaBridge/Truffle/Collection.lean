import PoaBridge.Lib.Results
import PoaBridge.Signature
import PoaBridge.Truffle.Foreign

/-!
# Signatures, from foreign to home

`ForeignBridge.submitSignature` collects the signatures of a message, and
`HomeBridge.withdraw` checks them again on the other chain.  Foreign recovers a
signer with `MessageSigning.recoverAddressFromSignedMessage`, which prints the
length of the message.  Home recovers it with `Message.hashMessage`, which has
the length text `"116"` built in.

* `CollectionInv` is what foreign keeps of every message: the three parallel
  parts of the collection fit together, whoever submits what.
* `collected_executable` says that a collection that was announced for a message
  of the Rust process passes the quorum check on home, and that later
  submissions do not spoil it.
* `same_digest_iff` says for which messages the two chains recover the same
  addresses: those of 116 bytes.
-/

namespace PoaBridge.Truffle

open BigEndian

variable {Digest : Type}

/-! ## The two digests -/

/-- For the length of the Rust messages both chains hash the same bytes. -/
theorem hashMessage_of_length (keccak256 : Bytes → Digest) {message : Bytes}
    (h : message.length = 116) :
    PoaBridge.hashMessage keccak256 message = some (hashMessage keccak256 message) := by
  have htext : uintToString 116 = some (asciiBytes "116") := by decide
  rw [PoaBridge.hashMessage, h, htext]
  rfl

/-- The signature recovers to this address on foreign, wherever it lies in
memory. -/
def Recovers (env : Evm Digest) (message signature : Bytes) (signer : Address) : Prop :=
  signature.length = 65 ∧ ∀ rest, recoverAddressFromSignedMessage env.keccak256 env.ecrecover
    signature message rest = some signer

/-- The components of a signature recover to the same address on home, for a
message of the right length. -/
theorem Recovers.ecrecover_eq {env : Evm Digest} {message signature : Bytes} {signer : Address}
    {sig : Signature} (h : Recovers env message signature signer)
    (hlength : message.length = 116) (hsig : Signature.fromBytes signature = .ok sig) :
    env.ecrecover (hashMessage env.keccak256 message) sig.v sig.r sig.s = signer := by
  have hrecovered := h.2 fun _ => 0
  rw [Signature.recoverAddressFromSignedMessage_of_fromBytes _ _ hsig,
    hashMessage_of_length _ hlength] at hrecovered
  exact Option.some.inj hrecovered

/-- Signatures that foreign has accepted from distinct signers pass the quorum
check of home, when the signers are validators there. -/
theorem hasEnoughValidSignatures_of_recovers {env : Evm Digest} {message : Bytes}
    (hlength : message.length = 116) {signatures : List Bytes} {signers : List Address}
    {sigs : List Signature} (hrecovers : List.Forall₂ (Recovers env message) signatures signers)
    (hsigs : signatures.mapM Signature.fromBytes = .ok sigs) (hnodup : signers.Nodup)
    (hnonzero : ∀ a ∈ signers, a ≠ 0) {home : BridgeValidators}
    (hrequired : home.requiredSignatures ≤ signers.length)
    (hvalid : ∀ a ∈ signers, home.isValidator a = true) :
    hasEnoughValidSignatures env.keccak256 env.ecrecover message (sigs.map (·.v))
      (sigs.map (·.r)) (sigs.map (·.s)) home = some () := by
  have hdecoded := Results.forall₂_of_mapM_eq_ok hsigs
  refine hasEnoughValidSignatures_of_signers _ _ hrequired (fun j hj => ?_) hvalid hnonzero hnodup
  have hj' : j < signatures.length := by rwa [hrecovers.length_eq]
  have hj'' : j < sigs.length := by rwa [← hdecoded.length_eq]
  have hrecovered := (List.forall₂_iff_get.1 hrecovers).2 j hj' hj
  have hsig := (List.forall₂_iff_get.1 hdecoded).2 j hj' hj''
  simp only [List.get_eq_getElem] at hrecovered hsig
  simp [recoverAt, hj'', hrecovered.ecrecover_eq hlength hsig]

/-! ## What foreign collects -/

namespace ForeignChain

/-- The signatures of a message recover one by one to the addresses in
`signed`, which are distinct, and the message is the one that they sign. -/
structure Collects (env : Evm Digest) (message : Bytes) (collection : SignaturesCollection) :
    Prop where
  recovers : List.Forall₂ (Recovers env message) collection.signatures collection.signed
  distinct : collection.signed.Nodup
  nonzero : ∀ a ∈ collection.signed, a ≠ 0
  stored : collection.signed ≠ [] → collection.message = message

/-- The invariant of the collections. -/
structure CollectionInv (env : Evm Digest) (chain : ForeignChain Digest) : Prop where
  registry : chain.validators.isValidator 0 = false
  collects : ∀ message, Collects env message (chain.bridge.signatures (env.keccak256 message))

theorem collectionInv_deployed (env : Evm Digest) : CollectionInv env deployed :=
  ⟨rfl, fun _ => ⟨.nil, List.nodup_nil, by simp [deployed, ForeignBridge.deployed],
    fun h => absurd rfl h⟩⟩

variable [DecidableEq Digest]

theorem SignatureDone.recovers {env : Evm Digest} {chain chain' : ForeignChain Digest}
    {sender : Address} {signature message : Bytes} {rest : Memory}
    (h : SignatureDone env chain sender signature message rest chain') :
    Recovers env message signature sender := by
  have hrecovered := h.recovered
  refine ⟨?_, fun rest' => ?_⟩
  · by_contra hlength
    rw [recoverAddressFromSignedMessage, if_neg hlength] at hrecovered
    cases hrecovered
  · rw [recoverAddressFromSignedMessage_rest _ _ _ _ rest' rest]
    exact hrecovered

theorem SignatureDone.collectionInv {env : Evm Digest} {chain chain' : ForeignChain Digest}
    {sender : Address} {signature message : Bytes} {rest : Memory}
    (hkeccak : Function.Injective env.keccak256)
    (h : SignatureDone env chain sender signature message rest chain')
    (hinv : CollectionInv env chain) : CollectionInv env chain' := by
  refine ⟨h.validators ▸ hinv.registry, fun message' => ?_⟩
  rw [h.signatures]
  by_cases heq : env.keccak256 message' = env.keccak256 message
  · obtain rfl : message' = message := hkeccak heq
    rw [Function.update_self]
    have hold := hinv.collects message'
    have hsender : sender ≠ 0 := by
      rintro rfl
      have hvalidator := h.sender_validator
      rw [hinv.registry] at hvalidator
      cases hvalidator
    refine ⟨List.rel_append hold.recovers (.cons h.recovers .nil), ?_, ?_, fun _ => rfl⟩
    · exact List.nodup_append.2 ⟨hold.distinct, List.nodup_singleton _, fun a ha b hb hab =>
        h.sender_fresh (List.mem_singleton.1 hb ▸ hab ▸ ha)⟩
    · intro a ha
      rcases List.mem_append.1 ha with ha | ha
      · exact hold.nonzero a ha
      · rw [List.mem_singleton.1 ha]
        exact hsender
  · rw [Function.update_of_ne heq]
    exact hinv.collects message'

/-- Every transaction keeps the collections in order. -/
theorem collectionInv_step {env : Evm Digest} (hkeccak : Function.Injective env.keccak256)
    {chain : ForeignChain Digest} (hinv : CollectionInv env chain) (call : Call) :
    CollectionInv env (chain.step env call) := by
  rw [step]
  cases hexec : chain.exec env call with
  | none => exact hinv
  | some chain' =>
    rw [Option.getD_some]
    by_cases hcall : ∃ sender signature message rest,
        call = .submitSignature sender signature message rest
    · obtain ⟨sender, signature, message, rest, rfl⟩ := hcall
      exact (submitSignature_cases hexec).collectionInv hkeccak hinv
    · push Not at hcall
      refine ⟨?_, ?_⟩
      · rcases exec_registry hexec with ⟨_, _, _, hc⟩ | hsame
        · exact BridgeValidators.call_isValidator_zero hc hinv.registry
        · rw [hsame]
          exact hinv.registry
      · rw [(exec_signatures hexec hcall).1]
        exact hinv.collects

theorem collectionInv_run {env : Evm Digest} (hkeccak : Function.Injective env.keccak256)
    {chain : ForeignChain Digest} (hinv : CollectionInv env chain) (calls : List Call) :
    CollectionInv env (run env chain calls) :=
  @Runs.foldl_of_step _ _ (step env) (CollectionInv env)
    (fun _ call h => collectionInv_step hkeccak h call) calls chain hinv

/-- No transaction takes a signature away. -/
theorem signatures_grow (env : Evm Digest) (chain : ForeignChain Digest) (call : Call)
    (hash : Digest) :
    (chain.bridge.signatures hash).signatures
        <+: ((chain.step env call).bridge.signatures hash).signatures ∧
      (chain.bridge.signatures hash).signed
        <+: ((chain.step env call).bridge.signatures hash).signed := by
  rw [step]
  cases hexec : chain.exec env call with
  | none => exact ⟨List.prefix_rfl, List.prefix_rfl⟩
  | some chain' =>
    rw [Option.getD_some]
    by_cases hcall : ∃ sender signature message rest,
        call = .submitSignature sender signature message rest
    · obtain ⟨sender, signature, message, rest, rfl⟩ := hcall
      rw [(submitSignature_cases hexec).signatures]
      by_cases heq : hash = env.keccak256 message
      · subst heq
        rw [Function.update_self]
        exact ⟨List.prefix_append _ _, List.prefix_append _ _⟩
      · rw [Function.update_of_ne heq]
        exact ⟨List.prefix_rfl, List.prefix_rfl⟩
    · push Not at hcall
      rw [(exec_signatures hexec hcall).1]
      exact ⟨List.prefix_rfl, List.prefix_rfl⟩

theorem signatures_grow_run (env : Evm Digest) (chain : ForeignChain Digest)
    (calls : List Call) (hash : Digest) :
    (chain.bridge.signatures hash).signatures
        <+: ((run env chain calls).bridge.signatures hash).signatures ∧
      (chain.bridge.signatures hash).signed
        <+: ((run env chain calls).bridge.signatures hash).signed := by
  refine @Runs.foldl_of_step _ _ (step env) (fun chain' =>
    (chain.bridge.signatures hash).signatures <+: (chain'.bridge.signatures hash).signatures ∧
      (chain.bridge.signatures hash).signed <+: (chain'.bridge.signatures hash).signed)
    (fun chain' call h => ?_) calls chain ⟨List.prefix_rfl, List.prefix_rfl⟩
  have hstep := signatures_grow env chain' call hash
  exact ⟨h.1.trans hstep.1, h.2.trans hstep.2⟩

/-! ## What was collected can be executed -/

/-- What the contract keeps under the hash of a submitted message. -/
structure CollectionSound (env : Evm Digest) (hash : Digest) (collection : SignaturesCollection) :
    Prop where
  message_hash : env.keccak256 collection.message = hash
  length_eq : collection.signed.length = collection.signatures.length
  distinct : collection.signed.Nodup
  recovers : ∀ i (h : i < collection.signatures.length) (h' : i < collection.signed.length),
    Recovers env collection.message collection.signatures[i] collection.signed[i]

/-- The first `n` signatures can be read, the Rust process can decode them, and
home accepts them from any registry with a threshold of at most `n` that has
their signers. -/
def Executable (env : Evm Digest) (chain : ForeignChain Digest) (hash : Digest) (n : Nat) :
    Prop :=
  ∃ (signatures : List Bytes) (sigs : List Signature),
    signatures.length = n ∧
    (∀ i (h : i < signatures.length), chain.signature hash i = some signatures[i]) ∧
    signatures.mapM Signature.fromBytes = .ok sigs ∧
    ∀ home : BridgeValidators, home.requiredSignatures ≤ n →
      (∀ a ∈ (chain.bridge.signatures hash).signed.take n, home.isValidator a = true) →
      hasEnoughValidSignatures env.keccak256 env.ecrecover (chain.message hash)
        (sigs.map (·.v)) (sigs.map (·.r)) (sigs.map (·.s)) home = some ()

omit [DecidableEq Digest] in
theorem Collects.sound {env : Evm Digest} {message : Bytes} {collection : SignaturesCollection}
    (h : Collects env message collection) (hsubmitted : collection.signed ≠ []) :
    CollectionSound env (env.keccak256 message) collection where
  message_hash := by rw [h.stored hsubmitted]
  length_eq := h.recovers.length_eq.symm
  distinct := h.distinct
  recovers := by
    intro i hi hi'
    rw [h.stored hsubmitted]
    exact (List.forall₂_iff_get.1 h.recovers).2 i hi hi'

omit [DecidableEq Digest] in
/-- As many signatures as have been collected can be executed. -/
theorem Collects.executable {env : Evm Digest} {message : Bytes} {chain : ForeignChain Digest}
    (h : Collects env message (chain.bridge.signatures (env.keccak256 message)))
    (hlength : message.length = 116) {n : Nat} (hpositive : n ≠ 0)
    (hn : n ≤ (chain.bridge.signatures (env.keccak256 message)).signed.length) :
    Executable env chain (env.keccak256 message) n := by
  have hrecovers : List.Forall₂ (Recovers env message)
      ((chain.bridge.signatures (env.keccak256 message)).signatures.take n)
      ((chain.bridge.signatures (env.keccak256 message)).signed.take n) :=
    List.forall₂_take n h.recovers
  have hstored : chain.message (env.keccak256 message) = message :=
    h.stored (List.length_pos_iff.1 (by omega))
  have htake : ((chain.bridge.signatures (env.keccak256 message)).signatures.take n).length
      = n := by
    rw [List.length_take, h.recovers.length_eq]
    exact Nat.min_eq_left hn
  obtain ⟨sigs, hsigs⟩ := @Results.exists_mapM_eq_ok _ _ _ Signature.fromBytes
    ((chain.bridge.signatures (env.keccak256 message)).signatures.take n) (by
      intro signature hmem
      obtain ⟨i, hi, rfl⟩ := List.getElem_of_mem hmem
      have hi' := hi
      rw [hrecovers.length_eq] at hi'
      exact Signature.exists_fromBytes ((List.forall₂_iff_get.1 hrecovers).2 i hi hi').1)
  refine ⟨_, sigs, htake, fun i hi => ?_, hsigs, fun home hrequired hvalid => ?_⟩
  · rw [signature, List.getElem_take]
    exact List.getElem?_eq_getElem _
  · rw [hstored]
    refine hasEnoughValidSignatures_of_recovers hlength hrecovers hsigs
      (h.distinct.sublist (List.take_sublist _ _))
      (fun a ha => h.nonzero a (List.mem_of_mem_take ha)) ?_ hvalid
    rw [List.length_take, Nat.min_eq_left hn]
    exact hrequired

/-- After every submission of a signature and whatever happens later: what the
contract keeps of the message is in order, and if this submission completed
the collection of a message of 116 bytes for a threshold of `n`, then the
first `n` signatures can be executed on home. -/
theorem collected_executable (env : Evm Digest) (hkeccak : Function.Injective env.keccak256)
    (before after : List Call) {sender : Address} {signature message : Bytes} {rest : Memory}
    {chain' : ForeignChain Digest}
    (hsubmit : (run env deployed before).exec env
      (.submitSignature sender signature message rest) = some chain') :
    CollectionSound env (env.keccak256 message)
        ((run env chain' after).bridge.signatures (env.keccak256 message)) ∧
      (chain'.bridge.collected
          = (run env deployed before).bridge.collected ++ [env.keccak256 message] →
        message.length = 116 →
        Executable env (run env chain' after) (env.keccak256 message)
          (run env deployed before).validators.requiredSignatures) := by
  have hdone := submitSignature_cases hsubmit
  have hbefore := collectionInv_run hkeccak (collectionInv_deployed env) before
  have hafter := collectionInv_run hkeccak (hdone.collectionInv hkeccak hbefore) after
  have hcollects := hafter.collects message
  have hgrow := (signatures_grow_run env chain' after (env.keccak256 message)).2.length_le
  rw [hdone.signatures, Function.update_self, List.length_append, List.length_singleton] at hgrow
  refine ⟨hcollects.sound (List.length_pos_iff.1 (by omega)), fun hcollected hlength => ?_⟩
  have hreached : ((run env deployed before).bridge.signatures
      (env.keccak256 message)).signed.length + 1
        = (run env deployed before).validators.requiredSignatures := by
    by_contra hne
    have hlogged := hdone.collected
    rw [if_neg hne, hcollected] at hlogged
    simp at hlogged
  exact hcollects.executable hlength (by omega) (by omega)

/-- A signature in the transparent EVM, which names its signer in `r`. -/
def transparentSignature (signer : Address) : Bytes :=
  wordBytes (signer.setWidth 256) ++ wordBytes 0 ++ [27]

/-- A submission in the transparent EVM. -/
def submission (signer : Address) (message : Bytes) : Call :=
  .submitSignature signer (transparentSignature signer) message fun _ => 0

/-- Two of three validators have to sign, and the first one has done it. -/
def oneSignature : List Call :=
  [ .registry 0xff (.initializeValidators 2 [0xa1, 0xa2, 0xa3] 0xff)
  , .initializeBridge 0xb2
  , submission 0xa1 (List.replicate 116 0xab) ]

theorem second_signature_accepted : ((run transparentEvm deployed oneSignature).exec
    transparentEvm (submission 0xa2 (List.replicate 116 0xab))).isSome = true := by
  decide +kernel

/-- The second signature completes the collection, and a third one comes
later. -/
theorem collected_executable_two :
    ∃ chain', (run transparentEvm deployed oneSignature).exec transparentEvm
        (submission 0xa2 (List.replicate 116 0xab)) = some chain' ∧
      Executable transparentEvm
        (run transparentEvm chain' [submission 0xa3 (List.replicate 116 0xab)])
        (List.replicate 116 0xab) 2 := by
  have hthreshold : (run transparentEvm deployed oneSignature).validators.requiredSignatures
      = 2 := by decide +kernel
  have hexecutable := (collected_executable transparentEvm Function.injective_id oneSignature
    [submission 0xa3 (List.replicate 116 0xab)] (Option.some_get second_signature_accepted).symm).2
    (by decide +kernel) List.length_replicate
  rw [hthreshold] at hexecutable
  exact ⟨_, (Option.some_get second_signature_accepted).symm, hexecutable⟩

end ForeignChain

/-! ## Messages of other lengths -/

/-- Both chains recover the same address from every signature of the message,
and signatures that foreign has collected from enough distinct validators are
valid on home. -/
structure DigestAgreement (env : Evm Digest) (message : Bytes) : Prop where
  same : ∀ signature sig rest, Signature.fromBytes signature = .ok sig →
    recoverAddressFromSignedMessage env.keccak256 env.ecrecover signature message rest
      = some (env.ecrecover (hashMessage env.keccak256 message) sig.v sig.r sig.s)
  valid : ∀ (signatures : List Bytes) (signers : List Address) (sigs : List Signature)
    (home : BridgeValidators), List.Forall₂ (Recovers env message) signatures signers →
    signatures.mapM Signature.fromBytes = .ok sigs → signers.Nodup →
    (∀ a ∈ signers, a ≠ 0 ∧ home.isValidator a = true) →
    home.requiredSignatures ≤ signers.length →
    hasEnoughValidSignatures env.keccak256 env.ecrecover message (sigs.map (·.v))
      (sigs.map (·.r)) (sigs.map (·.s)) home = some ()

theorem digestAgreement_of_length (env : Evm Digest) {message : Bytes}
    (h : message.length = 116) : DigestAgreement env message where
  same := by
    intro signature sig rest hsig
    rw [Signature.recoverAddressFromSignedMessage_of_fromBytes _ _ hsig,
      hashMessage_of_length _ h]
    rfl
  valid := by
    intro signatures signers sigs home hrecovers hsigs hnodup hsigners hrequired
    exact hasEnoughValidSignatures_of_recovers h hrecovers hsigs hnodup
      (fun a ha => (hsigners a ha).1) hrequired fun a ha => (hsigners a ha).2

/-- The two chains hash the same bytes only when the printed length is
`"116"`. -/
theorem length_of_hashMessage_eq {keccak256 : Bytes → Digest}
    (hkeccak : Function.Injective keccak256) {message : Bytes}
    (h : PoaBridge.hashMessage keccak256 message = some (hashMessage keccak256 message)) :
    message.length = 116 := by
  rw [PoaBridge.hashMessage, Option.bind_eq_bind, Option.bind_eq_some_iff] at h
  obtain ⟨text, htext, hdigest⟩ := h
  have hbytes := hkeccak (Option.some.inj hdigest)
  rw [List.append_assoc, List.append_assoc] at hbytes
  obtain rfl : text = asciiBytes "116" :=
    List.append_cancel_right (List.append_cancel_left hbytes)
  have hdigits : asciiBytes "116" = Decimal.digits 116 := by decide
  rw [hdigits] at htext
  exact eq_of_uintToString htext (by decide)

/-- For every message that `submitSignature` has accepted: the two chains agree
on it if and only if it is 116 bytes long.  The signature that was accepted
separates the digests of all other messages. -/
theorem same_digest_iff [DecidableEq Digest] (env : Evm Digest)
    (hkeccak : Function.Injective env.keccak256) {chain chain' : ForeignChain Digest}
    {sender : Address} {signature message : Bytes} {rest : Memory}
    (haccepted : chain.submitSignature env sender signature message rest = some chain')
    {sig : Signature} (hsig : Signature.fromBytes signature = .ok sig)
    (hecrecover : ∀ digest digest', env.ecrecover digest sig.v sig.r sig.s = sender →
      env.ecrecover digest' sig.v sig.r sig.s = sender → digest = digest') :
    DigestAgreement env message ↔ message.length = 116 := by
  refine ⟨fun hagree => ?_, digestAgreement_of_length env⟩
  have hrecovered := (ForeignChain.submitSignature_cases haccepted).recovered
  have hhome := Option.some.inj ((hagree.same signature sig rest hsig).symm.trans hrecovered)
  rw [Signature.recoverAddressFromSignedMessage_of_fromBytes _ _ hsig,
    Option.map_eq_some_iff] at hrecovered
  obtain ⟨digest, hdigest, hforeign⟩ := hrecovered
  rw [hecrecover digest _ hforeign hhome] at hdigest
  exact length_of_hashMessage_eq hkeccak hdigest

/-- An EVM in which only the signatures of one message are valid, by the length
that foreign prints. -/
def oneMessageEvm (message : Bytes) : Evm Bytes where
  keccak256 := id
  ecrecover := fun digest _ r _ =>
    if digest = signedMessagePrefix ++ asciiBytes (toString message.length) ++ message
    then r.setWidth 160 else 0
  bridge := 0xb1
  validators := 0xb2

/-- A foreign chain with one validator. -/
def oneSigner : ForeignChain Bytes :=
  .run transparentEvm .deployed
    [.registry 0xff (.initializeValidators 1 [0xa1] 0xff), .initializeBridge 0xb2]

theorem same_digest_iff_replicate :
    (∃ chain', oneSigner.submitSignature (oneMessageEvm (List.replicate 116 0xab)) 0xa1
      (ForeignChain.transparentSignature 0xa1) (List.replicate 116 0xab) (fun _ => 0)
        = some chain') ∧
    (DigestAgreement (oneMessageEvm (List.replicate 116 0xab)) (List.replicate 116 0xab) ↔
      (List.replicate 116 (0xab : UInt8)).length = 116) := by
  have haccepted : ∃ chain', oneSigner.submitSignature (oneMessageEvm (List.replicate 116 0xab))
      0xa1 (ForeignChain.transparentSignature 0xa1) (List.replicate 116 0xab) (fun _ => 0)
        = some chain' := Option.isSome_iff_exists.1 (by decide +kernel)
  refine ⟨haccepted, ?_⟩
  obtain ⟨chain', haccepted⟩ := haccepted
  refine same_digest_iff _ Function.injective_id haccepted (if_pos (by decide +kernel))
    fun digest digest' h h' => ?_
  have hone : ∀ d : Bytes, (oneMessageEvm (List.replicate 116 0xab)).ecrecover d
      (((ForeignChain.transparentSignature 0xa1).getD 64 0))
      (BitVec.ofNat 256 (decode ((ForeignChain.transparentSignature 0xa1).take 32)))
      (BitVec.ofNat 256 (decode (((ForeignChain.transparentSignature 0xa1).drop 32).take 32)))
        = 0xa1 →
      d = signedMessagePrefix ++ asciiBytes (toString (List.replicate 116 (0xab : UInt8)).length)
        ++ List.replicate 116 0xab := by
    intro d hd
    by_contra hne
    rw [oneMessageEvm] at hd
    dsimp only at hd
    rw [if_neg hne] at hd
    exact absurd hd (by decide)
  rw [hone digest h, hone digest' h']

/-- A validator signs the empty message.  Foreign accepts the signature, and
home recovers another address from it. -/
theorem short_message_digests_differ :
    ¬ ∀ (message signature : Bytes) (sender : Address) (chain' : ForeignChain Bytes),
      oneSigner.submitSignature (oneMessageEvm message) sender signature message (fun _ => 0)
          = some chain' →
        DigestAgreement (oneMessageEvm message) message := by
  intro halways
  have hagree := halways [] (ForeignChain.transparentSignature 0xa1) 0xa1 _
    (Option.some_get (by decide +kernel)).symm
  exact absurd (hagree.same (ForeignChain.transparentSignature 0xa1) _ (fun _ => 0)
    (if_pos (by decide +kernel))) (by decide +kernel)

end PoaBridge.Truffle
