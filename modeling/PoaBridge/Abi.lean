import PoaBridge.Solidity

/-!
# The contract interface of the Rust process

`bridge/src/contracts.rs` generates this interface with `use_contract!` from
the ABI of `contracts/bridge.sol`: the topic and the parser of each event, and
the encoders and decoders of each function.  The code behind it is `ethabi`,
so the interface is a parameter of the model.  A parser or decoder that
refuses its input returns `none`.

`decodeDeposit` is the other end of `depositInput`: the argument decoder in
front of `deposit` in the compiled contract.

`Abi.solidity` is the encoding that the contracts of the repository have: the
selectors and topics of their functions and events, words of 32 bytes, and
offsets for arrays and byte strings.
-/

namespace PoaBridge

open BigEndian

/-- `HomeBridge.Deposit`. -/
structure DepositEvent where
  recipient : Address
  value : U256
deriving DecidableEq, Repr

/-- `ForeignBridge.Withdraw`. -/
structure WithdrawEvent where
  recipient : Address
  value : U256
  homeGasPrice : U256
deriving DecidableEq, Repr

/-- `ForeignBridge.CollectedSignatures`. -/
structure CollectedSignaturesEvent where
  authorityResponsibleForRelay : Address
  messageHash : H256
  numberOfCollectedSignatures : U256
deriving DecidableEq, Repr

/-- The generated interface of the two contracts. -/
structure Abi where
  depositTopic : H256
  withdrawTopic : H256
  collectedSignaturesTopic : H256
  parseDeposit : RawLog → Option DepositEvent
  parseWithdraw : RawLog → Option WithdrawEvent
  parseCollectedSignatures : RawLog → Option CollectedSignaturesEvent
  depositInput : Address → U256 → H256 → Bytes
  decodeDeposit : Bytes → Option (Address × U256 × H256)
  submitSignatureInput : Bytes → Bytes → Bytes
  signatureInput : H256 → U256 → Bytes
  messageInput : H256 → Bytes
  withdrawInput : List UInt8 → List H256 → List H256 → Bytes → Bytes
  signatureOutput : Bytes → Option Bytes
  messageOutput : Bytes → Option Bytes

/-! ## The encoding of the contracts -/

namespace Abi

/-- The word with index `i`. -/
def wordAt (data : Bytes) (i : Nat) : Option (BitVec 256) :=
  if 32 * (i + 1) ≤ data.length then
    some (BitVec.ofNat 256 (BigEndian.decode ((data.drop (32 * i)).take 32)))
  else none

/-- An address in a word. -/
def addressWord (a : Address) : BitVec 256 := a.setWidth 256

/-- The address that a word holds: its low 20 bytes. -/
def wordAddress (w : BitVec 256) : Address := w.setWidth 160

/-- A byte string: its length, and its bytes up to a multiple of 32. -/
def dynamicBytes (data : Bytes) : Bytes :=
  wordBytes (BitVec.ofNat 256 data.length) ++ data
    ++ List.replicate ((32 - data.length % 32) % 32) 0

/-- An array of words. -/
def dynamicWords (words : List (BitVec 256)) : Bytes :=
  wordBytes (BitVec.ofNat 256 words.length) ++ words.flatMap wordBytes

/-- The head with the offsets of dynamic arguments, and their tails. -/
def dynamicArguments (tails : List Bytes) : Bytes :=
  let offset i := 32 * tails.length + ((tails.take i).map List.length).sum
  ((List.range tails.length).flatMap fun i => wordBytes (BitVec.ofNat 256 (offset i)))
    ++ tails.flatten

/-- The byte string that is the only return value of a call. -/
def bytesOutput (data : Bytes) : Option Bytes := do
  let offset ← wordAt data 0
  let tail := data.drop offset.toNat
  let length ← wordAt tail 0
  let content := (tail.drop 32).take length.toNat
  require (content.length = length.toNat)
  return content

/-- The data words of an event with the given topic. -/
def eventWords (topic : H256) (log : RawLog) (count : Nat) : Option (List (BitVec 256)) := do
  require (log.topics = [topic])
  (List.range count).mapM (wordAt log.data)

/-- The interface of the contracts of the repository. -/
def solidity : Abi where
  depositTopic := 0xe1fffcc4923d04b559f4d29a8bfc6cda04eb5b0d3c460751c2402c5c5cc9109c
  withdrawTopic := 0xf279e6a1f5e320cca91135676d9cb6e44ca8a08c0b88342bcdb1144f6511b568
  collectedSignaturesTopic := 0x415557404d88a0c0b8e3b16967cafffc511213fd9c465c16832ee17ed57d7237
  parseDeposit := fun log => do
    let words ← eventWords
      0xe1fffcc4923d04b559f4d29a8bfc6cda04eb5b0d3c460751c2402c5c5cc9109c log 2
    return ⟨wordAddress (words.getD 0 0), words.getD 1 0⟩
  parseWithdraw := fun log => do
    let words ← eventWords
      0xf279e6a1f5e320cca91135676d9cb6e44ca8a08c0b88342bcdb1144f6511b568 log 3
    return ⟨wordAddress (words.getD 0 0), words.getD 1 0, words.getD 2 0⟩
  parseCollectedSignatures := fun log => do
    let words ← eventWords
      0x415557404d88a0c0b8e3b16967cafffc511213fd9c465c16832ee17ed57d7237 log 3
    return ⟨wordAddress (words.getD 0 0), words.getD 1 0, words.getD 2 0⟩
  depositInput := fun recipient value hash => [0x26, 0xb3, 0x29, 0x3f]
    ++ wordBytes (addressWord recipient) ++ wordBytes value ++ wordBytes hash
  decodeDeposit := fun data => do
    require (data.take 4 = [0x26, 0xb3, 0x29, 0x3f])
    let recipient ← wordAt (data.drop 4) 0
    let value ← wordAt (data.drop 4) 1
    let hash ← wordAt (data.drop 4) 2
    return (wordAddress recipient, value, hash)
  submitSignatureInput := fun signature message => [0x63, 0x0c, 0xea, 0x8e]
    ++ dynamicArguments [dynamicBytes signature, dynamicBytes message]
  signatureInput := fun hash index => [0x18, 0x12, 0xd9, 0x96]
    ++ wordBytes hash ++ wordBytes index
  messageInput := fun hash => [0x49, 0x0a, 0x32, 0xc6] ++ wordBytes hash
  withdrawInput := fun vs rs ss message => [0x9c, 0xe3, 0x18, 0xf6]
    ++ dynamicArguments [dynamicWords (vs.map fun v => BitVec.ofNat 256 v.toNat),
      dynamicWords rs, dynamicWords ss, dynamicBytes message]
  signatureOutput := bytesOutput
  messageOutput := bytesOutput

@[simp] theorem length_flatMap_wordBytes (words : List (BitVec 256)) :
    (words.flatMap wordBytes).length = 32 * words.length := by
  induction words with
  | nil => rfl
  | cons w words ih =>
    rw [List.flatMap_cons, List.length_append, ih, length_wordBytes, List.length_cons]
    omega

theorem drop_flatMap_wordBytes (words : List (BitVec 256)) (i : Nat) :
    (words.flatMap wordBytes).drop (32 * i) = (words.drop i).flatMap wordBytes := by
  induction words generalizing i with
  | nil => simp
  | cons w words ih =>
    cases i with
    | zero => rfl
    | succ i =>
      have hsplit : 32 * (i + 1) = (wordBytes w).length + 32 * i := by
        rw [length_wordBytes]
        omega
      rw [List.flatMap_cons, hsplit, List.drop_length_add_append, ih, List.drop_succ_cons]

/-- The word with index `i` of a list of encoded words. -/
theorem wordAt_flatMap {words : List (BitVec 256)} {i : Nat} (h : i < words.length) :
    wordAt (words.flatMap wordBytes) i = some words[i] := by
  rw [wordAt, if_pos (by rw [length_flatMap_wordBytes]; omega), drop_flatMap_wordBytes,
    List.drop_eq_getElem_cons h, List.flatMap_cons, ← length_wordBytes words[i],
    List.take_left, ofNat_decode_wordBytes]

/-- The words of a log that holds exactly them. -/
theorem eventWords_flatMap (topic : H256) (words : List (BitVec 256)) :
    eventWords topic ⟨[topic], words.flatMap wordBytes⟩ words.length = some words := by
  rw [eventWords, require_bind_eq_some]
  refine ⟨rfl, ?_⟩
  have hwords : words = (List.range words.length).map fun i => words.getD i 0 := by
    refine List.ext_getElem (by simp) fun i hi _ => ?_
    simp [hi]
  have hword : ∀ i ∈ List.range words.length,
      wordAt (words.flatMap wordBytes) i = some (words.getD i 0) := by
    intro i hi
    have hi := List.mem_range.1 hi
    rw [wordAt_flatMap hi]
    simp [hi]
  conv_rhs => rw [hwords]
  generalize List.range words.length = indices at hword
  induction indices with
  | nil => rfl
  | cons i indices ih =>
    rw [List.mapM_cons, hword i (by simp), ih fun j hj => hword j (by simp [hj])]
    rfl

theorem wordAt_zero_append (w : BitVec 256) (rest : Bytes) :
    wordAt (wordBytes w ++ rest) 0 = some w := by
  have hlength : 32 * (0 + 1) ≤ (wordBytes w ++ rest).length := by
    rw [List.length_append, length_wordBytes]
    omega
  rw [wordAt, if_pos hlength, Nat.mul_zero, List.drop_zero, List.take_left' (length_wordBytes w),
    ofNat_decode_wordBytes]

theorem bytesOutput_of_words {data : Bytes} {offset length : BitVec 256}
    (hoffset : wordAt data 0 = some offset)
    (hlength : wordAt (data.drop offset.toNat) 0 = some length)
    (hcontent : (((data.drop offset.toNat).drop 32).take length.toNat).length = length.toNat) :
    bytesOutput data = some (((data.drop offset.toNat).drop 32).take length.toNat) := by
  unfold bytesOutput
  simp only [hoffset, hlength, hcontent, Option.bind_eq_bind, Option.bind_some]
  rfl

/-- A byte string that a view returns is decoded from its encoding. -/
theorem bytesOutput_dynamicArguments {data : Bytes} (h : data.length < 2 ^ 256) :
    bytesOutput (dynamicArguments [dynamicBytes data]) = some data := by
  have hencoded : dynamicArguments [dynamicBytes data]
      = wordBytes (BitVec.ofNat 256 32) ++ dynamicBytes data := by
    simp [dynamicArguments]
  have hoffset : (BitVec.ofNat 256 32).toNat = 32 := by decide
  have htail : (dynamicArguments [dynamicBytes data]).drop (BitVec.ofNat 256 32).toNat
      = dynamicBytes data := by
    rw [hoffset, hencoded]
    exact List.drop_left' (length_wordBytes _)
  have hlength : (BitVec.ofNat 256 data.length).toNat = data.length := by
    rw [BitVec.toNat_ofNat, Nat.mod_eq_of_lt h]
  have hcontent : ((dynamicBytes data).drop 32).take (BitVec.ofNat 256 data.length).toNat
      = data := by
    rw [hlength, dynamicBytes, List.append_assoc, List.drop_left' (length_wordBytes _),
      List.take_left]
  have hhead : wordAt (dynamicBytes data) 0 = some (BitVec.ofNat 256 data.length) := by
    rw [dynamicBytes, List.append_assoc, wordAt_zero_append]
  have hfirst : wordAt (dynamicArguments [dynamicBytes data]) 0 = some (BitVec.ofNat 256 32) := by
    rw [hencoded, wordAt_zero_append]
  rw [bytesOutput_of_words hfirst (htail ▸ hhead) (by rw [htail, hcontent, hlength]), htail,
    hcontent]

theorem wordAddress_addressWord (a : Address) : wordAddress (addressWord a) = a := by
  simp [wordAddress, addressWord]

/-- The contract decodes the arguments that the Rust process encoded. -/
theorem decodeDeposit_depositInput (recipient : Address) (value : U256) (hash : H256) :
    solidity.decodeDeposit (solidity.depositInput recipient value hash)
      = some (recipient, value, hash) := by
  have hwords : wordBytes (addressWord recipient) ++ wordBytes value ++ wordBytes hash
      = [addressWord recipient, value, hash].flatMap wordBytes := by
    simp
  have hinput : solidity.depositInput recipient value hash
      = [0x26, 0xb3, 0x29, 0x3f] ++ [addressWord recipient, value, hash].flatMap wordBytes := by
    rw [← hwords]
    simp [solidity]
  have hword : ∀ i (h : i < 3), wordAt ((solidity.depositInput recipient value hash).drop 4) i
      = some ([addressWord recipient, value, hash].get ⟨i, h⟩) := by
    intro i h
    rw [hinput]
    exact wordAt_flatMap h
  have htake : (solidity.depositInput recipient value hash).take 4 = [0x26, 0xb3, 0x29, 0x3f] := by
    rw [hinput]
    rfl
  simp only [solidity] at hword htake ⊢
  rw [require_bind_eq_some]
  refine ⟨htake, ?_⟩
  rw [hword 0 (by decide), hword 1 (by decide), hword 2 (by decide)]
  simp [wordAddress_addressWord]

/-- What one side encodes, the other side reads: the process the events of the contracts, and
`ForeignBridge` the arguments of `deposit`. -/
structure RoundTrips (abi : Abi) : Prop where
  parseDeposit : ∀ (recipient : Address) (value : U256),
    abi.parseDeposit ⟨[abi.depositTopic], [addressWord recipient, value].flatMap wordBytes⟩
      = some ⟨recipient, value⟩
  parseWithdraw : ∀ (recipient : Address) (value homeGasPrice : U256),
    abi.parseWithdraw ⟨[abi.withdrawTopic],
        [addressWord recipient, value, homeGasPrice].flatMap wordBytes⟩
      = some ⟨recipient, value, homeGasPrice⟩
  decodeDeposit : ∀ (recipient : Address) (value : U256) (hash : H256),
    abi.decodeDeposit (abi.depositInput recipient value hash) = some (recipient, value, hash)

theorem roundTrips_solidity : solidity.RoundTrips where
  parseDeposit := by
    intro recipient value
    have hwords := eventWords_flatMap solidity.depositTopic [addressWord recipient, value]
    show (eventWords solidity.depositTopic _ 2 >>= _) = _
    rw [List.length_cons, List.length_singleton] at hwords
    rw [hwords, Option.bind_eq_bind, Option.bind_some]
    exact congrArg some (congrArg (DepositEvent.mk · value) (wordAddress_addressWord recipient))
  parseWithdraw := by
    intro recipient value homeGasPrice
    have hwords := eventWords_flatMap solidity.withdrawTopic
      [addressWord recipient, value, homeGasPrice]
    show (eventWords solidity.withdrawTopic _ 3 >>= _) = _
    rw [List.length_cons, List.length_cons, List.length_singleton] at hwords
    rw [hwords, Option.bind_eq_bind, Option.bind_some]
    exact congrArg some (congrArg (WithdrawEvent.mk · value homeGasPrice)
      (wordAddress_addressWord recipient))
  decodeDeposit := decodeDeposit_depositInput

end Abi

end PoaBridge
