import PoaBridge.Abi

/-!
# The message that is relayed from foreign to home

`MessageToMainnet` of `bridge/src/message_to_mainnet.rs` and the digest
`eth_data_hash` of `bridge/src/api.rs` that a validator signs.

The Rust code writes the message as 116 bytes, and the contracts read it back
with `mload` at fixed offsets.  `getRecipient_toBytes`, `getValue_toBytes` and
`getTransactionHash_toBytes` say that the contracts read the fields that the
Rust code wrote, whatever stands behind the message in memory.  Every 116-byte
string is the encoding of the message that is read from it, so the two sides
agree on all of them (`codec_agrees`).

The contract prints the length of the message with `uintToString` before it
hashes.  `signed_digests_agree` says that both languages hash the same bytes.
-/

namespace PoaBridge

open BigEndian

/-- `MessageToMainnet`. -/
structure MessageToMainnet where
  recipient : Address
  value : U256
  sidenetTransactionHash : H256
  mainnetGasPrice : U256
deriving DecidableEq, Repr

/-- `MESSAGE_LENGTH`. -/
def messageLength : Nat := 116

namespace MessageToMainnet

/-- `MessageToMainnet::from_bytes`, which asserts the length. -/
def fromBytes (bytes : Bytes) : Except Error MessageToMainnet :=
  if bytes.length = messageLength then
    .ok {
      recipient := BitVec.ofNat 160 (decode (bytes.take 20))
      value := BitVec.ofNat 256 (decode ((bytes.drop 20).take 32))
      sidenetTransactionHash := BitVec.ofNat 256 (decode ((bytes.drop 52).take 32))
      mainnetGasPrice := BitVec.ofNat 256 (decode ((bytes.drop 84).take 32)) }
  else .error (.panic "assertion failed: `(left == right)`")

/-- `MessageToMainnet::from_log`. -/
def fromLog (abi : Abi) (log : Log) : Except Error MessageToMainnet :=
  match abi.parseWithdraw log.rawLog with
  | none => .error .ethabi
  | some event =>
    match log.transactionHash with
    | none => .error (.msg "`log` must be mined and contain `transaction_hash`")
    | some hash =>
      .ok {
        recipient := event.recipient
        value := event.value
        sidenetTransactionHash := hash
        mainnetGasPrice := event.homeGasPrice }

/-- What the message of a log says about the log. -/
theorem fromLog_eq_ok {abi : Abi} {log : Log} {message : MessageToMainnet}
    (h : fromLog abi log = .ok message) :
    abi.parseWithdraw log.rawLog
        = some ⟨message.recipient, message.value, message.mainnetGasPrice⟩ ∧
      log.transactionHash = some message.sidenetTransactionHash := by
  unfold fromLog at h
  split at h
  · cases h
  · rename_i event hevent
    split at h
    · cases h
    · rename_i hash hhash
      rw [hevent, hhash, ← Except.ok.inj h]
      exact ⟨rfl, rfl⟩

/-- `MessageToMainnet::to_bytes`: the four fields in the four slices of the
buffer. -/
def toBytes (self : MessageToMainnet) : Bytes :=
  addressBytes self.recipient ++ wordBytes self.value ++
    wordBytes self.sidenetTransactionHash ++ wordBytes self.mainnetGasPrice

@[simp] theorem length_toBytes (self : MessageToMainnet) :
    self.toBytes.length = messageLength := by
  simp [toBytes, messageLength]

end MessageToMainnet

/-! ## The digest -/

/-- `eth_data_hash`: `format!` prints the length in decimal. -/
def ethDataHash {Digest : Type} (keccak256 : Bytes → Digest) (data : Bytes) : Digest :=
  keccak256 (signedMessagePrefix ++ asciiBytes (toString data.length) ++ data)

/-- `format!` and `uintToString` print a number in the same digits. -/
theorem asciiBytes_toString (n : Nat) : asciiBytes (toString n) = Decimal.digits n := by
  show (String.ofList (Nat.toDigits 10 n)).toList.map _ = _
  rw [String.toList_ofList]
  rfl

/-- Both languages hash the same bytes, whatever the hash function is. -/
theorem hashMessage_eq_ethDataHash {Digest : Type} (keccak256 : Bytes → Digest) {message : Bytes}
    (h : message.length < 2 ^ 256) :
    hashMessage keccak256 message = some (ethDataHash keccak256 message) := by
  rw [hashMessage, uintToString_eq h, ethDataHash, asciiBytes_toString]
  rfl

/-- `uintToString` ends for every `uint256`, without a write outside its buffer,
and returns the decimal text of the number.  So the digest that the Rust code
signs and the digest that the contract recovers from are hashes of the same
bytes: with the identity as the hash function, these are the two preimages. -/
theorem signed_digests_agree (message : Bytes) (hmessage : message.length < 2 ^ 256) :
    (∀ n : U256, ∃ text, UintToString n text ∧ (∀ text', UintToString n text' → text' = text) ∧
      uintToString n.toNat = some text ∧ Decimal.Canonical n.toNat text) ∧
    hashMessage id message = some (ethDataHash id message) ∧
    ∀ {Digest : Type} (keccak256 : Bytes → Digest),
      hashMessage keccak256 message = some (ethDataHash keccak256 message) := by
  refine ⟨fun n => ?_, hashMessage_eq_ethDataHash id hmessage,
    fun keccak256 => hashMessage_eq_ethDataHash keccak256 hmessage⟩
  obtain ⟨hrun, htext⟩ := uintToString_run n
  exact ⟨_, hrun, fun text' hrun' => uintToString_unique hrun' hrun, htext,
    Decimal.canonical_digits _⟩

theorem signed_digests_agree_replicate :
    (List.replicate 116 (0xab : UInt8)).length < 2 ^ 256 ∧
      hashMessage id (List.replicate 116 0xab)
        = some (ethDataHash id (List.replicate 116 0xab)) :=
  ⟨by simp, (signed_digests_agree (List.replicate 116 0xab) (by simp)).2.1⟩

/-! ## The contracts read what the Rust code wrote -/

/-- A word that lies in the memory of a `bytes` value between `before` and
`after` is what `mload` returns. -/
theorem mload_eq_of_append {data : Bytes} {rest : Memory} {offset : Nat} {word : Bytes}
    (before after : Bytes)
    (hdata : wordBytes (BitVec.ofNat 256 data.length) ++ data = before ++ word ++ after)
    (hoffset : before.length = offset) (hword : word.length = 32) :
    mload (bytesInMemory data rest) offset = BitVec.ofNat 256 (decode word) := by
  have hin : offset + 32 ≤ (before ++ word ++ after).length := by
    simp only [List.length_append, hword]
    omega
  rw [mload, bytesInMemory, hdata, window_image hin, ← hoffset, List.append_assoc,
    List.drop_left, ← hword, List.take_left]

namespace MessageToMainnet

variable (m : MessageToMainnet) (rest : Memory)

/-- The word at offset 20 ends with the address.  The bytes in front of it
belong to the length, and the conversion to `address` drops them. -/
theorem getRecipient_toBytes : getRecipient (bytesInMemory m.toBytes rest) = m.recipient := by
  let length := wordBytes (BitVec.ofNat 256 m.toBytes.length)
  have hword : mload (bytesInMemory m.toBytes rest) 20
      = BitVec.ofNat 256 (decode (length.drop 20 ++ addressBytes m.recipient)) := by
    refine mload_eq_of_append (length.take 20) (wordBytes m.value ++
      wordBytes m.sidenetTransactionHash ++ wordBytes m.mainnetGasPrice) ?_ ?_ ?_
    · simp only [toBytes, List.append_assoc]
      rw [← List.append_assoc (length.take 20), List.take_append_drop]
      simp [length, toBytes]
    · simp [length]
    · simp [length]
  apply BitVec.eq_of_toNat_eq
  rw [getRecipient, hword, decode_append, decode_addressBytes, length_addressBytes]
  simp only [BitVec.toNat_setWidth, BitVec.toNat_ofNat]
  have hlt := m.recipient.isLt
  omega

theorem getValue_toBytes : getValue (bytesInMemory m.toBytes rest) = m.value := by
  rw [getValue, mload_eq_of_append
    (wordBytes (BitVec.ofNat 256 m.toBytes.length) ++ addressBytes m.recipient)
    (wordBytes m.sidenetTransactionHash ++ wordBytes m.mainnetGasPrice)
    (by simp [toBytes]) (by simp) (length_wordBytes m.value)]
  exact ofNat_decode_wordBytes _

theorem getTransactionHash_toBytes :
    getTransactionHash (bytesInMemory m.toBytes rest) = m.sidenetTransactionHash := by
  rw [getTransactionHash, mload_eq_of_append
    (wordBytes (BitVec.ofNat 256 m.toBytes.length) ++ addressBytes m.recipient
      ++ wordBytes m.value) (wordBytes m.mainnetGasPrice)
    (by simp [toBytes]) (by simp) (length_wordBytes m.sidenetTransactionHash)]
  exact ofNat_decode_wordBytes _

theorem getHomeGasPrice_toBytes :
    getHomeGasPrice (bytesInMemory m.toBytes rest) = m.mainnetGasPrice := by
  rw [getHomeGasPrice, mload_eq_of_append
    (wordBytes (BitVec.ofNat 256 m.toBytes.length) ++ addressBytes m.recipient
      ++ wordBytes m.value ++ wordBytes m.sidenetTransactionHash) []
    (by simp [toBytes]) (by simp) (length_wordBytes m.mainnetGasPrice)]
  exact ofNat_decode_wordBytes _

/-! ## Both sides agree on every message -/

/-- Reading a message that was written gives it back. -/
theorem fromBytes_toBytes : fromBytes m.toBytes = .ok m := by
  have hbytes : m.toBytes = addressBytes m.recipient ++ (wordBytes m.value ++
      (wordBytes m.sidenetTransactionHash ++ wordBytes m.mainnetGasPrice)) := by
    simp [toBytes]
  have hrecipient : m.toBytes.take 20 = addressBytes m.recipient := by
    rw [hbytes, List.take_left' (length_addressBytes _)]
  have hvalue : (m.toBytes.drop 20).take 32 = wordBytes m.value := by
    rw [hbytes, List.drop_left' (length_addressBytes _), List.take_left' (length_wordBytes _)]
  have hhash : (m.toBytes.drop 52).take 32 = wordBytes m.sidenetTransactionHash := by
    rw [hbytes, ← List.append_assoc, List.drop_left' (by simp),
      List.take_left' (length_wordBytes _)]
  have hgas : (m.toBytes.drop 84).take 32 = wordBytes m.mainnetGasPrice := by
    rw [hbytes, ← List.append_assoc, ← List.append_assoc, List.drop_left' (by simp)]
    exact List.take_of_length_le (length_wordBytes _).le
  rw [fromBytes, if_pos (length_toBytes m), hrecipient, hvalue, hhash, hgas]
  simp only [ofNat_decode_wordBytes, decode_addressBytes]
  rw [BitVec.ofNat_toNat, BitVec.setWidth_eq]

/-- Every string of the right length is read, and writing what was read gives
it back. -/
theorem exists_toBytes_eq {bytes : Bytes} (h : bytes.length = messageLength) :
    ∃ m, fromBytes bytes = .ok m ∧ m.toBytes = bytes := by
  rw [messageLength] at h
  refine ⟨_, if_pos h, ?_⟩
  have hsplit : bytes = bytes.take 20 ++ (bytes.drop 20).take 32 ++ (bytes.drop 52).take 32
      ++ (bytes.drop 84).take 32 := by
    rw [← List.take_add, ← List.take_add, ← List.take_add]
    exact (List.take_of_length_le h.le).symm
  conv_rhs => rw [hsplit]
  rw [toBytes, addressBytes_ofNat_decode (by simp [h]), wordBytes_ofNat_decode (by simp [h]),
    wordBytes_ofNat_decode (by simp [h]), wordBytes_ofNat_decode (by simp [h])]

/-- The encoder, the decoder and the four memory reads of the contracts agree:
the two round trips hold, and what the contracts read from the memory of any
116-byte string are the fields of the message that `fromBytes` reads. -/
theorem codec_agrees (m : MessageToMainnet) (bytes : Bytes) (h : bytes.length = 116) :
    fromBytes m.toBytes = .ok m ∧
      ∃ read, fromBytes bytes = .ok read ∧ read.toBytes = bytes ∧
        ∀ rest : Memory, getRecipient (bytesInMemory bytes rest) = read.recipient ∧
          getValue (bytesInMemory bytes rest) = read.value ∧
          getTransactionHash (bytesInMemory bytes rest) = read.sidenetTransactionHash ∧
          getHomeGasPrice (bytesInMemory bytes rest) = read.mainnetGasPrice := by
  obtain ⟨read, hread, rfl⟩ := exists_toBytes_eq h
  exact ⟨fromBytes_toBytes m, read, hread, rfl, fun rest =>
    ⟨getRecipient_toBytes read rest, getValue_toBytes read rest,
      getTransactionHash_toBytes read rest, getHomeGasPrice_toBytes read rest⟩⟩

/-- A string of 116 equal bytes. -/
theorem codec_agrees_replicate :
    (List.replicate 116 (0xab : UInt8)).length = 116 ∧
      ∃ read, fromBytes (List.replicate 116 0xab) = .ok read ∧
        read.toBytes = List.replicate 116 0xab := by
  obtain ⟨-, read, hread, hbytes, -⟩ :=
    codec_agrees ⟨0, 0, 0, 0⟩ (List.replicate 116 0xab) List.length_replicate
  exact ⟨List.length_replicate, read, hread, hbytes⟩

end MessageToMainnet

end PoaBridge
