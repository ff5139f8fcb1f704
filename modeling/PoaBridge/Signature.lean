import PoaBridge.Abi

/-!
# Signatures

`Signature` of `bridge/src/signature.rs`.  The contracts take a signature apart
with `mload`, and `recoverAddressFromSignedMessage_of_fromBytes` says that they
find the components that `fromBytes` returns.  `signature_codec_agrees` puts
this together with the two round trips of the Rust code.
-/

namespace PoaBridge

open BigEndian

/-- `SIGNATURE_LENGTH`. -/
def signatureLength : Nat := 65

/-- `Signature`. -/
structure Signature where
  v : UInt8
  r : H256
  s : H256
deriving DecidableEq, Repr

namespace Signature

/-- `Signature::from_bytes`. -/
def fromBytes (bytes : Bytes) : Except Error Signature :=
  if bytes.length = signatureLength then
    .ok {
      v := bytes.getD 64 0
      r := BitVec.ofNat 256 (decode (bytes.take 32))
      s := BitVec.ofNat 256 (decode ((bytes.drop 32).take 32)) }
  else .error (.msg "`bytes`.len() must be 65")

theorem exists_fromBytes {bytes : Bytes} (h : bytes.length = 65) :
    ∃ sig, fromBytes bytes = .ok sig :=
  ⟨_, if_pos h⟩

theorem fromBytes_eq_ok {bytes : Bytes} {sig : Signature} (h : fromBytes bytes = .ok sig) :
    bytes.length = 65 ∧ sig.v = bytes.getD 64 0 ∧
      sig.r = BitVec.ofNat 256 (decode (bytes.take 32)) ∧
      sig.s = BitVec.ofNat 256 (decode ((bytes.drop 32).take 32)) := by
  unfold fromBytes at h
  split at h
  · rename_i hlength
    rw [← Except.ok.inj h]
    exact ⟨hlength, rfl, rfl, rfl⟩
  · cases h

/-- `Signature::to_bytes`: `r` and `s` in the two slices, and `v` behind them. -/
def toBytes (sig : Signature) : Bytes := wordBytes sig.r ++ wordBytes sig.s ++ [sig.v]

/-! ## The contract reads what the Rust code reads -/

/-- The components that the contract loads from memory. -/
structure Loads (memory : Memory) (sig : Signature) : Prop where
  r : mload memory 0x20 = sig.r
  s : mload memory 0x40 = sig.s
  v : signatureV memory = sig.v

/-- The last load reads 31 bytes behind the signature, and the conversion to
`bytes1` drops them. -/
theorem loads_of_fromBytes {signature : Bytes} {sig : Signature}
    (h : fromBytes signature = .ok sig) (rest : Memory) :
    Loads (bytesInMemory signature rest) sig := by
  obtain ⟨hlength, hv, hr, hs⟩ := fromBytes_eq_ok h
  have hsize : (wordBytes (BitVec.ofNat 256 signature.length) ++ signature).length = 97 := by
    rw [List.length_append, length_wordBytes, hlength]
  have hdrop : ∀ k, (wordBytes (BitVec.ofNat 256 signature.length) ++ signature).drop (32 + k)
      = signature.drop k := by
    intro k
    rw [← List.drop_drop, List.drop_left' (length_wordBytes _)]
  have hload : ∀ k, k + 32 ≤ 65 → mload (bytesInMemory signature rest) (32 + k)
      = BitVec.ofNat 256 (decode ((signature.drop k).take 32)) := by
    intro k hk
    rw [mload, bytesInMemory, window_image (by omega), hdrop]
  refine ⟨?_, ?_, ?_⟩
  · rw [hr, show (0x20 : Nat) = 32 + 0 from rfl, hload 0 (by omega), List.drop_zero]
  · rw [hs, show (0x40 : Nat) = 32 + 32 from rfl, hload 32 (by omega)]
  · rw [signatureV_eq, hv, bytesInMemory, image, List.getElem?_append_right (by simp),
      length_wordBytes]
    have hlt : 64 < signature.length := by omega
    simp [List.getD, hlt]

section Recover

variable {Digest : Type} (keccak256 : Bytes → Digest)
  (ecrecover : Digest → UInt8 → H256 → H256 → Address)

/-- The contract recovers the signer from the components that `fromBytes`
returns. -/
theorem recoverAddressFromSignedMessage_of_fromBytes {signature : Bytes} {sig : Signature}
    (h : fromBytes signature = .ok sig) (message : Bytes) (rest : Memory) :
    recoverAddressFromSignedMessage keccak256 ecrecover signature message rest
      = (hashMessage keccak256 message).map fun hash => ecrecover hash sig.v sig.r sig.s := by
  have hloads := loads_of_fromBytes h rest
  rw [recoverAddressFromSignedMessage, if_pos (fromBytes_eq_ok h).1]
  dsimp only
  rw [hloads.r, hloads.s, hloads.v]
  cases hashMessage keccak256 message <;> rfl

theorem recoverAddressFromSignedMessage_of_length {signature : Bytes}
    (h : signature.length ≠ 65) (message : Bytes) (rest : Memory) :
    recoverAddressFromSignedMessage keccak256 ecrecover signature message rest = none :=
  if_neg h

end Recover

/-! ## The two round trips -/

/-- Reading a signature that was written gives it back. -/
theorem fromBytes_toBytes (sig : Signature) : fromBytes sig.toBytes = .ok sig := by
  have hlength : sig.toBytes.length = signatureLength := by
    simp [toBytes, signatureLength]
  have hr : sig.toBytes.take 32 = wordBytes sig.r := by
    rw [toBytes, List.append_assoc, List.take_left' (length_wordBytes _)]
  have hs : (sig.toBytes.drop 32).take 32 = wordBytes sig.s := by
    rw [toBytes, List.append_assoc, List.drop_left' (length_wordBytes _),
      List.take_left' (length_wordBytes _)]
  have hv : sig.toBytes.getD 64 0 = sig.v := by
    rw [toBytes, List.getD, List.getElem?_append_right (by simp)]
    simp
  rw [fromBytes, if_pos hlength, hr, hs, hv]
  simp only [ofNat_decode_wordBytes]

/-- Writing a signature that was read gives its bytes back. -/
theorem toBytes_of_fromBytes {bytes : Bytes} {sig : Signature} (h : fromBytes bytes = .ok sig) :
    sig.toBytes = bytes := by
  obtain ⟨hlength, hv, hr, hs⟩ := fromBytes_eq_ok h
  have hlast : bytes.drop 64 = [bytes.getD 64 0] := by
    rw [List.drop_eq_getElem_cons (by omega), List.drop_of_length_le (by omega)]
    simp [List.getD, show 64 < bytes.length by omega]
  have hsplit : bytes.take 32 ++ (bytes.drop 32).take 32 ++ bytes.drop 64 = bytes := by
    rw [← List.take_add, List.take_append_drop]
  rw [toBytes, hr, hs, hv, wordBytes_ofNat_decode (by simp [hlength]),
    wordBytes_ofNat_decode (by simp [hlength]), ← hlast]
  exact hsplit

/-- The codec and the loads of the contract agree on every byte string, whatever
stands behind it in memory. -/
theorem signature_codec_agrees (sig : Signature) (bytes : Bytes) :
    fromBytes sig.toBytes = .ok sig ∧
      ((∃ read, fromBytes bytes = .ok read) ↔ bytes.length = 65) ∧
      (∀ read, fromBytes bytes = .ok read → read.toBytes = bytes ∧
        ∀ rest : Memory, Loads (bytesInMemory bytes rest) read) ∧
      ∀ {Digest : Type} (keccak256 : Bytes → Digest)
        (ecrecover : Digest → UInt8 → H256 → H256 → Address) (message : Bytes) (rest : Memory),
        (∀ read, fromBytes bytes = .ok read →
          recoverAddressFromSignedMessage keccak256 ecrecover bytes message rest
            = (hashMessage keccak256 message).map fun hash =>
              ecrecover hash read.v read.r read.s) ∧
        (bytes.length ≠ 65 →
          recoverAddressFromSignedMessage keccak256 ecrecover bytes message rest = none) := by
  refine ⟨fromBytes_toBytes sig, ⟨?_, exists_fromBytes⟩, ?_, ?_⟩
  · intro hread
    obtain ⟨read, hread⟩ := hread
    exact (fromBytes_eq_ok hread).1
  · exact fun read hread => ⟨toBytes_of_fromBytes hread, loads_of_fromBytes hread⟩
  · intro Digest keccak256 ecrecover message rest
    exact ⟨fun read hread =>
        recoverAddressFromSignedMessage_of_fromBytes keccak256 ecrecover hread message rest,
      fun hlength =>
        recoverAddressFromSignedMessage_of_length keccak256 ecrecover hlength message rest⟩

end Signature

end PoaBridge
