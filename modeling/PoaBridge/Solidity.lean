import PoaBridge.Types
import PoaBridge.Lib.BigEndian
import PoaBridge.Lib.Decimal
import PoaBridge.Lib.Loops

/-!
# The Solidity libraries

`Helpers`, `Message` and `MessageSigning`.  Both contract generations carry
the same text of these libraries: `contracts/bridge.sol` in one file with its
contracts, `truffle/contracts/libraries/helpers.sol` on its own.  What differs
is the quorum check, and it is with the contracts that use it.

The EVM parts are parameters: `keccak256` hashes a byte string to a digest and
`ecrecover` returns the signer of a digest.  The type of digests is a
parameter too, because a hash that never collides on byte strings needs more
digests than there are 256-bit words.

A `bytes` value in memory is a 32-byte length word and the data.  What follows
it in memory is not under the control of the caller, so it is an argument.

A function that can revert returns an `Option`, with `none` for the revert.
`require_bind_eq_some` peels a `require` off a call that succeeded.
-/

namespace PoaBridge

open BigEndian

/-! ## Reverts -/

/-- `require(condition)`. -/
def require (condition : Prop) [Decidable condition] : Option Unit :=
  if condition then some () else none

@[simp] theorem require_bind_eq_some {α : Type} {condition : Prop} [Decidable condition]
    {k : Unit → Option α} {a : α} :
    (require condition >>= k) = some a ↔ condition ∧ k () = some a := by
  by_cases h : condition <;> simp [require, h]

/-! ## Bytes -/

/-- The bytes of an ASCII string. -/
def asciiBytes (s : String) : Bytes := s.toList.map fun c => UInt8.ofNat c.toNat

/-- `abi.encodePacked` of an address. -/
def addressBytes (a : Address) : Bytes := encode 20 a.toNat

/-- `abi.encodePacked` of a 256-bit word. -/
def wordBytes (w : BitVec 256) : Bytes := encode 32 w.toNat

@[simp] theorem length_addressBytes (a : Address) : (addressBytes a).length = 20 :=
  length_encode ..

@[simp] theorem length_wordBytes (w : BitVec 256) : (wordBytes w).length = 32 :=
  length_encode ..

theorem addressBytes_inj {a b : Address} (h : addressBytes a = addressBytes b) : a = b :=
  BitVec.eq_of_toNat_eq <| encode_inj (lt_of_lt_of_eq a.isLt (by norm_num))
    (lt_of_lt_of_eq b.isLt (by norm_num)) h

theorem wordBytes_inj {v w : BitVec 256} (h : wordBytes v = wordBytes w) : v = w :=
  BitVec.eq_of_toNat_eq <| encode_inj (lt_of_lt_of_eq v.isLt (by norm_num))
    (lt_of_lt_of_eq w.isLt (by norm_num)) h

theorem decode_addressBytes (a : Address) : decode (addressBytes a) = a.toNat :=
  decode_encode_of_lt (lt_of_lt_of_eq a.isLt (by norm_num))

theorem decode_wordBytes (w : BitVec 256) : decode (wordBytes w) = w.toNat :=
  decode_encode_of_lt (lt_of_lt_of_eq w.isLt (by norm_num))

/-- Reading a word that was written gives it back. -/
theorem ofNat_decode_wordBytes (w : BitVec 256) :
    BitVec.ofNat 256 (decode (wordBytes w)) = w := by
  rw [decode_wordBytes]
  exact BitVec.ofNat_toNat _ _ |>.trans (BitVec.setWidth_eq w)

/-- Writing an address that was read gives its bytes back. -/
theorem addressBytes_ofNat_decode {bytes : Bytes} (h : bytes.length = 20) :
    addressBytes (BitVec.ofNat 160 (decode bytes)) = bytes := by
  have hlt := decode_lt bytes
  rw [h] at hlt
  rw [addressBytes, BitVec.toNat_ofNat, Nat.mod_eq_of_lt (hlt.trans_eq (by norm_num)), ← h]
  exact encode_decode bytes

/-- Writing a word that was read gives its bytes back. -/
theorem wordBytes_ofNat_decode {bytes : Bytes} (h : bytes.length = 32) :
    wordBytes (BitVec.ofNat 256 (decode bytes)) = bytes := by
  have hlt := decode_lt bytes
  rw [h] at hlt
  rw [wordBytes, BitVec.toNat_ofNat, Nat.mod_eq_of_lt (hlt.trans_eq (by norm_num)), ← h]
  exact encode_decode bytes

/-- The prefix that `eth_sign` puts in front of the length. -/
def signedMessagePrefix : Bytes := asciiBytes "\x19Ethereum Signed Message:\n"

/-! ## `Helpers` -/

/-- `Helpers.addressArrayContains`: the loop over the array. -/
def addressArrayContains : List Address → Address → Bool
  | [], _ => false
  | a :: array, value => if a = value then true else addressArrayContains array value

@[simp] theorem addressArrayContains_iff {array : List Address} {value : Address} :
    addressArrayContains array value = true ↔ value ∈ array := by
  induction array with
  | nil => simp [addressArrayContains]
  | cons a array ih =>
    by_cases h : a = value
    · simp [addressArrayContains, h]
    · simp [addressArrayContains, h, ih, Ne.symm h]

/-- The first loop of `Helpers.uintToString`, which counts the digits.  A
`uint256` has at most 78 of them, and `fuel` bounds the iterations. -/
def digitCount : (fuel : Nat) → (currentValue : Nat) → Nat
  | 0, _ => 0
  | fuel + 1, currentValue =>
    if currentValue / 10 = 0 then 1 else 1 + digitCount fuel (currentValue / 10)

/-- The second loop of `Helpers.uintToString`: write the last digit at `i`,
and go on with the others below it.  A write outside the buffer reverts. -/
def writeDigits : (fuel : Nat) → (i : Nat) → (currentValue : Nat) → Bytes → Option Bytes
  | 0, _, _, result => some result
  | fuel + 1, i, currentValue, result =>
    if i < result.length then
      let result := result.set i (UInt8.ofNat (48 + currentValue % 10))
      if currentValue / 10 = 0 then some result
      -- `i--` wraps at zero, and a wrapped index is outside the buffer
      else writeDigits fuel (if i = 0 then 2 ^ 256 - 1 else i - 1) (currentValue / 10) result
    else none

/-- `Helpers.uintToString`. -/
def uintToString (inputValue : Nat) : Option Bytes :=
  let length := digitCount 78 inputValue
  writeDigits 78 (length - 1) inputValue (List.replicate length 0)

/-- The first loop counts the digits. -/
theorem digitCount_eq {fuel n : Nat} (h : n < 10 ^ fuel) (hfuel : 0 < fuel) :
    digitCount fuel n = (Decimal.digits n).length := by
  induction fuel generalizing n with
  | zero => omega
  | succ fuel ih =>
    rw [digitCount]
    split
    · rename_i hsmall
      rw [Decimal.digits_of_lt (by omega)]
      rfl
    · rename_i hlarge
      have hfuel' : 0 < fuel := by
        rcases Nat.eq_zero_or_pos fuel with rfl | hpos
        · omega
        · exact hpos
      rw [Decimal.digits_of_le (by omega), List.length_append, List.length_singleton,
        ih (by rw [pow_succ] at h; omega) hfuel', Nat.add_comm]

/-- The buffer from the position of a write on. -/
theorem drop_set_self {buffer : Bytes} {i : Nat} (c : UInt8) (h : i < buffer.length) :
    (buffer.set i c).drop i = c :: buffer.drop (i + 1) := by
  rw [List.drop_set, if_neg (lt_irrefl i), Nat.sub_self, List.drop_eq_getElem_cons h]
  rfl

/-- The second loop writes the digits in front of what is behind them in the
buffer. -/
theorem writeDigits_eq {fuel n : Nat} {result : Bytes} (h : n < 10 ^ fuel) (hfuel : 0 < fuel)
    (hresult : (Decimal.digits n).length ≤ result.length) :
    writeDigits fuel ((Decimal.digits n).length - 1) n result
      = some (Decimal.digits n ++ result.drop (Decimal.digits n).length) := by
  induction fuel generalizing n result with
  | zero => omega
  | succ fuel ih =>
    have hpos := Decimal.length_digits_pos n
    rw [writeDigits, if_pos (by omega)]
    dsimp only
    split
    · rename_i hsmall
      have hn : n < 10 := by omega
      have hdigits := Decimal.digits_of_lt hn
      rw [hdigits, List.length_singleton] at hresult
      rw [hdigits, List.length_singleton, Nat.mod_eq_of_lt hn]
      exact congrArg some (@drop_set_self result 0 _ (by omega))
    · rename_i hlarge
      have hdigits := Decimal.digits_of_le (show 10 ≤ n by omega)
      have hpos' := Decimal.length_digits_pos (n / 10)
      have hfuel' : 0 < fuel := by
        rcases Nat.eq_zero_or_pos fuel with rfl | hpos
        · omega
        · exact hpos
      rw [hdigits, List.length_append, List.length_singleton] at hresult
      rw [hdigits, List.length_append, List.length_singleton, Nat.add_sub_cancel,
        if_neg (by omega), ih (by rw [pow_succ] at h; omega) hfuel' (by simp; omega),
        drop_set_self _ (by omega), List.append_assoc]
      rfl

/-- A `uint256` is printed in its decimal digits. -/
theorem uintToString_eq {n : Nat} (h : n < 2 ^ 256) :
    uintToString n = some (Decimal.digits n) := by
  have hdigits : n < 10 ^ 78 := h.trans (by decide)
  rw [uintToString, digitCount_eq hdigits (by decide), writeDigits_eq hdigits (by decide)
    (by rw [List.length_replicate])]
  simp

theorem length_writeDigits {fuel i n : Nat} {result text : Bytes}
    (h : writeDigits fuel i n result = some text) : text.length = result.length := by
  induction fuel generalizing i n result with
  | zero => rw [← Option.some.inj h]
  | succ fuel ih =>
    rw [writeDigits] at h
    dsimp only at h
    split at h
    · split at h
      · rw [← Option.some.inj h, List.length_set]
      · rw [ih h, List.length_set]
    · cases h

/-- A count below the bound is the number of the digits. -/
theorem lt_pow_digitCount {fuel n : Nat} (h : digitCount fuel n < fuel) :
    n < 10 ^ digitCount fuel n := by
  induction fuel generalizing n with
  | zero => omega
  | succ fuel ih =>
    rw [digitCount] at h ⊢
    split
    · omega
    · rename_i hlarge
      rw [if_neg hlarge] at h
      have := ih (n := n / 10) (by omega)
      rw [Nat.add_comm, pow_succ]
      omega

/-- No other number is printed like a number of fewer than 78 digits. -/
theorem eq_of_uintToString {n m : Nat} (h : uintToString n = some (Decimal.digits m))
    (hm : (Decimal.digits m).length < 78) : n = m := by
  have hlength := length_writeDigits h
  rw [List.length_replicate] at hlength
  have hlt := lt_pow_digitCount (hlength ▸ hm)
  have hn : n < 2 ^ 256 := hlt.trans_le
    ((Nat.pow_le_pow_right (by decide) (Nat.le_of_lt_succ (hlength ▸ hm))).trans (by decide))
  rw [uintToString_eq hn] at h
  exact Decimal.digits_injective (Option.some.inj h)

/-! ### The loops with their variables -/

/-- The variables of the first loop of `Helpers.uintToString`. -/
structure CountLoop where
  length : U256
  currentValue : U256

/-- The variables of the second loop of `Helpers.uintToString`. -/
structure WriteLoop where
  i : U256
  currentValue : U256
  result : Bytes

/-- `length++; currentValue /= 10`. -/
def CountLoop.body (loop : CountLoop) : Option CountLoop :=
  some ⟨loop.length + 1, loop.currentValue / 10⟩

/-- `result[i--] = byte(48 + currentValue % 10); currentValue /= 10`.  A write
outside the buffer reverts, and `i--` wraps. -/
def WriteLoop.body (loop : WriteLoop) : Option WriteLoop := do
  require (loop.i.toNat < loop.result.length)
  return {
    i := loop.i - 1
    currentValue := loop.currentValue / 10
    result := loop.result.set loop.i.toNat
      (UInt8.ofNat (48 + (loop.currentValue % 10).toNat)) }

/-- `while (currentValue != 0)` of the first loop. -/
abbrev CountLoop.Run : CountLoop → CountLoop → Prop :=
  Loops.DoWhile CountLoop.body fun loop => loop.currentValue ≠ 0

/-- `while (currentValue != 0)` of the second loop. -/
abbrev WriteLoop.Run : WriteLoop → WriteLoop → Prop :=
  Loops.DoWhile WriteLoop.body fun loop => loop.currentValue ≠ 0

/-- A `uint256` has at most 78 digits. -/
theorem length_digits_le (n : U256) : (Decimal.digits n.toNat).length ≤ 78 :=
  (Decimal.length_digits_le_iff (by decide)).2 (n.isLt.trans (by decide))

/-- The digits that are counted and those that are left. -/
def CountLoop.Counting (n : U256) (loop : CountLoop) : Prop :=
  loop.length.toNat + (Decimal.digits loop.currentValue.toNat).length
    = (Decimal.digits n.toNat).length

/-- The first loop ends, with the number of the digits. -/
theorem CountLoop.exists_run (n : U256) :
    ∃ t, CountLoop.Run ⟨0, n⟩ t ∧ t.length.toNat = (Decimal.digits n.toNat).length := by
  refine Loops.DoWhile.exists_of_decreasing (Counting n) _ (fun loop => loop.currentValue.toNat)
    ?_ ?_
  · intro loop hloop
    unfold Counting at hloop
    have hle := length_digits_le n
    have hdiv : (loop.currentValue / 10).toNat = loop.currentValue.toNat / 10 := BitVec.toNat_udiv
    have hzero : loop.currentValue / 10 = 0 ↔ loop.currentValue.toNat < 10 := by
      rw [← BitVec.toNat_inj, hdiv]
      simp only [BitVec.ofNat_eq_ofNat, BitVec.toNat_ofNat]
      omega
    have hadd : (loop.length + 1).toNat = loop.length.toNat + 1 := by
      have hpos := Decimal.length_digits_pos loop.currentValue.toNat
      rw [BitVec.toNat_add]
      simp only [BitVec.ofNat_eq_ofNat, BitVec.toNat_ofNat]
      omega
    refine ⟨_, rfl, fun hagain => ?_, fun hleave => ?_⟩
    · have hlarge : 10 ≤ loop.currentValue.toNat := by
        have := mt hzero.2 hagain
        omega
      rw [Decimal.digits_of_le hlarge, List.length_append, List.length_singleton] at hloop
      show (loop.length + 1).toNat + (Decimal.digits (loop.currentValue / 10).toNat).length = _ ∧
        (loop.currentValue / 10).toNat < _
      rw [hadd, hdiv]
      omega
    · have hsmall := hzero.1 (not_not.1 hleave)
      rw [Decimal.digits_of_lt hsmall, List.length_singleton] at hloop
      show (loop.length + 1).toNat = _
      omega
  · simp [Counting]

/-- The digits that are left go up to the position of the next write, and those
that are written follow it. -/
structure WriteLoop.Writing (n : U256) (loop : WriteLoop) : Prop where
  position : loop.i.toNat + 1 = (Decimal.digits loop.currentValue.toNat).length
  inside : loop.i.toNat < loop.result.length
  digits : Decimal.digits loop.currentValue.toNat ++ loop.result.drop (loop.i.toNat + 1)
    = Decimal.digits n.toNat

/-- The second loop ends, no write is outside the buffer, and the buffer holds
the digits. -/
theorem WriteLoop.exists_run (n i : U256)
    (hi : i.toNat + 1 = (Decimal.digits n.toNat).length) :
    ∃ t, WriteLoop.Run ⟨i, n, List.replicate (i.toNat + 1) 0⟩ t ∧
      t.result = Decimal.digits n.toNat := by
  refine Loops.DoWhile.exists_of_decreasing (Writing n) _ (fun loop => loop.currentValue.toNat)
    ?_ ?_
  · intro loop hloop
    have hinside := hloop.inside
    have hindex := hloop.position
    have hdigits := hloop.digits
    have hdiv : (loop.currentValue / 10).toNat = loop.currentValue.toNat / 10 := BitVec.toNat_udiv
    have hmod : (loop.currentValue % 10).toNat = loop.currentValue.toNat % 10 := BitVec.toNat_umod
    have hzero : loop.currentValue / 10 = 0 ↔ loop.currentValue.toNat < 10 := by
      rw [← BitVec.toNat_inj, hdiv]
      simp only [BitVec.ofNat_eq_ofNat, BitVec.toNat_ofNat]
      omega
    refine ⟨_, require_bind_eq_some.2 ⟨hinside, rfl⟩, fun hagain => ?_, fun hleave => ?_⟩
    · have hlarge : 10 ≤ loop.currentValue.toNat := by
        have := mt hzero.2 hagain
        omega
      have hpos := Decimal.length_digits_pos (loop.currentValue.toNat / 10)
      rw [Decimal.digits_of_le hlarge] at hindex hdigits
      rw [List.length_append, List.length_singleton] at hindex
      have hsub : (loop.i - 1).toNat = loop.i.toNat - 1 := by
        have hlt := loop.i.isLt
        rw [BitVec.toNat_sub]
        simp only [BitVec.ofNat_eq_ofNat, BitVec.toNat_ofNat]
        omega
      refine ⟨⟨?_, ?_, ?_⟩, ?_⟩
      · show (loop.i - 1).toNat + 1 = (Decimal.digits (loop.currentValue / 10).toNat).length
        rw [hsub, hdiv]
        omega
      · show (loop.i - 1).toNat < (loop.result.set _ _).length
        rw [hsub, List.length_set]
        omega
      · dsimp only
        rw [hsub, hdiv, hmod, show loop.i.toNat - 1 + 1 = loop.i.toNat by omega,
          drop_set_self _ hinside, ← hdigits, List.append_assoc]
        rfl
      · show (loop.currentValue / 10).toNat < _
        omega
    · have hsmall := hzero.1 (not_not.1 hleave)
      rw [Decimal.digits_of_lt hsmall] at hindex hdigits
      have hfirst : loop.i.toNat = 0 := by simpa using hindex
      dsimp only
      rw [← hdigits, hmod, hfirst, Nat.mod_eq_of_lt hsmall]
      rw [hfirst] at hinside
      exact drop_set_self _ hinside
  · exact ⟨hi, by simp, by simp⟩

/-- `Helpers.uintToString` as the contract runs it. -/
def UintToString (inputValue : U256) (text : Bytes) : Prop :=
  ∃ counted written, CountLoop.Run ⟨0, inputValue⟩ counted ∧
    WriteLoop.Run ⟨counted.length - 1, inputValue, List.replicate counted.length.toNat 0⟩ written ∧
    written.result = text

theorem uintToString_unique {n : U256} {text text' : Bytes} (h : UintToString n text)
    (h' : UintToString n text') : text = text' := by
  obtain ⟨counted, written, hcounted, hwritten, rfl⟩ := h
  obtain ⟨counted', written', hcounted', hwritten', rfl⟩ := h'
  obtain rfl := hcounted.unique hcounted'
  obtain rfl := hwritten.unique hwritten'
  rfl

/-- Both loops end, and they return what `uintToString` returns. -/
theorem uintToString_run (n : U256) :
    UintToString n (Decimal.digits n.toNat) ∧
      uintToString n.toNat = some (Decimal.digits n.toNat) := by
  refine ⟨?_, uintToString_eq n.isLt⟩
  obtain ⟨counted, hcounted, hlength⟩ := CountLoop.exists_run n
  have hpos := Decimal.length_digits_pos n.toNat
  have hsub : (counted.length - 1).toNat = counted.length.toNat - 1 := by
    have hlt := counted.length.isLt
    rw [BitVec.toNat_sub]
    simp only [BitVec.ofNat_eq_ofNat, BitVec.toNat_ofNat]
    omega
  obtain ⟨written, hwritten, hresult⟩ :=
    WriteLoop.exists_run n (counted.length - 1) (by omega)
  rw [hsub, show counted.length.toNat - 1 + 1 = counted.length.toNat by omega] at hwritten
  exact ⟨counted, written, hcounted, hwritten, hresult⟩

/-! ## `Message` -/

/-- The memory from the pointer of a `bytes` value on. -/
def bytesInMemory (data : Bytes) (rest : Memory) : Memory :=
  image (wordBytes (BitVec.ofNat 256 data.length) ++ data) rest

/-- `mload` at an offset of a pointer. -/
def mload (memory : Memory) (offset : Nat) : BitVec 256 :=
  BitVec.ofNat 256 (decode (window memory offset 32))

/-- `Message.getRecipient`: an `address` keeps the low 160 bits of the word. -/
def getRecipient (message : Memory) : Address := (mload message 20).setWidth 160

/-- `Message.getValue`. -/
def getValue (message : Memory) : U256 := mload message 52

/-- `Message.getTransactionHash`. -/
def getTransactionHash (message : Memory) : H256 := mload message 84

/-- `Message.getHomeGasPrice`. -/
def getHomeGasPrice (message : Memory) : U256 := mload message 116

/-! ## `MessageSigning` -/

section Signing

variable {Digest : Type} (keccak256 : Bytes → Digest)
  (ecrecover : Digest → UInt8 → H256 → H256 → Address)

/-- `MessageSigning.hashMessage`: the length is printed by `uintToString`. -/
def hashMessage (message : Bytes) : Option Digest := do
  let length ← uintToString message.length
  return keccak256 (signedMessagePrefix ++ length ++ message)

/-- The `v` byte of a signature: `mload` at `0x60` into a `bytes1` keeps the
most significant byte. -/
def signatureV (signature : Memory) : UInt8 :=
  UInt8.ofNat ((mload signature 0x60).toNat / 256 ^ 31)

/-- `MessageSigning.recoverAddressFromSignedMessage`. -/
def recoverAddressFromSignedMessage (signature message : Bytes) (rest : Memory) :
    Option Address :=
  if signature.length = 65 then do
    let memory := bytesInMemory signature rest
    let hash ← hashMessage keccak256 message
    return ecrecover hash (signatureV memory) (mload memory 0x20) (mload memory 0x40)
  else none

end Signing

/-! ## What follows a signature in memory does not matter -/

/-- A `bytes1` is the byte at its offset. -/
theorem signatureV_eq (memory : Memory) : signatureV memory = memory 0x60 := by
  have hwindow : window memory 0x60 32 = memory 0x60 :: window memory 0x61 31 := by
    simp [window, List.range_succ_eq_map]
  have htail := decode_lt (window memory 0x61 31)
  have hbyte : (memory 0x60).toNat < 256 := (memory 0x60).toNat_lt
  rw [length_window] at htail
  unfold signatureV mload
  rw [hwindow, decode, length_window, BitVec.toNat_ofNat, Nat.mod_eq_of_lt (by omega),
    Nat.add_comm, Nat.add_mul_div_right _ _ (by norm_num), Nat.div_eq_of_lt htail]
  simp

theorem image_of_lt {bytes : Bytes} {rest rest' : Memory} {i : Nat} (h : i < bytes.length) :
    image bytes rest i = image bytes rest' i := by
  simp [image, h]

/-- A signature recovers to the same address wherever it lies in memory. -/
theorem recoverAddressFromSignedMessage_rest {Digest : Type} (keccak256 : Bytes → Digest)
    (ecrecover : Digest → UInt8 → H256 → H256 → Address) (signature message : Bytes)
    (rest rest' : Memory) :
    recoverAddressFromSignedMessage keccak256 ecrecover signature message rest
      = recoverAddressFromSignedMessage keccak256 ecrecover signature message rest' := by
  unfold recoverAddressFromSignedMessage
  split
  · rename_i hlength
    have hsize : (wordBytes (BitVec.ofNat 256 signature.length) ++ signature).length = 97 := by
      rw [List.length_append, length_wordBytes, hlength]
    have hload : ∀ offset, offset + 32 ≤ 97 →
        mload (bytesInMemory signature rest) offset
          = mload (bytesInMemory signature rest') offset := by
      intro offset hle
      unfold mload bytesInMemory
      rw [window_image (by omega), window_image (by omega)]
    have hv : signatureV (bytesInMemory signature rest)
        = signatureV (bytesInMemory signature rest') := by
      rw [signatureV_eq, signatureV_eq]
      exact image_of_lt (by omega)
    dsimp only
    rw [hv, hload 0x20 (by omega), hload 0x40 (by omega)]
  · rfl

end PoaBridge
