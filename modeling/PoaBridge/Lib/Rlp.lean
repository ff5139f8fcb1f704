import Mathlib.Data.Nat.Digits.Lemmas
import PoaBridge.Lib.BigEndian

/-!
# The RLP encoding

Byte strings and lists of byte strings.  A string below `0x80` of a single byte stands
for itself.  Every other string, and every list, has a header with its length in front.

`readItem` reads a string back.  `readItem_encode` is the round trip, whatever follows
the string, and `encodeList_append_inj` says that lists can be told apart.
-/

namespace Rlp

/-! ## Numbers -/

/-- The bytes of a number, most significant first, without leading zeros. -/
def natBytes (n : Nat) : List UInt8 := BigEndian.encode (Nat.digits 256 n).length n

theorem length_natBytes (n : Nat) : (natBytes n).length = (Nat.digits 256 n).length :=
  BigEndian.length_encode _ _

theorem decode_natBytes (n : Nat) : BigEndian.decode (natBytes n) = n :=
  BigEndian.decode_encode_of_lt (Nat.lt_base_pow_length_digits (by decide))

theorem natBytes_inj {n m : Nat} (h : natBytes n = natBytes m) : n = m := by
  rw [← decode_natBytes n, h, decode_natBytes]

theorem length_natBytes_le {n k : Nat} (h : n < 256 ^ k) : (natBytes n).length ≤ k := by
  rw [length_natBytes]
  exact (Nat.digits_length_le_iff (by decide) n).2 h

/-! ## Strings and lists -/

/-- What stands in front of a string (`offset` is `0x80`) or of a list (`0xc0`). -/
def header (offset length : Nat) : List UInt8 :=
  if length < 56 then [UInt8.ofNat (offset + length)]
  else UInt8.ofNat (offset + 55 + (natBytes length).length) :: natBytes length

/-- The encoding of a string. -/
def encode (bytes : List UInt8) : List UInt8 :=
  match bytes with
  | [b] => if b < 0x80 then [b] else header 0x80 1 ++ [b]
  | _ => header 0x80 bytes.length ++ bytes

/-- The encodings of the strings of a list. -/
def payload (items : List (List UInt8)) : List UInt8 := (items.map encode).flatten

/-- The encoding of a list of strings. -/
def encodeList (items : List (List UInt8)) : List UInt8 :=
  header 0xc0 (payload items).length ++ payload items

/-- Reads one string: its bytes, and what follows it. -/
def readItem : List UInt8 → Option (List UInt8 × List UInt8)
  | [] => none
  | first :: rest =>
    if first < 0x80 then some ([first], rest)
    else if first.toNat < 0xb8 then some (rest.splitAt (first.toNat - 0x80))
    else
      let (size, rest) := rest.splitAt (first.toNat - 0xb7)
      some (rest.splitAt (BigEndian.decode size))

/-! ### Strings are read back -/

theorem splitAt_append (xs ys : List UInt8) : (xs ++ ys).splitAt xs.length = (xs, ys) := by
  rw [List.splitAt_eq, List.take_left, List.drop_left]

/-- A string with its header in front is read back, as long as the header can hold the
number of bytes of the length. -/
theorem readItem_header {bytes rest : List UInt8} (h : bytes.length < 256 ^ 8) :
    readItem (header 0x80 bytes.length ++ (bytes ++ rest)) = some (bytes, rest) := by
  unfold header
  split
  · rename_i hshort
    have hfirst : (UInt8.ofNat (0x80 + bytes.length)).toNat = 0x80 + bytes.length := by
      rw [UInt8.toNat_ofNat']
      omega
    have hstring : ¬ UInt8.ofNat (0x80 + bytes.length) < 0x80 := by
      rw [UInt8.lt_iff_toNat_lt, hfirst]
      simp
    rw [List.singleton_append, readItem, if_neg hstring, if_pos (by omega), hfirst,
      Nat.add_sub_cancel_left, splitAt_append]
  · rename_i hlong
    have hsize : (natBytes bytes.length).length ≤ 8 := length_natBytes_le h
    have hfirst : (UInt8.ofNat (0x80 + 55 + (natBytes bytes.length).length)).toNat
        = 0xb7 + (natBytes bytes.length).length := by
      rw [UInt8.toNat_ofNat']
      omega
    have hpos : 0 < (natBytes bytes.length).length := by
      rw [length_natBytes, List.length_pos_iff, Nat.digits_ne_nil_iff_ne_zero]
      omega
    have hstring : ¬ UInt8.ofNat (0x80 + 55 + (natBytes bytes.length).length) < 0x80 := by
      rw [UInt8.lt_iff_toNat_lt, hfirst]
      simp
      omega
    rw [List.cons_append, readItem, if_neg hstring, if_neg (by omega), hfirst,
      Nat.add_sub_cancel_left, splitAt_append]
    dsimp only
    rw [decode_natBytes, splitAt_append]

/-- A string is read back whatever follows it. -/
theorem readItem_encode {bytes rest : List UInt8} (h : bytes.length < 256 ^ 8) :
    readItem (encode bytes ++ rest) = some (bytes, rest) := by
  unfold encode
  split
  · rename_i b
    split
    · rename_i hb
      rw [List.singleton_append, readItem, if_pos hb]
    · rw [List.append_assoc]
      exact readItem_header h
  · rw [List.append_assoc]
    exact readItem_header h

theorem encode_append_inj {a b xs ys : List UInt8} (ha : a.length < 256 ^ 8)
    (hb : b.length < 256 ^ 8) (h : encode a ++ xs = encode b ++ ys) : a = b ∧ xs = ys := by
  have hread := @readItem_encode a xs ha
  rw [h, readItem_encode hb] at hread
  cases hread
  exact ⟨rfl, rfl⟩

/-! ### Lists are told apart -/

theorem header_ne_nil (offset length : Nat) : header offset length ≠ [] := by
  unfold header
  split <;> exact List.cons_ne_nil _ _

theorem encode_ne_nil (bytes : List UInt8) : encode bytes ≠ [] := by
  unfold encode
  split
  · split
    · exact List.cons_ne_nil _ _
    · exact List.append_ne_nil_of_left_ne_nil (header_ne_nil _ _) _
  · exact List.append_ne_nil_of_left_ne_nil (header_ne_nil _ _) _

/-- Two lists of strings with one payload are the same list. -/
theorem payload_inj : ∀ {items items' : List (List UInt8)},
    (∀ bytes ∈ items, bytes.length < 256 ^ 8) → (∀ bytes ∈ items', bytes.length < 256 ^ 8) →
    payload items = payload items' → items = items' := by
  intro items
  induction items with
  | nil =>
    intro items' _ _ h
    cases items' with
    | nil => rfl
    | cons bytes items' => exact absurd (List.append_eq_nil_iff.1 h.symm).1 (encode_ne_nil bytes)
  | cons bytes items ih =>
    intro items' hitems hitems' h
    cases items' with
    | nil => exact absurd (List.append_eq_nil_iff.1 h).1 (encode_ne_nil bytes)
    | cons bytes' items' =>
      rw [List.forall_mem_cons] at hitems hitems'
      obtain ⟨rfl, htail⟩ := encode_append_inj hitems.1 hitems'.1 h
      rw [ih hitems.2 hitems'.2 htail]

/-- The header of a longer string or list is not shorter. -/
theorem length_header_mono {offset a b : Nat} (h : a ≤ b) :
    (header offset a).length ≤ (header offset b).length := by
  have hdigits : (Nat.digits 256 a).length ≤ (Nat.digits 256 b).length :=
    Nat.le_length_digits_le 256 a b h
  unfold header
  split <;> split <;> simp [length_natBytes] <;> omega

/-- The encoding of a list determines its payload: the encoding of a longer payload is
longer. -/
theorem payload_eq_of_encodeList_eq {items items' : List (List UInt8)}
    (h : encodeList items = encodeList items') : payload items = payload items' := by
  have hlength := congrArg List.length h
  simp only [encodeList, List.length_append] at hlength
  have heq : (payload items).length = (payload items').length := by
    rcases Nat.lt_trichotomy (payload items).length (payload items').length with hlt | heq | hlt
    · have hheader := @length_header_mono 0xc0 _ _ hlt.le
      omega
    · exact heq
    · have hheader := @length_header_mono 0xc0 _ _ hlt.le
      omega
  rw [encodeList, encodeList, heq] at h
  exact List.append_cancel_left h

/-- Two lists with one encoding that start with the same strings go on with the same
strings.  The strings they start with can be of any length. -/
theorem encodeList_append_inj {start items items' : List (List UInt8)}
    (hitems : ∀ bytes ∈ items, bytes.length < 256 ^ 8)
    (hitems' : ∀ bytes ∈ items', bytes.length < 256 ^ 8)
    (h : encodeList (start ++ items) = encodeList (start ++ items')) : items = items' := by
  have hpayload := payload_eq_of_encodeList_eq h
  simp only [payload, List.map_append, List.flatten_append] at hpayload
  exact payload_inj hitems hitems' (List.append_cancel_left hpayload)

end Rlp
