import Mathlib.Data.Nat.Basic
import Mathlib.Data.List.Basic
import Mathlib.Tactic.Ring

/-!
# Big-endian numbers in byte strings

`encode n x` is the number `x` in `n` bytes, most significant byte first, and
`decode` is the number that a byte string holds.  `decode_encode` and
`encode_decode` are the two round trips.

`image bytes rest` is a memory that holds `bytes` at its start and something
unknown behind them, and `window` reads a number of bytes of a memory.
`window_image` is the case in which the read stays inside the known bytes.
-/

namespace BigEndian

/-- The number `x` modulo `256 ^ n` in `n` bytes, most significant first. -/
def encode : Nat → Nat → List UInt8
  | 0, _ => []
  | n + 1, x => UInt8.ofNat (x / 256 ^ n) :: encode n x

/-- The number that the bytes hold, most significant first. -/
def decode : List UInt8 → Nat
  | [] => 0
  | b :: bytes => b.toNat * 256 ^ bytes.length + decode bytes

@[simp] theorem length_encode (n x : Nat) : (encode n x).length = n := by
  induction n with
  | zero => rfl
  | succ n ih => simp [encode, ih]

theorem decode_lt (bytes : List UInt8) : decode bytes < 256 ^ bytes.length := by
  induction bytes with
  | nil => simp [decode]
  | cons b bytes ih =>
    have hb : b.toNat + 1 ≤ 256 := b.toNat_lt
    calc decode (b :: bytes)
        = b.toNat * 256 ^ bytes.length + decode bytes := rfl
      _ < b.toNat * 256 ^ bytes.length + 256 ^ bytes.length := by omega
      _ = (b.toNat + 1) * 256 ^ bytes.length := by ring
      _ ≤ 256 * 256 ^ bytes.length := Nat.mul_le_mul_right _ hb
      _ = 256 ^ (b :: bytes).length := by rw [List.length_cons, pow_succ]; ring

/-- Reading what was written gives the number, reduced to the width. -/
theorem decode_encode (n x : Nat) : decode (encode n x) = x % 256 ^ n := by
  induction n with
  | zero => simp [encode, decode, Nat.mod_one]
  | succ n ih =>
    have hbyte : (UInt8.ofNat (x / 256 ^ n)).toNat = x / 256 ^ n % 256 := by
      simp [UInt8.toNat_ofNat']
    rw [encode, decode, ih, length_encode, hbyte, pow_succ, Nat.mod_mul]
    ring

theorem decode_encode_of_lt {n x : Nat} (h : x < 256 ^ n) : decode (encode n x) = x := by
  rw [decode_encode, Nat.mod_eq_of_lt h]

/-- Bytes above the width do not change the encoding. -/
theorem encode_add_mul (n q x : Nat) : encode n (q * 256 ^ n + x) = encode n x := by
  induction n generalizing q with
  | zero => rfl
  | succ n ih =>
    have hpow : q * 256 ^ (n + 1) = (q * 256) * 256 ^ n := by ring
    have hdiv : (q * 256 ^ (n + 1) + x) / 256 ^ n = q * 256 + x / 256 ^ n := by
      rw [hpow, Nat.add_comm, Nat.add_mul_div_right _ _ (Nat.pow_pos (by decide)), Nat.add_comm]
    have hbyte : UInt8.ofNat (q * 256 + x / 256 ^ n) = UInt8.ofNat (x / 256 ^ n) := by
      apply UInt8.toNat_inj.1
      simp only [UInt8.toNat_ofNat']
      omega
    rw [encode, encode, hdiv, hbyte, hpow, ih]

/-- Writing what was read gives the bytes back. -/
theorem encode_decode (bytes : List UInt8) : encode bytes.length (decode bytes) = bytes := by
  induction bytes with
  | nil => rfl
  | cons b bytes ih =>
    have hdiv : (b.toNat * 256 ^ bytes.length + decode bytes) / 256 ^ bytes.length
        = b.toNat := by
      rw [Nat.add_comm, Nat.add_mul_div_right _ _ (Nat.pow_pos (by decide)),
        Nat.div_eq_of_lt (decode_lt bytes), Nat.zero_add]
    rw [decode, List.length_cons, encode, hdiv, encode_add_mul, ih]
    simp

/-- Equal numbers of one width have equal bytes. -/
theorem encode_inj {n x y : Nat} (hx : x < 256 ^ n) (hy : y < 256 ^ n)
    (h : encode n x = encode n y) : x = y := by
  rw [← decode_encode_of_lt hx, h, decode_encode_of_lt hy]

theorem decode_append (xs ys : List UInt8) :
    decode (xs ++ ys) = decode xs * 256 ^ ys.length + decode ys := by
  induction xs with
  | nil => simp [decode]
  | cons b xs ih =>
    simp only [List.cons_append, decode, ih, List.length_append, pow_add]
    ring

/-! ## Reads of a memory -/

/-- A memory: a byte at every address. -/
abbrev Memory := Nat → UInt8

/-- The memory that holds `bytes` from address `0` on and `rest` after them. -/
def image (bytes : List UInt8) (rest : Memory) : Memory :=
  fun i => (bytes[i]?).getD (rest i)

/-- The `count` bytes from `offset` on. -/
def window (memory : Memory) (offset count : Nat) : List UInt8 :=
  (List.range count).map fun i => memory (offset + i)

@[simp] theorem length_window (memory : Memory) (offset count : Nat) :
    (window memory offset count).length = count := by
  simp [window]

/-- A read that stays inside the known bytes does not see the rest. -/
theorem window_image {bytes : List UInt8} {rest : Memory} {offset count : Nat}
    (h : offset + count ≤ bytes.length) :
    window (image bytes rest) offset count = (bytes.drop offset).take count := by
  apply List.ext_getElem
  · simp only [length_window, List.length_take, List.length_drop]
    omega
  · intro i hi _
    rw [length_window] at hi
    have hlt : offset + i < bytes.length := by omega
    simp [window, image, hlt]

end BigEndian
