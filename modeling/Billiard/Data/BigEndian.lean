import Mathlib.Algebra.Ring.Nat

/-! Numbers as big-endian byte strings of a fixed width. -/

namespace BigEndian

def encode : Nat → Nat → List UInt8
  | 0, _ => []
  | width + 1, n => UInt8.ofNat (n / 256 ^ width) :: encode width (n % 256 ^ width)

def decode (bytes : List UInt8) : Nat :=
  bytes.foldl (fun value byte => value * 256 + byte.toNat) 0

@[simp] theorem length_encode (width n : Nat) : (encode width n).length = width := by
  induction width generalizing n with
  | zero => rfl
  | succ width ih => simp [encode, ih]

theorem foldl_eq (bytes : List UInt8) (value : Nat) :
    bytes.foldl (fun value byte => value * 256 + byte.toNat) value =
      value * 256 ^ bytes.length + decode bytes := by
  induction bytes generalizing value with
  | nil => simp [decode]
  | cons byte bytes ih =>
      rw [decode, List.foldl_cons, List.foldl_cons, ih, ih (0 * 256 + byte.toNat),
        List.length_cons, Nat.pow_succ', Nat.add_mul, Nat.mul_assoc, Nat.zero_mul, Nat.zero_add,
        Nat.add_assoc]

theorem decode_cons (byte : UInt8) (bytes : List UInt8) :
    decode (byte :: bytes) = byte.toNat * 256 ^ bytes.length + decode bytes := by
  rw [decode, List.foldl_cons, foldl_eq, Nat.zero_mul, Nat.zero_add]

theorem decode_encode {width n : Nat} (fits : n < 256 ^ width) :
    decode (encode width n) = n := by
  induction width generalizing n with
  | zero =>
      rw [Nat.pow_zero, Nat.lt_one_iff] at fits
      rw [fits]
      rfl
  | succ width ih =>
      have positive : 0 < 256 ^ width := Nat.pow_pos (by decide)
      have top : n / 256 ^ width < 256 := by
        rw [Nat.div_lt_iff_lt_mul positive, ← Nat.pow_succ']
        exact fits
      rw [encode, decode_cons, length_encode, ih (Nat.mod_lt n positive), UInt8.toNat_ofNat',
        Nat.mod_eq_of_lt top]
      exact Nat.div_add_mod' n (256 ^ width)

theorem decode_lt (bytes : List UInt8) : decode bytes < 256 ^ bytes.length := by
  induction bytes with
  | nil => exact Nat.one_pos
  | cons byte bytes ih =>
      have top := byte.toNat_lt
      rw [decode_cons, List.length_cons, Nat.pow_succ']
      calc byte.toNat * 256 ^ bytes.length + decode bytes
          < byte.toNat * 256 ^ bytes.length + 256 ^ bytes.length := Nat.add_lt_add_left ih _
        _ = (byte.toNat + 1) * 256 ^ bytes.length := (Nat.succ_mul _ _).symm
        _ ≤ 256 * 256 ^ bytes.length := Nat.mul_le_mul_right _ top

theorem encode_decode (bytes : List UInt8) : encode bytes.length (decode bytes) = bytes := by
  induction bytes with
  | nil => rfl
  | cons byte bytes ih =>
      have small := decode_lt bytes
      have positive : 0 < 256 ^ bytes.length := Nat.pow_pos (by decide)
      have top : (byte.toNat * 256 ^ bytes.length + decode bytes) / 256 ^ bytes.length =
          byte.toNat := by
        rw [Nat.mul_comm, Nat.mul_add_div positive, Nat.div_eq_of_lt small, Nat.add_zero]
      have low : (byte.toNat * 256 ^ bytes.length + decode bytes) % 256 ^ bytes.length =
          decode bytes := by
        rw [Nat.mul_comm, Nat.mul_add_mod, Nat.mod_eq_of_lt small]
      rw [decode_cons, List.length_cons, encode, top, low, ih, UInt8.ofNat_toNat]

end BigEndian
