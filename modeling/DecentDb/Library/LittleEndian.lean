import Mathlib.Data.List.Basic
import Mathlib.Tactic.Ring

/-! Fixed-width little-endian numbers as byte lists. -/

namespace LittleEndian

/-- The `width` low bytes of a number, least significant first. -/
def leBytes : Nat → Nat → List UInt8
  | 0, _ => []
  | width + 1, value => UInt8.ofNat (value % 256) :: leBytes width (value / 256)

/-- The number whose little-endian bytes are given. -/
def leNat : List UInt8 → Nat
  | [] => 0
  | byte :: rest => byte.toNat + 256 * leNat rest

/-- A number is written with exactly the given number of bytes. -/
@[simp]
theorem length_leBytes (width value : Nat) : (leBytes width value).length = width := by
  induction width generalizing value with
  | zero => rfl
  | succ width ih => simp [leBytes, ih]

/-- Decoding keeps exactly the bytes that the width has room for, by induction on it. -/
theorem leNat_leBytes (width value : Nat) : leNat (leBytes width value) = value % 256 ^ width := by
  induction width generalizing value with
  | zero => simp [leBytes, leNat, Nat.mod_one]
  | succ width ih =>
    have byte : (UInt8.ofNat (value % 256)).toNat = value % 256 := by
      rw [UInt8.toNat_ofNat']
      exact Nat.mod_eq_of_lt (Nat.mod_lt value (by decide))
    rw [leBytes, leNat, byte, ih, pow_succ, mul_comm (256 ^ width), Nat.mod_mul]

/-- A number that fits its width survives the round trip. -/
theorem leNat_leBytes_of_lt {width value : Nat} (fits : value < 256 ^ width)
    : leNat (leBytes width value) = value := by
  rw [leNat_leBytes, Nat.mod_eq_of_lt fits]

/-- Bytes survive the round trip through their number, by induction on them. -/
theorem leBytes_leNat (bytes : List UInt8) : leBytes bytes.length (leNat bytes) = bytes := by
  induction bytes with
  | nil => rfl
  | cons byte rest ih =>
    have small := byte.toNat_lt
    have low : leNat (byte :: rest) % 256 = byte.toNat := by
      rw [leNat, Nat.add_mul_mod_self_left, Nat.mod_eq_of_lt small]
    have high : leNat (byte :: rest) / 256 = leNat rest := by
      rw [leNat]
      omega
    rw [List.length_cons, leBytes, low, high, ih, UInt8.ofNat_toNat]

/-- The number that some bytes stand for is bounded by their count. -/
theorem leNat_lt (bytes : List UInt8) : leNat bytes < 256 ^ bytes.length := by
  induction bytes with
  | nil => simp [leNat]
  | cons byte rest ih =>
    have small := byte.toNat_lt
    rw [leNat, List.length_cons, pow_succ]
    omega

end LittleEndian
