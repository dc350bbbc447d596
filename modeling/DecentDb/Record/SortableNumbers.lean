import DecentDb.Record.IndexKey
import Mathlib.Data.Nat.Bitwise

/-! The bytes that index keys have for numbers of a fixed width sort like the numbers: a
signed number is moved up by half of its range, and a binary floating point number is ordered
by its bit pattern.
-/

namespace DecentDb.Record

open Lexicographic

/-- Numbers are ordered like their bytes, the highest one first. -/
theorem compare_beBytes (width : Nat) {left right : Nat} (leftFits : left < 256 ^ width)
    (rightFits : right < 256 ^ width)
    : compare (beBytes width left) (beBytes width right) = compare left right :=
  compare_reverse_leBytes width leftFits rightFits

/-- A number is written with exactly the given number of bytes. -/
@[simp]
theorem length_beBytes (width number : Nat) : (beBytes width number).length = width := by
  rw [beBytes, List.length_reverse, LittleEndian.length_leBytes]

/-- Inverting the highest bit moves a number to the other half of the range. -/
theorem xor_highest (bits number : Nat) (fits : number < 2 ^ (bits + 1))
    : number ^^^ 2 ^ bits = if number < 2 ^ bits then number + 2 ^ bits else number - 2 ^ bits := by
  have positive : 0 < 2 ^ bits := Nat.two_pow_pos bits
  have low : (number ^^^ 2 ^ bits) % 2 ^ bits = number % 2 ^ bits := by
    rw [Nat.xor_mod_two_pow, Nat.mod_self, Nat.xor_zero]
  have high : (number ^^^ 2 ^ bits) / 2 ^ bits = (number / 2 ^ bits) ^^^ 1 := by
    rw [Nat.xor_div_two_pow, Nat.div_self positive]
  have parts := Nat.div_add_mod (number ^^^ 2 ^ bits) (2 ^ bits)
  rw [low, high] at parts
  rw [pow_succ] at fits
  split
  next lower =>
    rw [Nat.div_eq_of_lt lower, Nat.mod_eq_of_lt lower] at parts
    have inverted : 0 ^^^ 1 = 1 := rfl
    rw [inverted] at parts
    omega
  next upper =>
    have quotient : number / 2 ^ bits = 1 := Nat.div_eq_of_lt_le (by omega) (by omega)
    have remainder : number % 2 ^ bits = number - 2 ^ bits := by
      rw [Nat.mod_eq_sub_mod (by omega), Nat.mod_eq_of_lt (by omega)]
    have inverted : 1 ^^^ 1 = 0 := rfl
    rw [quotient, remainder, inverted] at parts
    omega

/-- Moving the whole range of numbers keeps their order. -/
theorem compare_moved {leftNumber rightNumber : Nat} {left right offset : Int}
    (leftMoved : (leftNumber : Int) = left + offset)
    (rightMoved : (rightNumber : Int) = right + offset)
    : compare leftNumber rightNumber = compare left right := by
  have below : leftNumber < rightNumber ↔ left < right := by omega
  have above : rightNumber < leftNumber ↔ right < left := by omega
  simp [Nat.compare_eq_ite_lt, Int.compare_eq_ite_lt, below, above]

-- Integers

/-- A number with half of the range added, as the two's complement bits with the sign
inverted.
-/
theorem toNat_xor_highest (bits : Nat) (value : BitVec (bits + 1))
    : ((value.toNat ^^^ 2 ^ bits : Nat) : Int) = value.toInt + (2 ^ bits : Nat) := by
  have fits := value.isLt
  rw [xor_highest bits _ fits, BitVec.toInt_eq_toNat_cond]
  rw [pow_succ] at fits ⊢
  split <;> split <;> omega

/-- Flipping the sign bit adds an offset. -/
theorem sortableSigned_toNat (value : Int64)
    : ((value.toUInt64 ^^^ 0x8000000000000000).toNat : Int) = value.toInt + 2 ^ 63 := by
  rw [UInt64.toNat_xor]
  exact toNat_xor_highest 63 value.toBitVec

/-- Signed numbers are ordered as integers. -/
theorem compare_int64 (left right : Int64) : compare left right = compare left.toInt right.toInt := by
  change compareOfLessAndEq left right = compareOfLessAndEq left.toInt right.toInt
  simp [compareOfLessAndEq, Int64.lt_iff_toInt_lt, ← Int64.toInt_inj]

/-- The bytes of signed numbers are ordered like the numbers. -/
theorem compare_sortableSignedBytes (left right : Int64)
    : compare (sortableSignedBytes left) (sortableSignedBytes right) = compare left right := by
  rw [sortableSignedBytes, sortableSignedBytes, compare_beBytes 8 (UInt64.toNat_lt _)
    (UInt64.toNat_lt _), compare_int64]
  exact compare_moved (sortableSigned_toNat left) (sortableSigned_toNat right)

/-- Flipping the sign bit adds an offset, for 32 bits too. -/
theorem sortableI32_toNat (value : Int32)
    : ((value.toUInt32 ^^^ 0x80000000).toNat : Int) = value.toInt + 2 ^ 31 := by
  rw [UInt32.toNat_xor]
  exact toNat_xor_highest 31 value.toBitVec

/-- Signed 32-bit numbers are ordered as integers. -/
theorem compare_int32 (left right : Int32) : compare left right = compare left.toInt right.toInt := by
  change compareOfLessAndEq left right = compareOfLessAndEq left.toInt right.toInt
  simp [compareOfLessAndEq, Int32.lt_iff_toInt_lt, ← Int32.toInt_inj]

/-- The bytes of signed 32-bit numbers are ordered like the numbers. -/
theorem compare_sortableI32Bytes (left right : Int32)
    : compare (sortableI32Bytes left) (sortableI32Bytes right) = compare left right := by
  rw [sortableI32Bytes, sortableI32Bytes, compare_beBytes 4 (UInt32.toNat_lt _)
    (UInt32.toNat_lt _), compare_int32]
  exact compare_moved (sortableI32_toNat left) (sortableI32_toNat right)

/-- The bytes of unsigned numbers are ordered like the numbers. -/
theorem compare_sortableUnsignedBytes (left right : UInt64)
    : compare (sortableUnsignedBytes left) (sortableUnsignedBytes right) = compare left right := by
  rw [sortableUnsignedBytes, sortableUnsignedBytes, compare_beBytes 8 (UInt64.toNat_lt _)
    (UInt64.toNat_lt _), UInt64.compare_eq_toNat_compare_toNat]

-- Floating point numbers

/-- The number whose bytes a key has for a float. -/
def sortableFloat (value : Float64) : UInt64 :=
  if value.bits &&& 0x8000000000000000 ≠ 0 then ~~~ value.bits
  else value.bits ^^^ 0x8000000000000000

/-- The bytes of a float are those of one unsigned number. -/
theorem sortableFloatBytes_eq (value : Float64)
    : sortableFloatBytes value = beBytes 8 (sortableFloat value).toNat := by
  rw [sortableFloatBytes, sortableFloat]
  split <;> rfl

/-- The sign bit is set in the upper half of the bit patterns. -/
theorem sign_eq_zero_iff (bits : UInt64)
    : bits &&& 0x8000000000000000 = 0 ↔ bits.toNat < 2 ^ 63 := by
  have small := bits.toNat_lt
  have masked : (bits &&& 0x8000000000000000).toNat = (bits.toNat.testBit 63).toNat * 2 ^ 63 := by
    rw [UInt64.toNat_and]
    exact Nat.and_two_pow bits.toNat 63
  have sign : bits.toNat.testBit 63 = decide (2 ^ 63 ≤ bits.toNat) := by
    rw [Nat.testBit_eq_decide_div_mod_eq]
    congr 1
    simp only [eq_iff_iff]
    omega
  rw [← UInt64.toNat_inj, masked, sign]
  simp

/-- That number is the key of the total order up to an offset. -/
theorem sortableFloat_toNat (value : Float64)
    : ((sortableFloat value).toNat : Int) = totalOrderKey value + 2 ^ 63 := by
  have small := value.bits.toNat_lt
  rw [sortableFloat, totalOrderKey]
  by_cases lower : value.bits.toNat < 2 ^ 63
  · have bits : (value.bits ^^^ 0x8000000000000000).toNat = value.bits.toNat ^^^ 2 ^ 63 := by
      rw [UInt64.toNat_xor]
      rfl
    rw [if_neg (not_not.mpr ((sign_eq_zero_iff _).mpr lower)), if_pos lower, bits,
      xor_highest 63 _ small, if_pos lower]
    omega
  have bits : (~~~ value.bits).toNat = 2 ^ 64 - 1 - value.bits.toNat := by
    rw [UInt64.toNat_not]
    rfl
  rw [if_pos (mt (sign_eq_zero_iff _).mp lower), if_neg lower, bits]
  omega

/-- The bytes of floats are ordered like the floats in their total order. -/
theorem compare_sortableFloatBytes (left right : Float64)
    : compare (sortableFloatBytes left) (sortableFloatBytes right) = totalCmp left right := by
  rw [sortableFloatBytes_eq, sortableFloatBytes_eq, compare_beBytes 8 (UInt64.toNat_lt _)
    (UInt64.toNat_lt _), totalCmp]
  exact compare_moved (sortableFloat_toNat left) (sortableFloat_toNat right)

end DecentDb.Record
