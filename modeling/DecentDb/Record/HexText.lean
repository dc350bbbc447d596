import DecentDb.Library.Lexicographic
import Mathlib.Data.String.Basic

/-! Bytes as hexadecimal text. Its order is that of the bytes, with the hyphens of a UUID too. -/

namespace DecentDb.Record

open Lexicographic
open List (cons_lt_cons_iff flatMap_cons length_flatMap take_append_drop)

/-- The two digits of a byte. -/
def hexByte (byte : UInt8) : List Char :=
  [Nat.digitChar (byte.toNat / 16), Nat.digitChar (byte.toNat % 16)]

def hexChars (bytes : List UInt8) : List Char := bytes.flatMap hexByte

/-- The digits of the bytes, with a hyphen after each group of bytes of these sizes. -/
def hyphenated : List Nat → List UInt8 → List Char
  | [], bytes => hexChars bytes
  | size :: sizes, bytes =>
    hexChars (bytes.take size) ++ '-' :: hyphenated sizes (bytes.drop size)

def hexText (bytes : List UInt8) : String := String.ofList (hexChars bytes)

def uuidText (value : Vector UInt8 16) : String :=
  String.ofList (hyphenated [4, 2, 2, 2] value.toList)

-- Texts

/-- A list is below another exactly if it is the smaller one, by induction along both. -/
theorem compare_chars_eq_lt {left right : List Char} : compare left right = .lt ↔ left < right := by
  induction left generalizing right with
  | nil => cases right <;> simp
  | cons first left ih =>
    cases right with
    | nil => simp
    | cons second right =>
      rw [List.compare_cons_cons, Ordering.then_eq_lt, ih, cons_lt_cons_iff, compare_lt_iff_lt,
        compare_eq_iff_eq]

/-- Texts are compared like the lists of their characters. -/
theorem compare_ofList (left right : List Char)
    : compare (String.ofList left) (String.ofList right) = compare left right := by
  cases compared : compare left right with
  | lt =>
    refine compare_lt_iff_lt.mpr (String.lt_iff_toList_lt.mpr ?_)
    simpa only [String.toList_ofList] using compare_chars_eq_lt.mp compared
  | eq =>
    cases Std.compare_eq_iff_eq.mp compared
    exact Std.ReflOrd.compare_self
  | gt =>
    refine compare_gt_iff_gt.mpr (String.lt_iff_toList_lt.mpr ?_)
    have swapped := Std.OrientedCmp.gt_iff_lt.mp compared
    simpa only [String.toList_ofList] using compare_chars_eq_lt.mp swapped

-- Bytes

/-- The digits are in the order of their values. -/
theorem compare_digitChar : ∀ left < 16, ∀ right < 16,
    compare (Nat.digitChar left) (Nat.digitChar right) = compare left right := by
  decide

/-- Bytes are compared like their halves. -/
theorem compare_halves (left right : UInt8)
    : compare left right = (compare (left.toNat / 16) (right.toNat / 16)).then
      (compare (left.toNat % 16) (right.toNat % 16)) := by
  symm
  cases compared : compare left right with
  | lt =>
    have smaller := UInt8.lt_iff_toNat_lt.mp (Std.compare_eq_lt.mp compared)
    rw [Ordering.then_eq_lt, Nat.compare_eq_lt, Nat.compare_eq_lt, Nat.compare_eq_eq]
    omega
  | eq =>
    cases Std.compare_eq_iff_eq.mp compared
    simp
  | gt =>
    have greater := UInt8.lt_iff_toNat_lt.mp (Std.compare_eq_gt.mp compared)
    rw [Ordering.then_eq_gt, Nat.compare_eq_gt, Nat.compare_eq_gt, Nat.compare_eq_eq]
    omega

/-- Bytes are compared like their digits. -/
theorem compare_hexByte (left right : UInt8)
    : compare (hexByte left) (hexByte right) = compare left right := by
  have high (byte : UInt8) : byte.toNat / 16 < 16 := Nat.div_lt_of_lt_mul byte.toNat_lt
  have low (byte : UInt8) : byte.toNat % 16 < 16 := Nat.mod_lt _ (by decide)
  rw [hexByte, hexByte, List.compare_cons_cons, compare_singleton,
    compare_digitChar _ (high left) _ (high right), compare_digitChar _ (low left) _ (low right),
    compare_halves]

/-- Lists of bytes are compared like their digits, by induction along both. -/
theorem compare_hexChars (left right : List UInt8)
    : compare (hexChars left) (hexChars right) = compare left right := by
  induction left generalizing right with
  | nil => cases right <;> rfl
  | cons first left ih =>
    cases right with
    | nil => rfl
    | cons second right =>
      have digits : (hexByte first).length = (hexByte second).length := rfl
      rw [hexChars, hexChars, flatMap_cons, flatMap_cons, compare_append digits, compare_hexByte,
        ← hexChars, ← hexChars, ih, List.compare_cons_cons]

/-- Every byte has two digits. -/
theorem length_hexChars (bytes : List UInt8) : (hexChars bytes).length = 2 * bytes.length := by
  simp [hexChars, hexByte, length_flatMap, Nat.mul_comm]

/-- Hyphens at the same places do not matter, by induction on the groups. -/
theorem compare_hyphenated (sizes : List Nat) {left right : List UInt8}
    (length : left.length = right.length)
    : compare (hyphenated sizes left) (hyphenated sizes right) = compare left right := by
  induction sizes generalizing left right with
  | nil => exact compare_hexChars left right
  | cons size sizes ih =>
    have taken : (left.take size).length = (right.take size).length := by simp [length]
    have dropped : (left.drop size).length = (right.drop size).length := by simp [length]
    have digits : (hexChars (left.take size)).length = (hexChars (right.take size)).length := by
      rw [length_hexChars, length_hexChars, taken]
    rw [hyphenated, hyphenated, compare_append digits, compare_hexChars, List.compare_cons_cons,
      Std.ReflOrd.compare_self, Ordering.eq_then, ih dropped, ← compare_append taken,
      take_append_drop, take_append_drop]

/-- The text of bytes has their order. -/
theorem compare_hexText (left right : List UInt8)
    : compare (hexText left) (hexText right) = compare left right := by
  rw [hexText, hexText, compare_ofList, compare_hexChars]

/-- The text of a UUID has the order of its bytes. -/
theorem compare_uuidText (left right : Vector UInt8 16)
    : compare (uuidText left) (uuidText right) = compare left.toList right.toList := by
  rw [uuidText, uuidText, compare_ofList, compare_hyphenated _ (by simp)]

end DecentDb.Record
