import Mathlib.Data.List.Basic
import Mathlib.Algebra.Group.Nat.Defs

/-! The row-value model and the equality that Rust derives for it. -/

namespace DecentDb

/-- IEEE 754 binary64 as its bit pattern, so that distinct encodings of equal numbers stay
distinct values.
-/
structure Float64 where
  bits : UInt64
  deriving DecidableEq, Repr

/-- The exponent and mantissa bits: the pattern without its sign. -/
def Float64.magnitude (x : Float64) : Nat := x.bits.toNat % 2 ^ 63

/-- A NaN has an all-ones exponent and a nonzero mantissa. -/
def Float64.isNaN (x : Float64) : Bool := 0x7FF0000000000000 < x.magnitude

/-- The `==` of `f64`: a NaN equals nothing, the two zeros equal each other. -/
def Float64.partialEq (x y : Float64) : Bool :=
  !x.isNaN && !y.isNaN && (x.bits = y.bits || (x.magnitude = 0 && y.magnitude = 0))

inductive Value where
  | null
  | int64 (value : Int64)
  | float64 (value : Float64)
  | bool (value : Bool)
  | text (value : String)
  | blob (value : List UInt8)
  | decimal (scaled : Int64) (scale : UInt8)
  | uuid (value : Vector UInt8 16)
  | timestampMicros (value : Int64)
  | geometry (value : List UInt8)
  | geography (value : List UInt8)
  | enum (enumTypeId labelId : UInt64)
  | ipAddr (family : UInt8) (addr : Vector UInt8 16)
  | cidr (family prefixLen : UInt8) (network : Vector UInt8 16)
  | macAddr (len : UInt8) (bytes : Vector UInt8 8)
  | dateDays (value : Int32)
  | timeMicros (value : Int64)
  | timestampTzMicros (value : Int64)
  | interval (months days : Int32) (micros : Int64)
  deriving DecidableEq, Repr

/-- The derived `PartialEq` of `Value`: structural, except for the numbers in `Float64`. -/
def Value.partialEq : Value → Value → Bool
  | .float64 x, .float64 y => x.partialEq y
  | x, y => x = y

/-- The `==` of two rows' values: same length and pairwise equal. -/
def valuesEq (left right : List Value) : Bool := left.isEqv right Value.partialEq

/-- A table row as the engine stores it. -/
structure StoredRow where
  rowId : Int64
  values : List Value
  deriving DecidableEq, Repr

end DecentDb
