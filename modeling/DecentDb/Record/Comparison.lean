import DecentDb.Record.DecimalOrder
import DecentDb.Record.Value

/-! The comparison of two values of any types. The conversions between numbers are functions
of the platform; everything else is spelled out.
-/

namespace DecentDb.Record

open Ordering

/-- The conversions to binary floating point, the texts that are read as a value of another
type, and the display of a value in a message: any functions.
-/
class ScalarPrimitives where
  int64ToFloat : Int64 → Float64
  decimalToFloat : Int → Nat → Float64
  parseUuidText : String → DbResult (Vector UInt8 16)
  parseDateDays : String → DbResult Int32
  parseDatetimeMicros : String → DbResult Int64
  parseTimestampTzMicros : String → DbResult Int64
  debug : Value → String

-- One type

/-- The bits as a signed number, with the magnitude of a negative one inverted. -/
def totalOrderKey (float : Float64) : Int :=
  if float.bits.toNat < 2 ^ 63 then float.bits.toNat else -1 - (float.bits.toNat - 2 ^ 63 : Int)

def totalCmp (left right : Float64) : Ordering := compare (totalOrderKey left) (totalOrderKey right)

/-- Only identical floats are equal in the total order. -/
theorem totalCmp_eq_iff {left right : Float64} : totalCmp left right = .eq ↔ left = right := by
  rw [totalCmp, Std.compare_eq_iff_eq]
  constructor
  · intro same
    obtain ⟨leftBits⟩ := left
    obtain ⟨rightBits⟩ := right
    refine congrArg Float64.mk (UInt64.toNat_inj.mp ?_)
    simp only [totalOrderKey] at same
    split at same <;> split at same <;> omega
  · exact congrArg totalOrderKey

section

variable (family : UInt8)

def validateIpFamilyPayload : DbResult Unit :=
  if family = 4 ∨ family = 6 then .ok ()
  else .error (.corruption s!"invalid IP address family {family}")

/-- An IPv4 address is ordered as the IPv6 address that it is mapped to. -/
def ipAddrOrderBytes (addr : Vector UInt8 16) : List UInt8 :=
  if family = 4 then List.replicate 10 0 ++ [0xff, 0xff] ++ addr.toList.take 4 else addr.toList

def compareIpAddr (leftFamily : UInt8) (leftAddr : Vector UInt8 16) (rightFamily : UInt8)
    (rightAddr : Vector UInt8 16) : DbResult Ordering := do
  validateIpFamilyPayload leftFamily
  validateIpFamilyPayload rightFamily
  .ok ((compare (ipAddrOrderBytes leftFamily leftAddr) (ipAddrOrderBytes rightFamily rightAddr)).then
    (compare leftFamily rightFamily))

/-- Clears the bits after the first `bits` ones. -/
def zeroAfter : Nat → List UInt8 → List UInt8
  | _, [] => []
  | bits, byte :: rest =>
    if 8 ≤ bits then byte :: zeroAfter (bits - 8) rest
    else (byte &&& UInt8.ofNat (256 - 2 ^ (8 - bits))) :: zeroAfter 0 rest

def zeroHostBits (prefixLen : UInt8) (addr : List UInt8) : List UInt8 :=
  if family = 4 then zeroAfter prefixLen.toNat (addr.take 4) ++ addr.drop 4
  else zeroAfter prefixLen.toNat addr

def validateCidrPayload (family prefixLen : UInt8) (network : Vector UInt8 16) : DbResult Unit := do
  validateIpFamilyPayload family
  if (if family = 4 then 32 else 128) < prefixLen.toNat then
    .error (.corruption "CIDR prefix length out of range")
  else if zeroHostBits family prefixLen network.toList ≠ network.toList then
    .error (.corruption "CIDR network address must have host bits cleared")
  else .ok ()

/-- The bytes of an address that its family uses. -/
def networkBytes (network : Vector UInt8 16) : List UInt8 :=
  if family = 4 then network.toList.take 4 else network.toList

end

def compareCidr (leftFamily leftPrefixLen : UInt8) (leftNetwork : Vector UInt8 16)
    (rightFamily rightPrefixLen : UInt8) (rightNetwork : Vector UInt8 16) : DbResult Ordering := do
  validateCidrPayload leftFamily leftPrefixLen leftNetwork
  validateCidrPayload rightFamily rightPrefixLen rightNetwork
  .ok (((compare leftFamily rightFamily).then (compare leftPrefixLen rightPrefixLen)).then
    (compare (networkBytes leftFamily leftNetwork) (networkBytes leftFamily rightNetwork)))

def validateMacAddrPayload (len : UInt8) (bytes : Vector UInt8 8) : DbResult Unit :=
  if len ≠ 6 ∧ len ≠ 8 then .error (.corruption "MACADDR length must be 6 or 8 bytes")
  else if (bytes.toList.drop len.toNat).any (· ≠ 0) then
    .error (.corruption "MACADDR trailing bytes must be zero")
  else .ok ()

def compareMacAddr (leftLen : UInt8) (leftBytes : Vector UInt8 8) (rightLen : UInt8)
    (rightBytes : Vector UInt8 8) : DbResult Ordering := do
  validateMacAddrPayload leftLen leftBytes
  validateMacAddrPayload rightLen rightBytes
  .ok ((compare (leftBytes.toList.take leftLen.toNat) (rightBytes.toList.take rightLen.toNat)).then
    (compare leftLen rightLen))

def compareInterval (leftMonths leftDays : Int32) (leftMicros : Int64)
    (rightMonths rightDays : Int32) (rightMicros : Int64) : Ordering :=
  ((compare leftMonths rightMonths).then (compare leftDays rightDays)).then
    (compare leftMicros rightMicros)

-- Any two types

section

variable [ScalarPrimitives]

open ScalarPrimitives (int64ToFloat decimalToFloat debug)

/-- The number that a text reads as. -/
def parsedNumericText (text : String) : Option Float64 :=
  (parseDecimalText text).toOption.map fun (scaled, scale) => decimalToFloat scaled scale

/-- A number and a text compare as numbers; a text that is none comes after all numbers. -/
def compareNumericTextValues : Value → Value → Option Ordering
  | .decimal scaled scale, .text text =>
    match parseDecimalText text with
    | .ok (right, rightScale) => some (compareDecimal scaled.toInt scale.toNat right rightScale)
    | .error _ => some .lt
  | .text text, .decimal scaled scale =>
    match parseDecimalText text with
    | .ok (left, leftScale) => some (compareDecimal left leftScale scaled.toInt scale.toNat)
    | .error _ => some .gt
  | .int64 left, .text right =>
    ((parsedNumericText right).map (totalCmp (int64ToFloat left) ·)).or (some .lt)
  | .float64 left, .text right => ((parsedNumericText right).map (totalCmp left ·)).or (some .lt)
  | .text left, .int64 right =>
    ((parsedNumericText left).map (totalCmp · (int64ToFloat right))).or (some .gt)
  | .text left, .float64 right => ((parsedNumericText left).map (totalCmp · right)).or (some .gt)
  | _, _ => none

def compareOtherValues : Value → Value → DbResult Ordering
  | .null, .null => .ok .eq
  | .null, _ => .ok .lt
  | _, .null => .ok .gt
  | .int64 left, .int64 right => .ok (compare left right)
  | .float64 left, .float64 right => .ok (totalCmp left right)
  | .int64 left, .float64 right => .ok (totalCmp (int64ToFloat left) right)
  | .float64 left, .int64 right => .ok (totalCmp left (int64ToFloat right))
  | .decimal left leftScale, .decimal right rightScale =>
    .ok (compareDecimal left.toInt leftScale.toNat right.toInt rightScale.toNat)
  | .decimal left leftScale, .float64 right =>
    .ok (totalCmp (decimalToFloat left.toInt leftScale.toNat) right)
  | .float64 left, .decimal right rightScale =>
    .ok (totalCmp left (decimalToFloat right.toInt rightScale.toNat))
  | .decimal left leftScale, .int64 right =>
    .ok (totalCmp (decimalToFloat left.toInt leftScale.toNat) (int64ToFloat right))
  | .int64 left, .decimal right rightScale =>
    .ok (totalCmp (int64ToFloat left) (decimalToFloat right.toInt rightScale.toNat))
  | .bool left, .bool right => .ok (compare left right)
  | .text left, .text right => .ok (compare left right)
  | .blob left, .blob right => .ok (compare left right)
  | .uuid left, .uuid right => .ok (compare left.toList right.toList)
  | .timestampMicros left, .timestampMicros right | .timestampMicros left, .timestampTzMicros right
  | .timestampTzMicros left, .timestampMicros right
  | .timestampTzMicros left, .timestampTzMicros right => .ok (compare left right)
  | .dateDays left, .dateDays right => .ok (compare left right)
  | .timeMicros left, .timeMicros right => .ok (compare left right)
  | .enum leftType leftLabel, .enum rightType rightLabel =>
    .ok ((compare leftType rightType).then (compare leftLabel rightLabel))
  | .ipAddr leftFamily leftAddr, .ipAddr rightFamily rightAddr =>
    compareIpAddr leftFamily leftAddr rightFamily rightAddr
  | .cidr leftFamily leftPrefix leftNetwork, .cidr rightFamily rightPrefix rightNetwork =>
    compareCidr leftFamily leftPrefix leftNetwork rightFamily rightPrefix rightNetwork
  | .macAddr leftLen leftBytes, .macAddr rightLen rightBytes =>
    compareMacAddr leftLen leftBytes rightLen rightBytes
  | .interval leftMonths leftDays leftMicros, .interval rightMonths rightDays rightMicros =>
    .ok (compareInterval leftMonths leftDays leftMicros rightMonths rightDays rightMicros)
  | .blob left, .uuid right => .ok (compare left right.toList)
  | .uuid left, .blob right => .ok (compare left.toList right)
  | .geometry _, .geometry _ | .geography _, .geography _ =>
    .error (.sql ("spatial values do not have generic comparison semantics; use ST_Equals or "
      ++ "spatial predicates"))
  | left, right => .error (.sql s!"cannot compare values {debug left} and {debug right}")

def compareValues (left right : Value) : DbResult Ordering :=
  match compareNumericTextValues left right with
  | some ordering => .ok ordering
  | none => compareOtherValues left right

end

-- Equal values of one type

inductive ValueKind where
  | null | bool | int64 | float64 | decimal | timestamp | uuid | text | blob | enum | ipAddr
  | cidr | date | time | timestampTz | interval | macAddr | geometry | geography
  deriving DecidableEq, Repr

def valueKind : Value → ValueKind
  | .null => .null
  | .bool _ => .bool
  | .int64 _ => .int64
  | .float64 _ => .float64
  | .decimal _ _ => .decimal
  | .timestampMicros _ => .timestamp
  | .uuid _ => .uuid
  | .text _ => .text
  | .blob _ => .blob
  | .enum _ _ => .enum
  | .ipAddr _ _ => .ipAddr
  | .cidr _ _ _ => .cidr
  | .dateDays _ => .date
  | .timeMicros _ => .time
  | .timestampTzMicros _ => .timestampTz
  | .interval _ _ _ => .interval
  | .macAddr _ _ => .macAddr
  | .geometry _ => .geometry
  | .geography _ => .geography

/-- Equal values of one type are the same up to the scale of a decimal and the bytes of an
address that its family does not use.
-/
inductive SameValue : Value → Value → Prop where
  | refl (value : Value) : SameValue value value
  | decimal {leftScaled rightScaled : Int64} {leftScale rightScale : UInt8}
    (normal : normalizeDecimal leftScaled.toInt leftScale.toNat
      = normalizeDecimal rightScaled.toInt rightScale.toNat)
    : SameValue (.decimal leftScaled leftScale) (.decimal rightScaled rightScale)
  | ipAddr {family : UInt8} {left right : Vector UInt8 16}
    (bytes : ipAddrOrderBytes family left = ipAddrOrderBytes family right)
    : SameValue (.ipAddr family left) (.ipAddr family right)
  | cidr {family prefixLen : UInt8} {left right : Vector UInt8 16}
    (bytes : networkBytes family left = networkBytes family right)
    : SameValue (.cidr family prefixLen left) (.cidr family prefixLen right)

variable {left right : Vector UInt8 16}

/-- Equal addresses are the same up to the bytes that their family does not use. -/
theorem sameIpAddr {leftFamily rightFamily : UInt8}
    (equal : compareIpAddr leftFamily left rightFamily right = .ok .eq)
    : SameValue (.ipAddr leftFamily left) (.ipAddr rightFamily right) := by
  obtain ⟨-, -, equal⟩ := bind_eq_ok.mp equal
  obtain ⟨-, -, equal⟩ := bind_eq_ok.mp equal
  obtain ⟨bytes, family⟩ := then_eq_eq.mp (Except.ok.inj equal)
  obtain rfl := Std.compare_eq_iff_eq.mp family
  exact .ipAddr (Std.compare_eq_iff_eq.mp bytes)

/-- Equal networks are the same up to the bytes that their family does not use. -/
theorem sameCidr {leftFamily leftPrefix rightFamily rightPrefix : UInt8}
    (equal : compareCidr leftFamily leftPrefix left rightFamily rightPrefix right = .ok .eq)
    : SameValue (.cidr leftFamily leftPrefix left) (.cidr rightFamily rightPrefix right) := by
  obtain ⟨-, -, equal⟩ := bind_eq_ok.mp equal
  obtain ⟨-, -, equal⟩ := bind_eq_ok.mp equal
  obtain ⟨header, bytes⟩ := then_eq_eq.mp (Except.ok.inj equal)
  obtain ⟨family, length⟩ := then_eq_eq.mp header
  obtain rfl := Std.compare_eq_iff_eq.mp family
  obtain rfl := Std.compare_eq_iff_eq.mp length
  exact .cidr (Std.compare_eq_iff_eq.mp bytes)

/-- The bytes behind a valid address are all zero. -/
theorem validateMacAddrPayload_drop {len : UInt8} {bytes : Vector UInt8 8}
    (valid : validateMacAddrPayload len bytes = .ok ())
    : bytes.toList.drop len.toNat = List.replicate (8 - len.toNat) 0 := by
  rw [validateMacAddrPayload] at valid
  split at valid
  · cases valid
  split at valid
  · cases valid
  next zeros =>
    refine List.eq_replicate_iff.mpr ⟨by simp, fun byte member => ?_⟩
    by_contra nonzero
    exact zeros (List.any_eq_true.mpr ⟨byte, member, decide_eq_true nonzero⟩)

/-- The bytes past the length are zero on both sides. -/
theorem sameMacAddr_of_take {len : UInt8} {left right : Vector UInt8 8}
    (leftValid : validateMacAddrPayload len left = .ok ())
    (rightValid : validateMacAddrPayload len right = .ok ())
    (bytes : left.toList.take len.toNat = right.toList.take len.toNat)
    : SameValue (.macAddr len left) (.macAddr len right) := by
  have all : left.toList = right.toList := by
    rw [← List.take_append_drop len.toNat left.toList,
      ← List.take_append_drop len.toNat right.toList, bytes,
      validateMacAddrPayload_drop leftValid, validateMacAddrPayload_drop rightValid]
  rw [Vector.toList_inj.mp all]
  exact .refl _

/-- Equal hardware addresses are the same up to the bytes past their length. -/
theorem sameMacAddr {leftLen rightLen : UInt8} {left right : Vector UInt8 8}
    (equal : compareMacAddr leftLen left rightLen right = .ok .eq)
    : SameValue (.macAddr leftLen left) (.macAddr rightLen right) := by
  obtain ⟨⟨⟩, leftValid, equal⟩ := bind_eq_ok.mp equal
  obtain ⟨⟨⟩, rightValid, equal⟩ := bind_eq_ok.mp equal
  obtain ⟨bytes, len⟩ := then_eq_eq.mp (Except.ok.inj equal)
  obtain rfl := Std.compare_eq_iff_eq.mp len
  exact sameMacAddr_of_take leftValid rightValid (Std.compare_eq_iff_eq.mp bytes)

/-- Values that are compared by one lawful order are equal only if they are the same. -/
theorem same_of_compare {α : Type} [Ord α] [Std.LawfulEqOrd α] {left right : α}
    (construct : α → Value) (equal : (.ok (compare left right) : DbResult Ordering) = .ok .eq)
    : SameValue (construct left) (construct right) := by
  obtain rfl := Std.compare_eq_iff_eq.mp (Except.ok.inj equal)
  exact .refl _

/-- By cases on the type of the two values. -/
theorem sameValue_of_equal [ScalarPrimitives] {left right : Value} (kind : valueKind left = valueKind right)
    (equal : compareValues left right = .ok .eq)
    : SameValue left right := by
  cases left <;> cases right <;> cases kind
  case null.null => exact .refl _
  case int64.int64 => exact same_of_compare .int64 equal
  case float64.float64 =>
    obtain rfl := totalCmp_eq_iff.mp (Except.ok.inj equal)
    exact .refl _
  case bool.bool => exact same_of_compare .bool equal
  case text.text => exact same_of_compare .text equal
  case blob.blob => exact same_of_compare .blob equal
  case decimal.decimal => exact .decimal ((compareDecimal_eq_iff _ _ _ _).mp (Except.ok.inj equal))
  case uuid.uuid =>
    have bytes := Std.compare_eq_iff_eq.mp (Except.ok.inj equal)
    rw [Vector.toList_inj.mp bytes]
    exact .refl _
  case timestampMicros.timestampMicros => exact same_of_compare .timestampMicros equal
  case geometry.geometry | geography.geography => cases equal
  case enum.enum leftType _ _ _ =>
    obtain ⟨type, label⟩ := then_eq_eq.mp (Except.ok.inj equal)
    obtain rfl := Std.compare_eq_iff_eq.mp type
    exact same_of_compare (.enum leftType) (congrArg Except.ok label)
  case ipAddr.ipAddr => exact sameIpAddr equal
  case cidr.cidr => exact sameCidr equal
  case macAddr.macAddr => exact sameMacAddr equal
  case dateDays.dateDays => exact same_of_compare .dateDays equal
  case timeMicros.timeMicros => exact same_of_compare .timeMicros equal
  case timestampTzMicros.timestampTzMicros => exact same_of_compare .timestampTzMicros equal
  case interval.interval leftMonths leftDays _ _ _ _ =>
    obtain ⟨parts, micros⟩ := then_eq_eq.mp (Except.ok.inj equal)
    obtain ⟨months, days⟩ := then_eq_eq.mp parts
    obtain rfl := Std.compare_eq_iff_eq.mp months
    obtain rfl := Std.compare_eq_iff_eq.mp days
    exact same_of_compare (.interval leftMonths leftDays) (congrArg Except.ok micros)

end DecentDb.Record
