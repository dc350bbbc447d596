import DecentDb.Query.LookupAgreement

/-! Whether the comparison of values orders them. A number and a text are compared as numbers but
two texts as texts, and an integer and a decimal are first converted to floating point. The
values are ordered exactly if these rules do not lead round in a circle.
-/

namespace DecentDb.Query

open Record Std

-- The order of the parts

/-- What a value is compared by. A part that it does not have comes before all others. -/
structure OrderParts where
  family : Option UInt8 := none
  prefixLen : Option UInt8 := none
  bytes : Option (List UInt8) := none
  len : Option UInt8 := none
  enumTypeId : Option UInt64 := none
  labelId : Option UInt64 := none
  months : Option Int32 := none
  days : Option Int32 := none
  number : Option Int64 := none
  bool : Option Bool := none
  text : Option String := none
  decimal : Option ℚ := none

/-- Types that are not comparable may share a part. -/
def orderParts : Value → OrderParts
  | .null | .float64 _ => {}
  | .int64 value | .timestampMicros value | .timestampTzMicros value | .timeMicros value =>
    { number := some value }
  | .bool value => { bool := some value }
  | .text value => { text := some value }
  | .blob value | .geometry value | .geography value => { bytes := some value }
  | .uuid value => { bytes := some value.toList }
  | .decimal scaled scale => { decimal := some (decimalValue (scaled.toInt, scale.toNat)) }
  | .enum enumTypeId labelId => { enumTypeId := some enumTypeId, labelId := some labelId }
  | .ipAddr family addr => { bytes := some (ipAddrOrderBytes family addr), len := some family }
  | .cidr family prefixLen network => {
    family := some family, prefixLen := some prefixLen
    bytes := some (networkBytes family network) }
  | .macAddr len bytes => { bytes := some (bytes.toList.take len.toNat), len := some len }
  | .dateDays value => { days := some value }
  | .interval months days micros => {
    months := some months, days := some days, number := some micros }

def compareParts : Value → Value → Ordering :=
  compareLex (compareOn (orderParts · |>.family)) <|
  compareLex (compareOn (orderParts · |>.prefixLen)) <|
  compareLex (compareOn (orderParts · |>.bytes)) <|
  compareLex (compareOn (orderParts · |>.len)) <|
  compareLex (compareOn (orderParts · |>.enumTypeId)) <|
  compareLex (compareOn (orderParts · |>.labelId)) <|
  compareLex (compareOn (orderParts · |>.months)) <|
  compareLex (compareOn (orderParts · |>.days)) <|
  compareLex (compareOn (orderParts · |>.number)) <|
  compareLex (compareOn (orderParts · |>.bool)) <|
  compareLex (compareOn (orderParts · |>.text)) (compareOn (orderParts · |>.decimal))

instance transCmp_compareParts : TransCmp compareParts := by
  unfold compareParts
  infer_instance

/-- Values that are there are compared as themselves. -/
theorem compare_some {α : Type} [Ord α] (left right : α)
    : compare (some left) (some right) = compare left right :=
  rfl

-- Values that one rule compares

/-- The types among which the pair decides how two values are compared. -/
def comparedByPair : Value → Bool
  | .int64 _ | .decimal _ _ | .text _ => true
  | _ => false

/-- Not two different ones of an integer, a decimal and a text. -/
def Unmixed (left right : Value) : Prop :=
  comparedByPair left → comparedByPair right → valueKind left = valueKind right

/-- Numbers below the top are compared as numbers. -/
theorem compare_number (left right : ℚ)
    : compare (left : WithTop ℚ) (right : WithTop ℚ) = compare left right := by
  rw [← cmp_eq_compare, ← cmp_eq_compare]
  exact WithTop.coe_strictMono.cmp_map_eq left right

/-- The keys of floats are ordered as `total_cmp` orders them. -/
theorem compare_floatKey (left right : Float64)
    : compare ((totalOrderKey left : ℚ) : WithTop ℚ) ((totalOrderKey right : ℚ) : WithTop ℚ)
      = totalCmp left right := by
  rw [compare_number, totalCmp, ← cmp_eq_compare, ← cmp_eq_compare]
  exact (Int.cast_strictMono (R := ℚ)).cmp_map_eq _ _

section

variable [ScalarPrimitives] {left right : Value} {ordering : Ordering}

open ScalarPrimitives (int64ToFloat decimalToFloat)

/-- By cases on the two types. Most pairs are not comparable, a float, or mixed. -/
theorem compareValues_eq_parts (leftKind : valueKind left ≠ .float64)
    (rightKind : valueKind right ≠ .float64) (unmixed : Unmixed left right)
    (compared : compareValues left right = .ok ordering)
    : ordering = compareParts left right := by
  cases left <;> cases right
  all_goals first
    | exact absurd rfl leftKind
    | exact absurd rfl rightKind
    | cases compared; rfl
    | cases compared; done
    | cases unmixed rfl rfl; done
    | skip
  case cidr.cidr leftFamily _ _ rightFamily _ _ =>
    obtain ⟨-, -, compared⟩ := bind_eq_ok.mp compared
    obtain ⟨-, -, compared⟩ := bind_eq_ok.mp compared
    cases compared
    by_cases same : leftFamily = rightFamily
    · simp [compareParts, compareLex, compareOn, orderParts, compare_some, same]
    have decided : compare leftFamily rightFamily ≠ .eq := by rwa [Ne, Std.compare_eq_iff_eq]
    simp [compareParts, compareLex, compareOn, orderParts, compare_some,
      Lexicographic.then_of_ne decided]
  case ipAddr.ipAddr | macAddr.macAddr =>
    obtain ⟨-, -, compared⟩ := bind_eq_ok.mp compared
    obtain ⟨-, -, compared⟩ := bind_eq_ok.mp compared
    cases compared
    simp [compareParts, compareLex, compareOn, orderParts, compare_some]
  all_goals
    cases compared
    simp [compareParts, compareLex, compareOn, orderParts, compare_some, Ordering.then_assoc,
      compareDecimal_value, compareInterval]

/-- The first value is compared to be below the second or equal to it. -/
def AtMost (left right : Value) : Prop :=
  ∃ ordering, compareValues left right = .ok ordering ∧ ordering.isLE

/-- The comparison is a total preorder on the values. -/
structure OrdersValues (values : Value → Prop) : Prop where
  reflexive : ∀ value, values value → compareValues value value = .ok .eq
  reverses : ∀ left right, values left → values right
    → compareValues right left = (compareValues left right).map Ordering.swap
  transitive : ∀ first second third, values first → values second → values third
    → AtMost first second → AtMost second third → AtMost first third

-- Values of different types

/-- The number as which a value is compared with one of another type. A decimal and a text meet as
exact numbers, and an integer meets both as a floating-point number. A text that is no number is
above all of them.
-/
def seenBy (other : ValueKind) : Value → WithTop ℚ
  | .int64 value => ((totalOrderKey (int64ToFloat value) : ℚ) : WithTop ℚ)
  | .decimal scaled scale =>
    if other = .text then (decimalValue (scaled.toInt, scale.toNat) : WithTop ℚ)
    else ((totalOrderKey (decimalToFloat scaled.toInt scale.toNat) : ℚ) : WithTop ℚ)
  | .text value => match parseDecimalText value with
    | .error _ => ⊤
    | .ok (scaled, scale) =>
      if other = .decimal then (decimalValue (scaled, scale) : WithTop ℚ)
      else ((totalOrderKey (decimalToFloat scaled scale) : ℚ) : WithTop ℚ)
  | _ => ⊤

/-- The order of integers, decimals and texts: each type has its own, and values of different types
are ordered as the numbers that they are to each other.
-/
def Precedes : Value → Value → Prop
  | .int64 left, .int64 right => left ≤ right
  | .decimal left leftScale, .decimal right rightScale =>
    decimalValue (left.toInt, leftScale.toNat) ≤ decimalValue (right.toInt, rightScale.toNat)
  | .text left, .text right => (compare left right).isLE
  | left, right => seenBy (valueKind right) left ≤ seenBy (valueKind left) right

/-- Two of an integer, a decimal and a text are compared as the numbers that they are to each
other.
-/
theorem compareValues_mixed (isLeft : comparedByPair left) (isRight : comparedByPair right)
    (mixed : valueKind left ≠ valueKind right)
    : compareValues left right
      = .ok (compare (seenBy (valueKind right) left) (seenBy (valueKind left) right)) := by
  cases left <;> cases isLeft <;> cases right <;> cases isRight
  case int64.refl.int64.refl | decimal.refl.decimal.refl | text.refl.text.refl => exact absurd rfl mixed
  case int64.refl.decimal.refl | decimal.refl.int64.refl =>
    simp only [seenBy, valueKind, reduceCtorEq, if_false, compare_floatKey]
    rfl
  case int64.refl.text.refl left right =>
    simp only [seenBy, valueKind, compareValues, compareNumericTextValues, parsedNumericText]
    cases parseDecimalText right with
    | error _ => exact congrArg Except.ok (compare_lt_iff_lt.mpr (WithTop.coe_lt_top _)).symm
    | ok parsed => exact congrArg Except.ok (compare_floatKey _ _).symm
  case text.refl.int64.refl left right =>
    simp only [seenBy, valueKind, compareValues, compareNumericTextValues, parsedNumericText]
    cases parseDecimalText left with
    | error _ => exact congrArg Except.ok (compare_gt_iff_gt.mpr (WithTop.coe_lt_top _)).symm
    | ok parsed => exact congrArg Except.ok (compare_floatKey _ _).symm
  case decimal.refl.text.refl left scale right =>
    simp only [seenBy, valueKind, compareValues, compareNumericTextValues]
    cases parseDecimalText right with
    | error _ => exact congrArg Except.ok (compare_lt_iff_lt.mpr (WithTop.coe_lt_top _)).symm
    | ok parsed =>
      simp only [compareDecimal_value, if_true, compare_number]
  case text.refl.decimal.refl left right scale =>
    simp only [seenBy, valueKind, compareValues, compareNumericTextValues]
    cases parseDecimalText left with
    | error _ => exact congrArg Except.ok (compare_gt_iff_gt.mpr (WithTop.coe_lt_top _)).symm
    | ok parsed =>
      simp only [compareDecimal_value, if_true, compare_number]

/-- A comparison that succeeds decides whether the first value is at most the second. -/
theorem atMost_iff_isLE (compared : compareValues left right = .ok ordering)
    : AtMost left right ↔ ordering.isLE := by
  constructor
  · rintro ⟨_, found, isLE⟩
    cases compared.symm.trans found
    exact isLE
  · exact fun isLE => ⟨_, compared, isLE⟩

/-- Values that are compared by keys of a linear order are in the order of their keys. -/
theorem atMost_iff_le {α : Type} [LinearOrder α] {leftKey rightKey : α}
    (compared : compareValues left right = .ok (compare leftKey rightKey))
    : AtMost left right ↔ leftKey ≤ rightKey := by
  rw [atMost_iff_isLE compared, Ordering.isLE_iff_ne_gt]
  exact compare_le_iff_le

/-- On integers, decimals and texts the comparison decides `Precedes`, by cases on both types. -/
theorem atMost_iff_precedes (isLeft : comparedByPair left) (isRight : comparedByPair right)
    : AtMost left right ↔ Precedes left right := by
  cases left <;> cases isLeft <;> cases right <;> cases isRight
  case int64.refl.int64.refl => exact (atMost_iff_isLE rfl).trans Std.isLE_compare
  case text.refl.text.refl => exact atMost_iff_isLE rfl
  case decimal.refl.decimal.refl =>
    exact atMost_iff_le (congrArg Except.ok (compareDecimal_value ..))
  all_goals exact atMost_iff_le (compareValues_mixed rfl rfl nofun)

/-- A value that is comparable with an integer, a decimal or a text is one of them, if it is not
missing and no float.
-/
theorem comparedByPair_eq (leftKind : valueKind left ≠ .float64)
    (rightKind : valueKind right ≠ .float64) (leftThere : left ≠ .null) (rightThere : right ≠ .null)
    (compared : compareValues left right = .ok ordering)
    : comparedByPair left = comparedByPair right := by
  cases left <;> cases right
  all_goals first
    | rfl
    | exact absurd rfl leftKind
    | exact absurd rfl rightKind
    | exact absurd rfl leftThere
    | exact absurd rfl rightThere
    | cases compared

/-- Only a missing value is at most a missing one. -/
theorem eq_null_of_atMost (below : AtMost left .null) : left = .null := by
  obtain ⟨_, compared, isLE⟩ := below
  cases left <;> cases compared <;> first | rfl | cases isLE

/-- A missing value is at most every other. -/
theorem null_atMost (value : Value) : AtMost .null value := by
  cases value <;> exact ⟨_, rfl, rfl⟩

/-- No three integers, decimals and texts of more than one type go round in a circle. -/
def Consistent (values : Value → Prop) : Prop :=
  ∀ first second third, values first → values second → values third
    → comparedByPair first → comparedByPair second → comparedByPair third
    → ¬(valueKind first = valueKind second ∧ valueKind second = valueKind third)
    → Precedes first second → Precedes second third → Precedes first third

section

variable {values : Value → Prop} (noFloats : ∀ value, values value → valueKind value ≠ .float64)
  (comparable : ∀ left right, values left → values right
    → ∃ ordering, compareValues left right = .ok ordering)
include noFloats comparable

/-- Values that one rule compares are compared by their parts. -/
theorem compareValues_unmixed (isLeft : values left) (isRight : values right)
    (unmixed : Unmixed left right)
    : compareValues left right = .ok (compareParts left right) := by
  obtain ⟨ordering, compared⟩ := comparable left right isLeft isRight
  rw [compared, compareValues_eq_parts (noFloats left isLeft) (noFloats right isRight) unmixed
    compared]

/-- Swapping the values reverses the result, whether one rule compares them or their types do. -/
theorem compareValues_swap (isLeft : values left) (isRight : values right)
    : compareValues right left = (compareValues left right).map Ordering.swap := by
  by_cases unmixed : Unmixed left right
  · rw [compareValues_unmixed noFloats comparable isLeft isRight unmixed,
      compareValues_unmixed noFloats comparable isRight isLeft fun right left =>
        (unmixed left right).symm, @OrientedCmp.eq_swap _ compareParts]
    rfl
  · simp only [Unmixed, not_forall] at unmixed
    obtain ⟨leftPaired, rightPaired, mixed⟩ := unmixed
    rw [compareValues_mixed leftPaired rightPaired mixed,
      compareValues_mixed rightPaired leftPaired (Ne.symm mixed), OrientedOrd.eq_swap]
    rfl

/-- The order of the parts is transitive. -/
theorem atMost_trans_unmixed {first second third : Value} (isFirst : values first)
    (isSecond : values second) (isThird : values third) (low : Unmixed first second)
    (high : Unmixed second third) (ends : Unmixed first third) (below : AtMost first second)
    (above : AtMost second third)
    : AtMost first third := by
  obtain ⟨_, compared, isLow⟩ := below
  obtain ⟨_, comparedAbove, isHigh⟩ := above
  rw [compareValues_unmixed noFloats comparable isFirst isSecond low] at compared
  rw [compareValues_unmixed noFloats comparable isSecond isThird high] at comparedAbove
  cases compared
  cases comparedAbove
  exact ⟨_, compareValues_unmixed noFloats comparable isFirst isThird ends,
    TransCmp.isLE_trans isLow isHigh⟩

/-- If one of three values is an integer, a decimal or a text, all three are, unless one is
missing; so the only triples that one rule does not decide are those of `Consistent`.
-/
theorem atMost_trans (consistent : Consistent values) {first second third : Value}
    (isFirst : values first) (isSecond : values second) (isThird : values third)
    (below : AtMost first second) (above : AtMost second third)
    : AtMost first third := by
  -- a missing value is below all others, and only it is below a missing one
  by_cases firstThere : first = .null
  · exact firstThere ▸ null_atMost third
  have secondThere : second ≠ .null := fun missing =>
    firstThere (eq_null_of_atMost (missing ▸ below))
  have thirdThere : third ≠ .null := fun missing =>
    secondThere (eq_null_of_atMost (missing ▸ above))
  have low : comparedByPair first = comparedByPair second := by
    obtain ⟨_, compared⟩ := comparable first second isFirst isSecond
    exact comparedByPair_eq (noFloats _ isFirst) (noFloats _ isSecond) firstThere secondThere compared
  have high : comparedByPair second = comparedByPair third := by
    obtain ⟨_, compared⟩ := comparable second third isSecond isThird
    exact comparedByPair_eq (noFloats _ isSecond) (noFloats _ isThird) secondThere thirdThere compared
  have trans := atMost_trans_unmixed noFloats comparable isFirst isSecond isThird
  by_cases paired : comparedByPair first
  · have pairSecond := low ▸ paired
    have pairThird := high ▸ pairSecond
    by_cases same : valueKind first = valueKind second ∧ valueKind second = valueKind third
    · exact trans (fun _ _ => same.1) (fun _ _ => same.2) (fun _ _ => same.1.trans same.2) below above
    · rw [atMost_iff_precedes paired pairSecond] at below
      rw [atMost_iff_precedes pairSecond pairThird] at above
      rw [atMost_iff_precedes paired pairThird]
      exact consistent _ _ _ isFirst isSecond isThird paired pairSecond pairThird same below above
  · exact trans (fun left => absurd left paired) (fun left => absurd (low ▸ left) paired)
      (fun left => absurd left paired) below above

end

end

end DecentDb.Query
