import DecentDb.Record.SortableNumbers

/-! The index keys of decimals. They sort like the decimals, with one exception: of two
negative decimals with the point at the same position, the digits of one may go on where those
of the other end. The inverted digits have no terminator, so the shorter key comes first,
although the shorter decimal is the greater one.
-/

namespace DecentDb.Record

open List Std.ReflOrd Lexicographic

-- Digits

/-- A 64-bit number has at most twenty digits. -/
theorem length_digitBytes_le {number : Nat} (fits : number ≤ 2 ^ 63)
    : (digitBytes number).length ≤ 20 := by
  rw [digitBytes, length_map, length_reverse, Nat.digits_length_le_iff (by decide)]
  omega

/-- Inverted bytes are ordered the other way round. -/
theorem compare_inverted (left right : UInt8)
    : compare (255 - left) (255 - right) = (compare left right).swap := by
  have inverted (byte : UInt8) : (255 - byte).toNat = 255 - byte.toNat :=
    UInt8.toNat_sub_of_le 255 byte (UInt8.le_iff_toNat_le.mpr (Nat.le_of_lt_succ byte.toNat_lt))
  rw [UInt8.compare_eq_toNat_compare_toNat, UInt8.compare_eq_toNat_compare_toNat, inverted,
    inverted, compare_complement (Nat.le_of_lt_succ left.toNat_lt)
      (Nat.le_of_lt_succ right.toNat_lt)]

-- Magnitudes

/-- Digits that go on after equally many ones are those of the greater number, since they do not
end with a zero.
-/
theorem compare_digitBytes_shorter {left right count : Nat} (positive : 0 < count)
    (leftNonzero : left ≠ 0) (ends : ¬ 10 ∣ right)
    (length : (digitBytes right).length = (digitBytes left).length + count)
    : compare (digitBytes left) (digitBytes right) = compare (10 ^ count * left) right := by
  have some : 0 < (digitBytes left).length :=
    Nat.pos_of_ne_zero fun none => leftNonzero (eq_zero_of_digitBytes none)
  obtain ⟨rest, isCount, split⟩ := digitBytes_split count
    (show count < (digitBytes right).length by omega)
  have same : (digitBytes left).length = (digitBytes (right / 10 ^ count)).length := by
    have total := congrArg List.length split
    rw [length_append] at total
    omega
  have tail : 0 < right % 10 ^ count := by
    refine Nat.pos_of_ne_zero fun zero => ends ?_
    exact (dvd_pow_self 10 (Nat.ne_of_gt positive)).trans (Nat.dvd_of_mod_eq_zero zero)
  have longer := compare_append same [] rest
  rw [append_nil, ← split, compare_digitBytes same] at longer
  rw [longer, compare_div_mod (10 ^ count * left) right (10 ^ count) (Nat.pow_pos (by decide)),
    Nat.mul_div_cancel_left _ (Nat.pow_pos (by decide)), Nat.mul_mod_right,
    Nat.compare_eq_lt.mpr tail]
  cases rest with
  | nil => exact absurd isCount (Nat.ne_of_lt positive)
  | cons next rest => rw [List.compare_nil_cons]

/-- Magnitudes in normal form compare by the position of the point and then like their digits
without any padding.
-/
theorem compareDecimalMagnitude_digits {leftAbs leftScale rightAbs rightScale : Nat}
    (leftNonzero : leftAbs ≠ 0) (rightNonzero : rightAbs ≠ 0)
    (leftNormal : leftScale = 0 ∨ ¬ 10 ∣ leftAbs) (rightNormal : rightScale = 0 ∨ ¬ 10 ∣ rightAbs)
    : compareDecimalMagnitude leftAbs leftScale rightAbs rightScale
      = (compare ((digitBytes leftAbs).length + rightScale)
        ((digitBytes rightAbs).length + leftScale)).then
        (compare (digitBytes leftAbs) (digitBytes rightAbs)) := by
  rw [compareDecimalMagnitude, if_neg (not_or.mpr ⟨leftNonzero, rightNonzero⟩)]
  dsimp only
  generalize position : compare ((digitBytes leftAbs).length + rightScale)
    ((digitBytes rightAbs).length + leftScale) = ordering
  cases ordering with
  | lt | gt => rfl
  | eq =>
    have position := Nat.compare_eq_eq.mp position
    rw [Ordering.eq_then, Ordering.eq_then]
    have self (number : Nat) : padDigits (digitBytes number).length (digitBytes number)
      = digitBytes number := take_left
    -- The padded digits are those of numbers of one length.
    have padded {left right count : Nat} (positive : 0 < count) (nonzero : left ≠ 0)
      (ends : ¬ 10 ∣ right) (length : (digitBytes right).length = (digitBytes left).length + count)
      : compare (padDigits (digitBytes right).length (digitBytes left)) (digitBytes right)
        = compare (digitBytes left) (digitBytes right) := by
      have zeros := padDigits_digitBytes nonzero count
      rw [← length] at zeros
      rw [compare_digitBytes_shorter positive nonzero ends length, zeros,
        compare_digitBytes (by rw [← zeros, length_padDigits])]
    rcases lt_trichotomy (digitBytes leftAbs).length (digitBytes rightAbs).length with
      shorter | same | longer
    · rw [max_eq_right (le_of_lt shorter), self]
      exact padded (Nat.sub_pos_of_lt shorter) leftNonzero (rightNormal.resolve_left (by omega))
        (by omega)
    · rw [same, max_self, self, ← same, self]
    · rw [max_eq_left (le_of_lt longer), self, Std.OrientedOrd.eq_swap,
        padded (Nat.sub_pos_of_lt longer) rightNonzero (leftNormal.resolve_left (by omega))
          (by omega), ← Std.OrientedOrd.eq_swap]

-- Keys

variable (left right : Int × Nat)

/-- Two negative decimals with the point at the same position, where the digits of one go
on after those of the other.
-/
def NegativeContinued : Prop :=
  left.1 < 0 ∧ right.1 < 0
    ∧ (digitBytes left.1.natAbs).length + right.2 = (digitBytes right.1.natAbs).length + left.2
    ∧ digitBytes left.1.natAbs ≠ digitBytes right.1.natAbs
    ∧ (digitBytes left.1.natAbs <+: digitBytes right.1.natAbs
      ∨ digitBytes right.1.natAbs <+: digitBytes left.1.natAbs)

instance (left right : Int × Nat) : Decidable (NegativeContinued left right) :=
  inferInstanceAs (Decidable (_ ∧ _ ∧ _ ∧ _ ∧ _))

/-- A decimal whose number and scale fit their types. -/
structure FitsDecimal (normal : Int × Nat) : Prop where
  isNormal : IsNormal normal
  number : normal.1.natAbs ≤ 2 ^ 63
  scale : normal.2 ≤ 255

/-- The normal form of a stored decimal fits its key. -/
theorem normalizeDecimal_fits (scaled : Int64) (scale : UInt8)
    : FitsDecimal (normalizeDecimal scaled.toInt scale.toNat) := by
  have bounds := normalizeDecimal_bounds scale.toNat ⟨scaled.le_toInt, scaled.toInt_lt⟩
  have small := scale.toNat_lt
  exact ⟨normalizeDecimal_isNormal _ _, by omega, by omega⟩

/-- Whether a decimal is normal does not depend on its sign. -/
theorem IsNormal.natAbs {decimal : Int × Nat} (normal : IsNormal decimal)
    : decimal.2 = 0 ∨ ¬ 10 ∣ decimal.1.natAbs :=
  normal.imp_right fun ends divides => ends (Int.natCast_dvd.mpr divides)

/-- The biased exponents compare like the positions of the points. -/
theorem compare_biasedExp {leftLength leftScale rightLength rightScale : Nat}
    (leftFits : leftScale ≤ 255) (rightFits : rightScale ≤ 255)
    : compare (leftLength + 1024 - leftScale) (rightLength + 1024 - rightScale)
      = compare (leftLength + rightScale) (rightLength + leftScale) := by
  have below : leftLength + 1024 - leftScale < rightLength + 1024 - rightScale
    ↔ leftLength + rightScale < rightLength + leftScale := by omega
  have above : rightLength + 1024 - rightScale < leftLength + 1024 - leftScale
    ↔ rightLength + leftScale < leftLength + rightScale := by omega
  simp [Nat.compare_eq_ite_lt, below, above]

/-- The biased position of the point fits two bytes. -/
theorem FitsDecimal.biasedExp_lt {normal : Int × Nat} (fits : FitsDecimal normal)
    : (digitBytes normal.1.natAbs).length + 1024 - normal.2 < 256 ^ 2 := by
  have length := length_digitBytes_le fits.number
  omega

/-- Inverting the bytes turns the order around, unless one list goes on after the other. -/
theorem compare_map_inverted_iff (left right : List UInt8)
    : compare (left.map fun byte => 255 - byte) (right.map fun byte => 255 - byte)
      = (compare left right).swap ↔ ¬ (left ≠ right ∧ (left <+: right ∨ right <+: left)) := by
  cases related left right with
  | same equal =>
    rw [equal]
    simp
  | shorter next rest extended =>
    rw [extended, map_append, map_cons, compare_extension, compare_extension]
    simp
  | longer next rest extended =>
    rw [extended, map_append, map_cons, extension_compare, extension_compare]
    simp
  | diverging common first second leftRest rightRest different isLeft isRight =>
    have apart : 255 - first ≠ 255 - second := by
      intro same
      have compared := compare_inverted first second
      rw [same, compare_self] at compared
      have equal : compare first second = .eq := by
        cases outcome : compare first second <;> rw [outcome] at compared <;> first
          | rfl
          | cases compared
      exact different (Std.compare_eq_iff_eq.mp equal)
    rw [isLeft, isRight, map_append, map_append, map_cons, map_cons,
      compare_diverging _ apart, compare_diverging _ different, compare_inverted]
    simp [different, Ne.symm different]

-- The order of the keys

/-- The position of the point and the digits of two decimals, compared. -/
def compareDigits : Ordering :=
  (compare ((digitBytes left.1.natAbs).length + right.2)
    ((digitBytes right.1.natAbs).length + left.2)).then
    (compare (digitBytes left.1.natAbs) (digitBytes right.1.natAbs))

variable {left right : Int × Nat}

section

variable (leftFits : FitsDecimal left) (rightFits : FitsDecimal right)
include leftFits rightFits

/-- Decimals of one sign compare by their digits. -/
theorem compareNormal_of_sign (leftNonzero : left.1 ≠ 0) (rightNonzero : right.1 ≠ 0)
    (signs : left.1 < 0 ↔ right.1 < 0)
    : compareNormal left right
      = if left.1 < 0 then (compareDigits left right).swap else compareDigits left right := by
  have digits := compareDecimalMagnitude_digits (Int.natAbs_ne_zero.mpr leftNonzero)
    (Int.natAbs_ne_zero.mpr rightNonzero) leftFits.isNormal.natAbs rightFits.isNormal.natAbs
  rw [compareNormal]
  split
  next same =>
    rw [same, compareDigits, compare_self, compare_self]
    split <;> rfl
  rw [if_neg (by simp [signs])]
  dsimp only
  rw [digits]
  rfl

/-- Positive keys are ordered by the position of the point and then by the digits. -/
theorem compare_positiveKeys (leftPositive : 0 < left.1) (rightPositive : 0 < right.1)
    : compare (decimalKey left) (decimalKey right) = compareDigits left right := by
  simp only [decimalKey]
  rw [if_neg (by omega), if_neg (by omega), if_neg (by omega), if_neg (by omega),
    List.compare_cons_cons, compare_append (by simp), compare_beBytes 2 leftFits.biasedExp_lt
    rightFits.biasedExp_lt, compare_biasedExp leftFits.scale rightFits.scale]
  rfl

/-- Negative keys are ordered by the inverted position and then by the inverted digits. -/
theorem compare_negativeKeys (leftNegative : left.1 < 0) (rightNegative : right.1 < 0)
    : compare (decimalKey left) (decimalKey right)
      = (compare ((digitBytes left.1.natAbs).length + right.2)
        ((digitBytes right.1.natAbs).length + left.2)).swap.then
        (compare ((digitBytes left.1.natAbs).map fun byte => 255 - byte)
          ((digitBytes right.1.natAbs).map fun byte => 255 - byte)) := by
  have leftSmall := leftFits.biasedExp_lt
  have rightSmall := rightFits.biasedExp_lt
  simp only [decimalKey]
  rw [if_neg (by omega), if_pos leftNegative, if_neg (by omega), if_pos rightNegative,
    List.compare_cons_cons, compare_append (by simp), compare_beBytes 2 (by omega) (by omega),
    compare_complement (by omega) (by omega), compare_biasedExp leftFits.scale rightFits.scale]
  rfl

/-- The keys of two negative decimals. -/
theorem compare_negativeKeys_iff (leftNegative : left.1 < 0) (rightNegative : right.1 < 0)
    : compare (decimalKey left) (decimalKey right) = (compareDigits left right).swap
      ↔ ¬ NegativeContinued left right := by
  rw [compare_negativeKeys leftFits rightFits leftNegative rightNegative, compareDigits,
    NegativeContinued, and_iff_right leftNegative, and_iff_right rightNegative, ← Nat.compare_eq_eq]
  generalize compare ((digitBytes left.1.natAbs).length + right.2)
    ((digitBytes right.1.natAbs).length + left.2) = position
  cases position with
  | lt | gt => simp
  | eq =>
    rw [Ordering.eq_then, and_iff_right rfl, ← compare_map_inverted_iff]
    rfl

end

/-- The byte for the sign of a decimal. -/
def signByte (scaled : Int) : UInt8 := if scaled = 0 then 1 else if scaled < 0 then 0 else 2

/-- A key begins with the byte of the sign. -/
theorem decimalKey_sign (normal : Int × Nat)
    : ∃ rest, decimalKey normal = signByte normal.1 :: rest := by
  simp only [decimalKey, signByte]
  split
  · exact ⟨[], rfl⟩
  split
  · exact ⟨_, rfl⟩
  · exact ⟨_, rfl⟩

/-- The sign tells which of two decimals is the smaller one. -/
theorem decimalValue_lt_of_sign (less : signByte left.1 < signByte right.1)
    : decimalValue left < decimalValue right := by
  have signs : left.1 < 0 ∧ 0 ≤ right.1 ∨ left.1 ≤ 0 ∧ 0 < right.1 := by
    simp only [signByte] at less
    split at less <;> split at less <;> (try split at less) <;> (try split at less)
    all_goals first | omega | exact absurd less (by decide)
  rcases signs with ⟨negative, nonneg⟩ | ⟨nonpos, positive⟩
  · exact (decimalValue_neg negative).trans_le (decimalValue_nonneg nonneg)
  · have below : decimalValue left ≤ 0 :=
      div_nonpos_of_nonpos_of_nonneg (by exact_mod_cast nonpos) (by positivity)
    exact below.trans_lt (div_pos (by exact_mod_cast positive) (by positivity))

/-- Decimals of different signs compare by them. -/
theorem compareNormal_of_signs (different : signByte left.1 ≠ signByte right.1)
    : compareNormal left right = compare (signByte left.1) (signByte right.1) := by
  rw [compareNormal_value]
  rcases UInt8.lt_or_lt_of_ne different with less | greater
  · rw [Std.compare_eq_lt.mpr less, compare_lt_iff_lt.mpr (decimalValue_lt_of_sign less)]
  · rw [Std.compare_eq_gt.mpr greater, compare_gt_iff_gt.mpr (decimalValue_lt_of_sign greater)]

/-- Zero has one normal form. -/
theorem eq_of_zero (leftNormal : IsNormal left) (rightNormal : IsNormal right)
    (leftZero : left.1 = 0) (rightZero : right.1 = 0)
    : left = right := by
  have scale {decimal : Int × Nat} (normal : IsNormal decimal) (zero : decimal.1 = 0)
    : decimal.2 = 0 :=
    normal.resolve_right fun ends => ends (zero ▸ Int.dvd_zero 10)
  exact Prod.ext (leftZero.trans rightZero.symm)
    ((scale leftNormal leftZero).trans (scale rightNormal rightZero).symm)

/-- Keys of one sign that are not both negative are ordered like the decimals. -/
theorem compare_decimalKey_of_sign (leftFits : FitsDecimal left) (rightFits : FitsDecimal right)
    (signs : signByte left.1 = signByte right.1) (notNegative : ¬ (left.1 < 0 ∧ right.1 < 0))
    : compare (decimalKey left) (decimalKey right) = compareNormal left right := by
  have sameSign : (left.1 = 0 ↔ right.1 = 0) ∧ (left.1 < 0 ↔ right.1 < 0) := by
    simp only [signByte] at signs
    split at signs <;> split at signs <;> (try split at signs) <;> (try split at signs)
    all_goals first | omega | exact absurd signs (by decide)
  by_cases leftZero : left.1 = 0
  · have same := eq_of_zero leftFits.isNormal rightFits.isNormal leftZero (sameSign.1.mp leftZero)
    rw [same, compare_self, compareNormal, if_pos rfl]
  · rw [compareNormal_of_sign leftFits rightFits leftZero (by omega) sameSign.2,
      if_neg (by omega), compare_positiveKeys leftFits rightFits (by omega) (by omega)]

/-- The keys of decimals in normal form sort like the decimals, but for negative ones where
the digits of one go on after those of the other.
-/
theorem compare_decimalKey_iff (leftFits : FitsDecimal left) (rightFits : FitsDecimal right)
    : compare (decimalKey left) (decimalKey right) = compareNormal left right
      ↔ ¬ NegativeContinued left right := by
  by_cases negative : left.1 < 0 ∧ right.1 < 0
  · rw [compareNormal_of_sign leftFits rightFits (by omega) (by omega) (by omega),
    if_pos negative.1]
    exact compare_negativeKeys_iff leftFits rightFits negative.1 negative.2
  have notContinued : ¬ NegativeContinued left right :=
  fun continued => negative ⟨continued.1, continued.2.1⟩
  refine iff_of_true ?_ notContinued
  by_cases signs : signByte left.1 = signByte right.1
  · exact compare_decimalKey_of_sign leftFits rightFits signs negative
  obtain ⟨leftRest, leftKey⟩ := decimalKey_sign left
  obtain ⟨rightRest, rightKey⟩ := decimalKey_sign right
  have decided := compare_diverging [] signs leftRest rightRest
  rw [leftKey, rightKey, compareNormal_of_signs signs]
  exact decided

end DecentDb.Record
