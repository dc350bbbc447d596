import DecentDb.Record.DecimalOrder
import DecentDb.Record.Value
import Mathlib.Algebra.Order.Round
import Mathlib.Data.Multiset.Lattice
import Mathlib.Data.Rat.Floor
import Mathlib.Order.Lattice.Nat
import Mathlib.Tactic.Linarith

/-! The arithmetic of decimals and the sums of their aggregates. Results are exact, and quotients
and averages are rounded. The overflow is returned where no decimal has the result, but also where
a value on the way to it leaves the integers of 128 bits.
-/

namespace DecentDb.Exec

open Record

-- The source

def overflow : DbError := .sql "DECIMAL arithmetic overflow"

abbrev InI128 (number : Int) : Prop := -2 ^ 127 ≤ number ∧ number < 2 ^ 127

/-- The result of an operation of `i128` that is checked. -/
def checked (number : Int) : DbResult Int :=
  if InI128 number then .ok number else .error overflow

def rescale (scaled : Int) (scale target : Nat) : DbResult Int :=
  if scaled = 0 then .ok 0
  else do
    let factor ← checked (10 ^ (target - scale))
    checked (scaled * factor)

def result (scaled : Int) (scale : Nat) : DbResult Value :=
  let normal := normalizeDecimal scaled scale
  if -2 ^ 63 ≤ normal.1 ∧ normal.1 < 2 ^ 63 ∧ normal.2 < 256 then
    .ok (.decimal (Int64.ofInt normal.1) (UInt8.ofNat normal.2))
  else .error overflow

def roundUp (quotient step : Int) (half : Prop) [Decidable half] : DbResult Int :=
  if half then checked (quotient + step) else .ok quotient

structure DecimalSum where
  scaled : Int
  scale : Nat

namespace DecimalSum

def add (sum : DecimalSum) (decimal : Int64 × UInt8) : DbResult DecimalSum := do
  let target := max sum.scale decimal.2.toNat
  let current ← rescale sum.scaled sum.scale target
  let addend ← rescale decimal.1.toInt decimal.2.toNat target
  let scaled ← checked (current + addend)
  .ok ⟨scaled, target⟩

def sum (sum : DecimalSum) : DbResult Value := result sum.scaled sum.scale

def average (sum : DecimalSum) (count : Int64) : DbResult Value := do
  let scale := max sum.scale 6
  let factor ← checked (10 ^ (scale - sum.scale))
  let divisor := count.toInt
  let whole ← checked (sum.scaled.tdiv divisor * factor)
  let fractional ← checked (sum.scaled.tmod divisor * factor)
  let quotient ← checked (whole + fractional.tdiv divisor)
  let quotient ← roundUp quotient (if sum.scaled < 0 then -1 else 1)
    (divisor.natAbs ≤ (fractional.tmod divisor).natAbs * 2)
  result quotient scale

end DecimalSum

inductive ArithmeticOp where
  | add
  | sub
  | mul
  | div
  | mod
  deriving DecidableEq

variable (op : ArithmeticOp) (left right : Int64 × UInt8)

/-- The quotient and the remainder of `i128` overflow together, if the quotient does. -/
def arithmetic : DbResult Value :=
  let leftScale := left.2.toNat
  let rightScale := right.2.toNat
  if (op = .div ∨ op = .mod) ∧ right.1.toInt = 0 then .ok .null
  else match op with
  | .mul => result (left.1.toInt * right.1.toInt) (leftScale + rightScale)
  | .div => do
    let scale := max (max leftScale rightScale) 6
    let numerator ← rescale left.1.toInt 0 (scale + rightScale - leftScale)
    let divisor := right.1.toInt
    let quotient ← checked (numerator.tdiv divisor)
    let quotient ← roundUp quotient
      (if decide (numerator < 0) = decide (divisor < 0) then 1 else -1)
      (divisor.natAbs ≤ (numerator.tmod divisor).natAbs * 2)
    result quotient scale
  | op => do
    let scale := max leftScale rightScale
    let left ← rescale left.1.toInt leftScale scale
    let right ← rescale right.1.toInt rightScale scale
    match op with
    | .add => checked (left + right) >>= (result · scale)
    | .sub => checked (left - right) >>= (result · scale)
    | _ => checked (left.tdiv right) >>= fun _ => result (left.tmod right) scale

-- What is exact

/-- Rounded to an integer, halves away from zero. -/
def roundHalfAway (number : ℚ) : ℤ := if number < 0 then -round (-number) else round number

def roundAt (scale : Nat) (number : ℚ) : ℚ := roundHalfAway (number * 10 ^ scale) / 10 ^ scale

/-- The remainder with the sign of the dividend. -/
def remainder (dividend divisor : ℚ) : ℚ :=
  dividend - divisor * if dividend / divisor < 0 then ⌈dividend / divisor⌉ else ⌊dividend / divisor⌋

def ArithmeticOp.exact : ℚ :=
  let leftValue := storedValue left
  let rightValue := storedValue right
  match op with
  | .add => leftValue + rightValue
  | .sub => leftValue - rightValue
  | .mul => leftValue * rightValue
  | .div => roundAt (max (max left.2.toNat right.2.toNat) 6) (leftValue / rightValue)
  | .mod => remainder leftValue rightValue

/-- The exact value is returned, or no decimal has it. -/
def Returns (returned : DbResult Value) (exact : ℚ) : Prop :=
  (∃ decimal, returned = .ok (.decimal decimal.1 decimal.2) ∧ storedValue decimal = exact)
    ∨ returned = .error overflow ∧ ∀ decimal, storedValue decimal ≠ exact

/-- So it is if the values on the way fit; otherwise the overflow is returned. -/
structure Exact (fits : Prop) (returned : DbResult Value) (exact : ℚ) : Prop where
  returns : fits → Returns returned exact
  overflows : ¬fits → returned = .error overflow

variable {returned : DbResult Value} {exact : ℚ} {fits : Prop} {scaled number : Int}
  {scale target : Nat} {next : Int → DbResult Value}

/-- The value is right exactly if the values on the way fit or no decimal has it. -/
theorem Exact.returns_iff (exactly : Exact fits returned exact)
    : Returns returned exact ↔ fits ∨ ∀ decimal, storedValue decimal ≠ exact := by
  by_cases inside : fits
  · exact iff_of_true (exactly.returns inside) (.inl inside)
  have failed := exactly.overflows inside
  constructor
  · rintro (⟨decimal, found, -⟩ | ⟨-, none⟩)
    · cases failed.symm.trans found
    · exact .inr none
  · rintro (absurdly | none)
    · exact absurd absurdly inside
    · exact .inr ⟨failed, none⟩

/-- The last step normalizes the scaled integer and narrows it. -/
theorem result_returns (scaled : Int) (scale : Nat)
    : Returns (result scaled scale) (decimalValue (scaled, scale)) := by
  have value := decimalValue_normalizeDecimal scaled scale
  rw [result]
  split
  next fits =>
    refine .inl ⟨(.ofInt (normalizeDecimal scaled scale).1,
      .ofNat (normalizeDecimal scaled scale).2),
      rfl, ?_⟩
    rw [← value, storedValue, Int64.toInt_ofInt_of_le fits.1 fits.2.1,
      UInt8.toNat_ofNat_of_lt' fits.2.2]
  next wide =>
    refine .inr ⟨rfl, fun decimal same => wide ?_⟩
    have normal := (normalizeDecimal_isNormal scaled scale).eq_of_value
      (normalizeDecimal_isNormal decimal.1.toInt decimal.2.toNat)
      (by rw [value, decimalValue_normalizeDecimal, ← same, storedValue])
    have bounds := normalizeDecimal_bounds decimal.2.toNat ⟨decimal.1.le_toInt, decimal.1.toInt_lt⟩
    have small := decimal.2.toNat_lt
    rw [normal]
    omega

-- Checked steps

/-- What fits may be said in other words. -/
theorem Exact.congr {other : Prop} (exactly : Exact fits returned exact) (same : other ↔ fits)
    : Exact other returned exact :=
  ⟨fun inside => exactly.returns (same.mp inside),
    fun outside => exactly.overflows fun inside => outside (same.mpr inside)⟩

/-- Where nothing is checked, everything fits. -/
theorem Exact.of_returns (returns : Returns returned exact) : Exact True returned exact :=
  ⟨fun _ => returns, fun outside => absurd trivial outside⟩

/-- A checked value is one more that has to fit. -/
theorem Exact.checked_bind (rest : Exact fits (next number) exact)
    : Exact (InI128 number ∧ fits) (checked number >>= next) exact := by
  by_cases inside : InI128 number
  · rw [checked, if_pos inside, ok_bind]
    exact rest.congr (and_iff_right inside)
  · rw [checked, if_neg inside]
    exact ⟨fun all => absurd all.1 inside, fun _ => rfl⟩

/-- The power of ten fits if its product with a number does. -/
theorem factor_fits (nonzero : scaled ≠ 0) {count : Nat} (fits : InI128 (scaled * 10 ^ count))
    : InI128 (10 ^ count) := by
  have positive : (0 : Int) < 10 ^ count := by positivity
  refine ⟨by omega, ?_⟩
  by_contra large
  -- the power is above the bound, and so is its product
  have high : 39 ≤ count := by
    by_contra low
    have := pow_le_pow_right₀ (show (1 : Int) ≤ 10 by decide) (show count ≤ 38 by omega)
    omega
  have power := pow_le_pow_right₀ (show (1 : Int) ≤ 10 by decide) high
  rcases lt_or_gt_of_ne nonzero with negative | isPositive
  · nlinarith [fits.1]
  · nlinarith [fits.2]

/-- Bringing a number to a larger scale checks the product; zero has every scale. -/
theorem Exact.rescale_bind (rest : Exact fits (next (scaled * 10 ^ (target - scale))) exact)
    : Exact (InI128 (scaled * 10 ^ (target - scale)) ∧ fits)
      (rescale scaled scale target >>= next) exact := by
  rw [rescale]
  split
  next zero =>
    rw [zero, zero_mul] at rest ⊢
    exact rest.congr (and_iff_right (by decide))
  next nonzero =>
    by_cases factor : InI128 (10 ^ (target - scale))
    · rw [checked, if_pos factor, ok_bind]
      exact rest.checked_bind
    · rw [checked, if_neg factor]
      exact ⟨fun all => absurd (factor_fits nonzero all.1) factor, fun _ => rfl⟩

/-- A checked scaled integer is normalized and narrowed. -/
theorem Exact.checked_result (value : decimalValue (number, scale) = exact)
    : Exact (InI128 number) (checked number >>= (result · scale)) exact := by
  have returns := result_returns number scale
  rw [value] at returns
  exact (Exact.of_returns returns).checked_bind.congr (and_iff_left trivial).symm

-- Quotients

/-- A number as its integer part and the rest, with the sign of the number. -/
structure Split (number : ℚ) (quotient : Int) (fraction : ℚ) : Prop where
  value : number = quotient + fraction
  small : |fraction| < 1
  nonneg : 0 ≤ number → 0 ≤ fraction
  nonpos : number ≤ 0 → fraction ≤ 0

section

variable {number : ℚ} {quotient dividend divisor : Int} {fraction : ℚ}

/-- Truncating division splits a fraction. -/
theorem Split.of_tdiv (dividend : Int) (nonzero : divisor ≠ 0)
    : Split (dividend / divisor) (dividend.tdiv divisor) (dividend.tmod divisor / divisor) := by
  have nonzero' : (divisor : ℚ) ≠ 0 := by exact_mod_cast nonzero
  have whole : (dividend : ℚ) = divisor * dividend.tdiv divisor + dividend.tmod divisor := by
    exact_mod_cast (Int.mul_tdiv_add_tmod dividend divisor).symm
  have tmod_nonpos (below : dividend ≤ 0) : dividend.tmod divisor ≤ 0 := by
    have nonneg := Int.tmod_nonneg divisor (neg_nonneg.mpr below)
    rw [Int.neg_tmod] at nonneg
    omega
  refine ⟨?_, ?_, fun nonneg => ?_, fun nonpos => ?_⟩
  · rw [whole]
    field_simp
  · rw [abs_div, div_lt_one (abs_pos.mpr nonzero')]
    have small : |dividend.tmod divisor| < |divisor| := by
      rw [Int.abs_eq_natAbs, Int.abs_eq_natAbs, Int.natAbs_tmod]
      exact_mod_cast Nat.mod_lt _ (Int.natAbs_pos.mpr nonzero)
    exact_mod_cast small
  · rcases div_nonneg_iff.mp nonneg with ⟨above, positive⟩ | ⟨below, negative⟩
    · exact div_nonneg (by exact_mod_cast Int.tmod_nonneg divisor (by exact_mod_cast above))
        positive
    · exact div_nonneg_of_nonpos (by exact_mod_cast tmod_nonpos (by exact_mod_cast below)) negative
  · rcases div_nonpos_iff.mp nonpos with ⟨above, negative⟩ | ⟨below, positive⟩
    · exact div_nonpos_of_nonneg_of_nonpos
        (by exact_mod_cast Int.tmod_nonneg divisor (by exact_mod_cast above)) negative
    · exact div_nonpos_of_nonpos_of_nonneg
        (by exact_mod_cast tmod_nonpos (by exact_mod_cast below)) positive

/-- The integer part is the number cut off toward zero. -/
theorem Split.truncated (parts : Split number quotient fraction)
    : (if number < 0 then ⌈number⌉ else ⌊number⌋) = quotient := by
  have bounds := abs_lt.mp parts.small
  have value := parts.value
  split
  next negative =>
    have := parts.nonpos negative.le
    rw [Int.ceil_eq_iff]
    constructor <;> linarith
  next nonneg =>
    have := parts.nonneg (not_lt.mp nonneg)
    rw [Int.floor_eq_iff]
    constructor <;> linarith

/-- A number is rounded by its fraction, away from zero if that is at least a half. -/
theorem Split.rounded (parts : Split number quotient fraction)
    : roundHalfAway number = if 1 / 2 ≤ |fraction| then quotient + (if number < 0 then -1 else 1)
      else quotient := by
  have bounds := abs_lt.mp parts.small
  have value := parts.value
  rw [roundHalfAway]
  split
  next negative =>
    have sign := parts.nonpos negative.le
    rw [abs_of_nonpos sign, neg_eq_iff_eq_neg, round_eq, Int.floor_eq_iff]
    split <;> push_cast <;> constructor <;> linarith
  next nonneg =>
    have sign := parts.nonneg (not_lt.mp nonneg)
    rw [abs_of_nonneg sign, round_eq, Int.floor_eq_iff]
    split <;> push_cast <;> constructor <;> linarith

/-- The quotient is divided first, and the scaled remainder then. -/
theorem Split.of_scaled (dividend : Int) {factor : Int} (scaled : 0 < factor)
    (positive : 0 < divisor)
    : Split (dividend / divisor * factor)
      (dividend.tdiv divisor * factor + (dividend.tmod divisor * factor).tdiv divisor)
      ((dividend.tmod divisor * factor).tmod divisor / divisor) := by
  have first := Split.of_tdiv dividend positive.ne'
  have second := Split.of_tdiv (dividend.tmod divisor * factor) positive.ne'
  have isPositive : (0 : ℚ) < factor := by exact_mod_cast scaled
  have product : ((dividend.tmod divisor * factor : Int) : ℚ) / divisor
      = dividend.tmod divisor / divisor * factor := by
    rw [Int.cast_mul]
    ring
  refine ⟨?_, second.small, fun nonneg => second.nonneg ?_, fun nonpos => second.nonpos ?_⟩
  · rw [Int.cast_add, add_assoc, ← second.value, product, Int.cast_mul, ← add_mul, ← first.value]
  · rw [product]
    exact mul_nonneg (first.nonneg (nonneg_of_mul_nonneg_left nonneg isPositive)) isPositive.le
  · rw [product]
    exact mul_nonpos_of_nonpos_of_nonneg
      (first.nonpos (nonpos_of_mul_nonpos_left nonpos isPositive)) isPositive.le

/-- The test for a half, on the remainder. -/
theorem half_le_iff (nonzero : divisor ≠ 0) (rest : Int)
    : 1 / 2 ≤ |(rest / divisor : ℚ)| ↔ divisor.natAbs ≤ rest.natAbs * 2 := by
  have positive : (0 : ℚ) < |(divisor : ℚ)| := abs_pos.mpr (by exact_mod_cast nonzero)
  rw [abs_div, le_div_iff₀ positive, ← Int.cast_abs, ← Int.cast_abs, Int.abs_eq_natAbs,
    Int.abs_eq_natAbs, Int.cast_natCast, Int.cast_natCast, one_div_mul_eq_div,
    div_le_iff₀ (by decide)]
  exact_mod_cast Iff.rfl

/-- The signs tell in which direction is away from zero. -/
theorem step_of_signs (divisorNonzero : divisor ≠ 0) (nonzero : dividend ≠ 0)
    : (if decide (dividend < 0) = decide (divisor < 0) then 1 else -1)
      = if (dividend / divisor : ℚ) < 0 then -1 else (1 : Int) := by
  rcases lt_or_gt_of_ne divisorNonzero with below | above <;>
    rcases lt_or_gt_of_ne nonzero with negative | positive <;>
    simp [div_neg_iff, *, not_lt.mpr, le_of_lt]

/-- A quotient is checked before and after it is rounded. -/
theorem Exact.quotient_bind (parts : Split number quotient fraction) {half : Prop} [Decidable half]
    (isHalf : 1 / 2 ≤ |fraction| ↔ half) {step : Int}
    (signed : half → step = if number < 0 then -1 else 1)
    (value : (roundHalfAway number : ℚ) / 10 ^ scale = exact)
    : Exact (InI128 quotient ∧ InI128 (roundHalfAway number))
      (checked quotient >>= fun quotient => roundUp quotient step half >>= (result · scale))
      exact := by
  have rounded := parts.rounded
  by_cases up : half
  · rw [if_pos (isHalf.mpr up), ← signed up] at rounded
    simp only [roundUp, if_pos up]
    rw [rounded] at value ⊢
    exact (Exact.checked_result value).checked_bind
  · rw [if_neg fun large => up (isHalf.mp large)] at rounded
    simp only [roundUp, if_neg up, ok_bind]
    rw [rounded] at value ⊢
    exact (Exact.checked_result value).congr (and_self_iff ..)

end

-- The operations

/-- The values on the way that are checked. -/
def ArithmeticOp.Fits : Prop :=
  let scale := max left.2.toNat right.2.toNat
  let leftScaled := left.1.toInt * 10 ^ (scale - left.2.toNat)
  let rightScaled := right.1.toInt * 10 ^ (scale - right.2.toNat)
  let numerator := left.1.toInt * 10 ^ (max scale 6 + right.2.toNat - left.2.toNat)
  match op with
  | .add => InI128 leftScaled ∧ InI128 rightScaled ∧ InI128 (leftScaled + rightScaled)
  | .sub => InI128 leftScaled ∧ InI128 rightScaled ∧ InI128 (leftScaled - rightScaled)
  | .mul => True
  | .div => InI128 numerator ∧ InI128 (numerator.tdiv right.1.toInt)
    ∧ InI128 (roundHalfAway (numerator / right.1.toInt))
  | .mod => InI128 leftScaled ∧ InI128 rightScaled ∧ InI128 (leftScaled.tdiv rightScaled)

/-- A larger scale does not change the number. -/
theorem decimalValue_rescaled (scaled : Int) (enough : scale ≤ target)
    : decimalValue (scaled, scale) = decimalValue (scaled * 10 ^ (target - scale), target) := by
  obtain ⟨more, rfl⟩ := Nat.exists_eq_add_of_le enough
  rw [decimalValue, decimalValue, Nat.add_sub_cancel_left, pow_add]
  push_cast
  field_simp

variable {op left right}

/-- The scaled quotient of two decimals is one of two integers. -/
theorem storedValue_quotient (nonzero : right.1.toInt ≠ 0)
    (enough : left.2.toNat ≤ scale + right.2.toNat)
    : storedValue left / storedValue right * 10 ^ scale
      = ((left.1.toInt * 10 ^ (scale + right.2.toNat - left.2.toNat) : Int) : ℚ)
        / right.1.toInt := by
  obtain ⟨more, isMore⟩ := Nat.exists_eq_add_of_le enough
  have power : (10 : ℚ) ^ scale * 10 ^ right.2.toNat = 10 ^ left.2.toNat * 10 ^ more := by
    rw [← pow_add, isMore, pow_add]
  have isNonzero : (right.1.toInt : ℚ) ≠ 0 := by exact_mod_cast nonzero
  rw [isMore, Nat.add_sub_cancel_left, storedValue, storedValue, decimalValue, decimalValue]
  push_cast
  field_simp
  rw [mul_assoc, mul_comm (10 ^ right.2.toNat), power, mul_assoc]

/-- At one scale the remainder of the numbers is that of the integers. -/
theorem remainder_scaled {dividend divisor : Int} (scale : Nat) (nonzero : divisor ≠ 0)
    : remainder (decimalValue (dividend, scale)) (decimalValue (divisor, scale))
      = decimalValue (dividend.tmod divisor, scale) := by
  have truncated := (Split.of_tdiv dividend nonzero).truncated
  have whole : (dividend : ℚ) = divisor * dividend.tdiv divisor + dividend.tmod divisor := by
    exact_mod_cast (Int.mul_tdiv_add_tmod dividend divisor).symm
  rw [remainder, decimalValue, decimalValue, div_div_div_cancel_right₀ (by positivity), truncated,
    div_mul_eq_mul_div, ← sub_div, sub_eq_of_eq_add' whole]
  rfl

/-- Every operation checks exactly the values that have to fit. -/
theorem arithmetic_exact (defined : (op = .div ∨ op = .mod) → right.1.toInt ≠ 0)
    : Exact (op.Fits left right) (arithmetic op left right) (op.exact left right) := by
  have leftValue : storedValue left = _ :=
    decimalValue_rescaled _ (le_max_left left.2.toNat right.2.toNat)
  have rightValue : storedValue right = _ :=
    decimalValue_rescaled _ (le_max_right left.2.toNat right.2.toNat)
  unfold arithmetic
  rw [if_neg fun undefined => defined undefined.1 undefined.2]
  cases op with
  | add =>
    refine .rescale_bind (.rescale_bind (.checked_result ?_))
    rw [ArithmeticOp.exact, leftValue, rightValue, decimalValue, Int.cast_add, add_div]
    rfl
  | sub =>
    refine .rescale_bind (.rescale_bind (.checked_result ?_))
    rw [ArithmeticOp.exact, leftValue, rightValue, decimalValue, Int.cast_sub, sub_div]
    rfl
  | mul =>
    have returns := result_returns (left.1.toInt * right.1.toInt) (left.2.toNat + right.2.toNat)
    rw [decimalValue, pow_add, Int.cast_mul, ← div_mul_div_comm] at returns
    exact .of_returns returns
  | div =>
    have nonzero := defined (.inl rfl)
    refine .rescale_bind (.quotient_bind (.of_tdiv _ nonzero) (half_le_iff nonzero _)
      (fun half => step_of_signs nonzero fun zero => ?_) ?_)
    · rw [zero, Int.zero_tmod] at half
      exact nonzero (Int.natAbs_eq_zero.mp (Nat.le_zero.mp half))
    · rw [← storedValue_quotient nonzero (by omega)]
      rfl
  | mod =>
    refine .rescale_bind (.rescale_bind (.congr (.checked_bind (.of_returns ?_))
      (and_iff_left trivial).symm))
    rw [ArithmeticOp.exact, leftValue, rightValue,
      remainder_scaled _ (mul_ne_zero (defined (.inr rfl)) (by positivity))]
    exact result_returns _ _

-- The sums

namespace DecimalSum

/-- The values on the way of the adds that are checked, and what is asked of the sum then. -/
def Fits (last : DecimalSum → Prop) : DecimalSum → List (Int64 × UInt8) → Prop
  | sum, [] => last sum
  | sum, decimal :: rest =>
    let target := max sum.scale decimal.2.toNat
    let current := sum.scaled * 10 ^ (target - sum.scale)
    let addend := decimal.1.toInt * 10 ^ (target - decimal.2.toNat)
    InI128 current ∧ InI128 addend ∧ InI128 (current + addend)
      ∧ Fits last ⟨current + addend, target⟩ rest

def AverageFits (count : Int64) (sum : DecimalSum) : Prop :=
  let factor := 10 ^ (max sum.scale 6 - sum.scale)
  let fractional := sum.scaled.tmod count.toInt * factor
  let whole := sum.scaled.tdiv count.toInt * factor
  InI128 whole ∧ InI128 fractional ∧ InI128 (whole + fractional.tdiv count.toInt)
    ∧ InI128 (roundHalfAway (sum.scaled / count.toInt * factor))

end DecimalSum

/-- The largest scale, which does not depend on the order. -/
def scaleOf (decimals : Multiset (Int64 × UInt8)) : Nat := (decimals.map (·.2.toNat)).sup

def valueOf (decimals : Multiset (Int64 × UInt8)) : ℚ := (decimals.map storedValue).sum

/-- Adds keep the exact sum at the largest scale, by induction on the decimals. -/
theorem adds_bind {last : DecimalSum → Prop} {program : DecimalSum → DbResult Value}
    (decimals : List (Int64 × UInt8)) (sum : DecimalSum)
    (finish : ∀ final : DecimalSum, final.scale = max sum.scale (scaleOf decimals)
      → decimalValue (final.scaled, final.scale)
        = decimalValue (sum.scaled, sum.scale) + valueOf decimals
      → Exact (last final) (program final) exact)
    : Exact (sum.Fits last decimals) (decimals.foldlM DecimalSum.add sum >>= program) exact := by
  induction decimals generalizing sum with
  | nil => exact finish sum (by simp [scaleOf]) (by simp [valueOf])
  | cons decimal rest ih =>
    simp only [List.foldlM_cons, bind_assoc, DecimalSum.add, ok_bind]
    refine .rescale_bind (.rescale_bind (.checked_bind (ih _ fun final isScale value =>
      finish final ?_ ?_)))
    · simpa [scaleOf, max_assoc] using isScale
    · have before := decimalValue_rescaled sum.scaled (le_max_left sum.scale decimal.2.toNat)
      have added : storedValue decimal = _ :=
        decimalValue_rescaled _ (le_max_right sum.scale decimal.2.toNat)
      simp only [valueOf, ← Multiset.cons_coe, Multiset.map_cons, Multiset.sum_cons] at value ⊢
      rw [value, before, added, ← add_assoc]
      congr 1
      rw [decimalValue, decimalValue, decimalValue, Int.cast_add, add_div]

/-- An average divides first and scales the remainder then. -/
theorem average_exact {sum : DecimalSum} {count : Int64} (positive : 0 < count.toInt)
    : Exact (sum.AverageFits count) (sum.average count)
      (roundAt (max sum.scale 6) (decimalValue (sum.scaled, sum.scale) / count.toInt)) := by
  have small : InI128 (10 ^ (max sum.scale 6 - sum.scale)) := by
    have := pow_le_pow_right₀ (show (1 : Int) ≤ 10 by decide)
      (show max sum.scale 6 - sum.scale ≤ 6 by omega)
    have := pow_pos (show (0 : Int) < 10 by decide) (max sum.scale 6 - sum.scale)
    omega
  refine (Exact.checked_bind (.checked_bind (.checked_bind (.quotient_bind
    (.of_scaled sum.scaled (by positivity) positive) (half_le_iff positive.ne' _) (fun _ => ?_)
    ?_)))).congr (and_iff_right small).symm
  · have above : (0 : ℚ) < count.toInt := by exact_mod_cast positive
    congr 1
    rw [div_mul_eq_mul_div, div_neg_iff]
    have power : (0 : ℚ) < 10 ^ (max sum.scale 6 - sum.scale) := by positivity
    simp [above, mul_neg_iff, not_lt.mpr positive.le, power, not_lt.mpr power.le]
  · obtain ⟨more, isMore⟩ := Nat.exists_eq_add_of_le (le_max_left sum.scale 6)
    rw [roundAt, decimalValue]
    congr 3
    rw [isMore, Nat.add_sub_cancel_left, pow_add]
    push_cast
    field_simp

end DecentDb.Exec
