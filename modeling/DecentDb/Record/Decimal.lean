import DecentDb.Error
import DecentDb.Identifiers
import Mathlib.Data.Nat.Digits.Lemmas

/-! Decimals: their normal form, their order and how they are read from a text. A decimal is
a scaled integer and the number of its fractional digits.
-/

namespace DecentDb.Record

-- Normal form and order

/-- Drops trailing zeros as long as there are fractional digits. -/
def stripZeros : Nat → Int → Int × Nat
  | 0, scaled => (scaled, 0)
  | scale + 1, scaled =>
    if scaled.tmod 10 = 0 then stripZeros scale (scaled.tdiv 10) else (scaled, scale + 1)

def normalizeDecimal (scaled : Int) (scale : Nat) : Int × Nat :=
  if scaled = 0 then (0, 0) else stripZeros scale scaled

/-- The ASCII digits of a positive number. -/
def digitBytes (number : Nat) : List UInt8 :=
  (Nat.digits 10 number).reverse.map fun digit => UInt8.ofNat (48 + digit)

/-- The digits with zeros appended up to the width. -/
def padDigits (width : Nat) (digits : List UInt8) : List UInt8 :=
  (digits ++ List.replicate width 48).take width

/-- The position of the decimal point first, then the significant digits. -/
def compareDecimalMagnitude (leftAbs leftScale rightAbs rightScale : Nat) : Ordering :=
  if leftAbs = 0 ∨ rightAbs = 0 then compare leftAbs rightAbs
  else
    let leftDigits := digitBytes leftAbs
    let rightDigits := digitBytes rightAbs
    let width := max leftDigits.length rightDigits.length
    (compare (leftDigits.length + rightScale) (rightDigits.length + leftScale)).then
      (compare (padDigits width leftDigits) (padDigits width rightDigits))

/-- The order of two decimals in normal form. -/
def compareNormal (left right : Int × Nat) : Ordering :=
  if left = right then .eq
  else if decide (left.1 < 0) ≠ decide (right.1 < 0) then compare left.1 right.1
  else
    let ordering := compareDecimalMagnitude left.1.natAbs left.2 right.1.natAbs right.2
    if left.1 < 0 then ordering.swap else ordering

def compareDecimal (leftScaled : Int) (leftScale : Nat) (rightScaled : Int) (rightScale : Nat)
    : Ordering :=
  compareNormal (normalizeDecimal leftScaled leftScale) (normalizeDecimal rightScaled rightScale)

/-- No trailing zero among the fractional digits. -/
def IsNormal (decimal : Int × Nat) : Prop := decimal.2 = 0 ∨ ¬ (10 : Int) ∣ decimal.1

/-- No trailing zero is left behind the point. -/
theorem stripZeros_isNormal (scale : Nat) (scaled : Int) : IsNormal (stripZeros scale scaled) := by
  induction scale generalizing scaled with
  | zero => exact .inl rfl
  | succ scale ih =>
    rw [stripZeros]
    split
    · exact ih _
    · next kept => exact .inr fun divides => kept (Int.tmod_eq_zero_of_dvd divides)

/-- Normalizing gives a normal form. -/
theorem normalizeDecimal_isNormal (scaled : Int) (scale : Nat)
    : IsNormal (normalizeDecimal scaled scale) := by
  rw [normalizeDecimal]
  split
  · exact .inl rfl
  · exact stripZeros_isNormal scale scaled

variable {decimal : Int × Nat} {scaled : Int} {scan after : DecimalScan}

/-- A normal form has nothing to drop. -/
theorem stripZeros_of_isNormal (normal : IsNormal decimal)
    : stripZeros decimal.2 decimal.1 = decimal := by
  obtain ⟨scaled, scale⟩ := decimal
  cases scale with
  | zero => rfl
  | succ scale =>
    have ends := normal.resolve_left (Nat.succ_ne_zero scale)
    rw [stripZeros, if_neg fun zero => ends (Int.dvd_of_tmod_eq_zero zero)]

/-- What is stripped of zeros lies between zero and the number. -/
theorem stripZeros_bounds (lower upper : Int) (scale : Nat) (scaled : Int) (lowerZero : lower ≤ 0)
    (upperZero : 0 ≤ upper) (bounds : lower ≤ scaled ∧ scaled ≤ upper)
    : lower ≤ (stripZeros scale scaled).1 ∧ (stripZeros scale scaled).1 ≤ upper
      ∧ (stripZeros scale scaled).2 ≤ scale := by
  induction scale generalizing scaled with
  | zero => exact ⟨bounds.1, bounds.2, le_rfl⟩
  | succ scale ih =>
    rw [stripZeros]
    split
    next zero =>
      have quotient : lower ≤ scaled.tdiv 10 ∧ scaled.tdiv 10 ≤ upper := by
        have := Int.tdiv_mul_cancel (Int.dvd_of_tmod_eq_zero zero)
        omega
      obtain ⟨below, above, digits⟩ := ih _ quotient
      exact ⟨below, above, Nat.le_succ_of_le digits⟩
    next => exact ⟨bounds.1, bounds.2, le_rfl⟩

/-- Dropping zeros does not make a number zero. -/
theorem stripZeros_ne_zero {scale : Nat} (nonzero : scaled ≠ 0)
    : (stripZeros scale scaled).1 ≠ 0 := by
  induction scale generalizing scaled with
  | zero => exact nonzero
  | succ scale ih =>
    rw [stripZeros]
    split
    next zero =>
      have := Int.tdiv_mul_cancel (Int.dvd_of_tmod_eq_zero zero)
      exact ih (by omega)
    next => exact nonzero

/-- Normalizing twice is normalizing once. -/
theorem normalizeDecimal_idempotent (scaled : Int) (scale : Nat)
    : normalizeDecimal (normalizeDecimal scaled scale).1 (normalizeDecimal scaled scale).2
      = normalizeDecimal scaled scale := by
  by_cases zero : scaled = 0
  · rw [zero]
    rfl
  · have stripped : normalizeDecimal scaled scale = stripZeros scale scaled := if_neg zero
    rw [stripped, normalizeDecimal, if_neg (stripZeros_ne_zero zero),
      stripZeros_of_isNormal (stripZeros_isNormal _ _)]

/-- A normal form needs no more digits than the decimal, before or after the point. -/
theorem normalizeDecimal_bounds (scale : Nat) (bounds : -2 ^ 63 ≤ scaled ∧ scaled < 2 ^ 63)
    : -2 ^ 63 ≤ (normalizeDecimal scaled scale).1 ∧ (normalizeDecimal scaled scale).1 < 2 ^ 63
      ∧ (normalizeDecimal scaled scale).2 ≤ scale := by
  rw [normalizeDecimal]
  split
  · exact ⟨by decide, by decide, Nat.zero_le _⟩
  · have stripped := stripZeros_bounds (-2 ^ 63) (2 ^ 63 - 1) scale scaled (by decide)
      (by decide) (by omega)
    omega

-- Decimal texts

/-- The variables of the loop over the digits. -/
structure DecimalScan where
  sawDigit : Bool
  sawDecimalPoint : Bool
  scale : Nat
  scaledAbs : Nat
  deriving DecidableEq, Repr

def invalidDecimal : DbError := .sql "invalid DECIMAL cast"

/-- One character: a digit within the range of `i128` and of the scale, or the first point. -/
def scanDecimalChar (scan : DecimalScan) (char : Char) : DbResult DecimalScan :=
  if char.isDigit then
    let scaledAbs := scan.scaledAbs * 10 + (char.toNat - 48)
    let scale := if scan.sawDecimalPoint then scan.scale + 1 else scan.scale
    if 2 ^ 127 ≤ scaledAbs then .error invalidDecimal
    else if 255 < scale then .error invalidDecimal
    else .ok { scan with sawDigit := true, scale, scaledAbs }
  else if char = '.' ∧ !scan.sawDecimalPoint then .ok { scan with sawDecimalPoint := true }
  else .error invalidDecimal

def parseDecimalText (text : String) : DbResult (Int × Nat) := do
  let (negative, digits) ← splitSign (trim text)
  let scan ← digits.foldlM scanDecimalChar
    { sawDigit := false, sawDecimalPoint := false, scale := 0, scaledAbs := 0 }
  finish negative scan
where
  splitSign : List Char → DbResult (Bool × List Char)
    | [] => .error invalidDecimal
    | '+' :: rest => .ok (false, rest)
    | '-' :: rest => .ok (true, rest)
    | digits => .ok (false, digits)
  finish (negative : Bool) (scan : DecimalScan) : DbResult (Int × Nat) :=
    let signed : Int := if negative then -(scan.scaledAbs : Int) else scan.scaledAbs
    if !scan.sawDigit then .error invalidDecimal
    else if signed < -2 ^ 63 ∨ 2 ^ 63 ≤ signed then .error invalidDecimal
    else .ok (normalizeDecimal signed scan.scale)

/-- The scanner counts at most 255 fractional digits. -/
theorem scanDecimalChar_scale {char : Char} (scanned : scanDecimalChar scan char = .ok after)
    (fits : scan.scale ≤ 255)
    : after.scale ≤ 255 := by
  rw [scanDecimalChar] at scanned
  split at scanned
  · extract_lets scaledAbs scale at scanned
    split at scanned
    · cases scanned
    split at scanned <;> cases scanned
    next fits => exact le_of_not_gt fits
  split at scanned <;> cases scanned
  · exact fits

/-- By induction on the characters. -/
theorem scanDecimalChars_scale {chars : List Char}
    (scanned : chars.foldlM scanDecimalChar scan = .ok after) (fits : scan.scale ≤ 255)
    : after.scale ≤ 255 := by
  induction chars generalizing scan with
  | nil =>
    cases scanned
    exact fits
  | cons char rest ih =>
    obtain ⟨next, first, others⟩ := bind_eq_ok.mp scanned
    exact ih others (scanDecimalChar_scale first fits)

/-- A text is read as a decimal in normal form that fits its types. -/
theorem parseDecimalText_ok {text : String} (parsed : parseDecimalText text = .ok decimal)
    : normalizeDecimal decimal.1 decimal.2 = decimal ∧ -2 ^ 63 ≤ decimal.1 ∧ decimal.1 < 2 ^ 63
      ∧ decimal.2 ≤ 255 := by
  obtain ⟨⟨negative, digits⟩, -, parsed⟩ := bind_eq_ok.mp parsed
  obtain ⟨scan, scanned, finished⟩ := bind_eq_ok.mp parsed
  have fits := scanDecimalChars_scale scanned (by decide)
  rw [parseDecimalText.finish] at finished
  generalize (if negative then -(scan.scaledAbs : Int) else scan.scaledAbs) = signed at finished
  split at finished
  · cases finished
  split at finished
  · cases finished
  next inRange =>
    cases finished
    rw [not_or, not_lt, not_le] at inRange
    obtain ⟨below, above, scale⟩ := normalizeDecimal_bounds scan.scale inRange
    exact ⟨normalizeDecimal_idempotent _ _, below, above, le_trans scale fits⟩

end DecentDb.Record
