import DecentDb.Library.Lexicographic
import DecentDb.Record.Decimal
import Mathlib.Data.List.TakeWhile
import Mathlib.Tactic.Positivity

/-! Decimals are ordered like the rationals that they stand for, although the comparison looks
at digits only, and a text is read as the rational that it writes.
-/

namespace DecentDb.Record

open List Lexicographic

-- Digits

/-- One byte is written for every digit. -/
theorem length_digitBytes (number : Nat)
    : (digitBytes number).length = (Nat.digits 10 number).length := by
  rw [digitBytes, length_map, length_reverse]

variable {number left right leftScale rightScale factor : Nat}

/-- The last digit comes last. -/
theorem digitBytes_concat (nonzero : number ≠ 0)
    : digitBytes number = digitBytes (number / 10) ++ [UInt8.ofNat (number % 10 + 48)] := by
  rw [digitBytes, Nat.digits_def' (by decide) (pos_of_ne_zero nonzero), reverse_cons,
    map_append, map_singleton, add_comm (number % 10)]
  rfl

/-- Only zero has no digits. -/
theorem eq_zero_of_digitBytes (none : (digitBytes number).length = 0) : number = 0 := by
  rw [length_digitBytes] at none
  exact Nat.digits_eq_nil_iff_eq_zero.mp (eq_nil_of_length_eq_zero none)

/-- Padding reaches the width. -/
theorem length_padDigits (width : Nat) (digits : List UInt8)
    : (padDigits width digits).length = width := by
  rw [padDigits, length_take, length_append, length_replicate]
  omega

/-- Zeros after the digits are trailing zeros of the number. -/
theorem padDigits_digitBytes (nonzero : number ≠ 0) (count : Nat)
    : padDigits ((digitBytes number).length + count) (digitBytes number)
      = digitBytes (10 ^ count * number) := by
  rw [padDigits, take_length_add_append, take_replicate, min_eq_left (Nat.le_add_left _ _),
    digitBytes, digitBytes,
    Nat.digits_base_pow_mul (by decide) (pos_of_ne_zero nonzero), reverse_append,
    reverse_replicate, map_append, map_replicate]
  rfl

/-- Numbers with equally many digits compare like these, by induction on the number without its
last digit.
-/
theorem compare_digitBytes (length : (digitBytes left).length = (digitBytes right).length)
    : compare (digitBytes left) (digitBytes right) = compare left right := by
  induction left using Nat.strong_induction_on generalizing right with
  | _ left ih =>
    by_cases leftZero : left = 0
    · subst leftZero
      rw [eq_zero_of_digitBytes length.symm]
      rfl
    have rightNonzero : right ≠ 0 := by
      rintro rfl
      exact leftZero (eq_zero_of_digitBytes length)
    have byte (number : Nat) : (UInt8.ofNat (number % 10 + 48)).toNat = number % 10 + 48 := by
      rw [UInt8.toNat_ofNat']
      omega
    rw [digitBytes_concat leftZero, digitBytes_concat rightNonzero] at length ⊢
    have shorter := Nat.succ.inj (by simpa using length)
    rw [compare_append shorter, ih (left / 10) (by omega) shorter, compare_singleton,
      UInt8.compare_eq_toNat_compare_toNat, byte, byte, compare_nat_add,
      ← compare_div_mod left right 10 (by decide)]

/-- The leading digits are those of the number without its last ones. -/
theorem digitBytes_split (count : Nat) (longer : count < (digitBytes number).length)
    : ∃ rest, rest.length = count ∧ digitBytes number = digitBytes (number / 10 ^ count) ++ rest := by
  induction count generalizing number with
  | zero => exact ⟨[], rfl, by simp⟩
  | succ count ih =>
    have nonzero : number ≠ 0 := by
      rintro rfl
      simp [digitBytes] at longer
    rw [digitBytes_concat nonzero] at longer ⊢
    obtain ⟨rest, length, split⟩ := ih (Nat.lt_of_succ_lt_succ (by simpa using longer))
    refine ⟨rest ++ [UInt8.ofNat (number % 10 + 48)], by simp [length], ?_⟩
    rw [split, Nat.div_div_eq_div_mul, ← Nat.pow_succ', append_assoc]

-- Magnitudes

/-- The number whose point stands further to the left is the smaller one. -/
theorem scaled_lt_of_position (nonzero : right ≠ 0)
    (position : (digitBytes left).length + rightScale < (digitBytes right).length + leftScale)
    : left * 10 ^ rightScale < right * 10 ^ leftScale := by
  rw [length_digitBytes, length_digitBytes] at position
  have below : left < 10 ^ (Nat.digits 10 left).length := Nat.lt_base_pow_length_digits (by decide)
  have above := Nat.base_pow_length_digits_le 10 right (by decide) nonzero
  refine Nat.lt_of_mul_lt_mul_left (a := 10) ?_
  calc 10 * (left * 10 ^ rightScale)
      < 10 * (10 ^ (Nat.digits 10 left).length * 10 ^ rightScale) := by gcongr
    _ = 10 ^ ((Nat.digits 10 left).length + rightScale + 1) := by ring
    _ ≤ 10 ^ ((Nat.digits 10 right).length + leftScale) := Nat.pow_le_pow_right (by decide) position
    _ = 10 ^ (Nat.digits 10 right).length * 10 ^ leftScale := pow_add ..
    _ ≤ 10 * right * 10 ^ leftScale := Nat.mul_le_mul_right _ above
    _ = 10 * (right * 10 ^ leftScale) := mul_assoc ..

/-- A common positive factor does not change the order. -/
theorem compare_nat_mul (left right : Nat) (positive : 0 < factor)
    : compare (left * factor) (right * factor) = compare left right := by
  simp [Nat.compare_eq_ite_lt, Nat.mul_lt_mul_right positive]

/-- Comparing positions and padded digits is comparing at the common scale. -/
theorem compareDecimalMagnitude_scaled (leftAbs leftScale rightAbs rightScale : Nat)
    : compareDecimalMagnitude leftAbs leftScale rightAbs rightScale
      = compare (leftAbs * 10 ^ rightScale) (rightAbs * 10 ^ leftScale) := by
  rw [compareDecimalMagnitude]
  split
  next zero =>
    rcases zero with rfl | rfl
    · simp [Nat.compare_eq_ite_lt]
    · simp [Nat.compare_eq_ite_lt]
  next nonzero =>
    obtain ⟨leftNonzero, rightNonzero⟩ := not_or.mp nonzero
    dsimp only
    rcases lt_trichotomy ((digitBytes leftAbs).length + rightScale)
      ((digitBytes rightAbs).length + leftScale) with before | same | behind
    · rw [Nat.compare_eq_lt.mpr before,
        Nat.compare_eq_lt.mpr (scaled_lt_of_position rightNonzero before)]
      rfl
    · obtain ⟨leftCount, leftWidth⟩ := Nat.exists_eq_add_of_le
        (le_max_left (digitBytes leftAbs).length (digitBytes rightAbs).length)
      obtain ⟨rightCount, rightWidth⟩ := Nat.exists_eq_add_of_le
        (le_max_right (digitBytes leftAbs).length (digitBytes rightAbs).length)
      obtain ⟨shift, rfl, rfl⟩ : ∃ shift, rightScale = leftCount + shift
          ∧ leftScale = rightCount + shift :=
        ⟨rightScale - leftCount, by omega, by omega⟩
      have leftPadded := padDigits_digitBytes leftNonzero leftCount
      have rightPadded := padDigits_digitBytes rightNonzero rightCount
      rw [← leftWidth] at leftPadded
      rw [← rightWidth] at rightPadded
      have regroup (digits count : Nat)
          : digits * (10 ^ count * 10 ^ shift) = 10 ^ count * digits * 10 ^ shift := by ring
      have shifted := compare_nat_mul (10 ^ leftCount * leftAbs) (10 ^ rightCount * rightAbs)
        (pow_pos (n := shift) (show 0 < 10 by decide))
      rw [Nat.compare_eq_eq.mpr same, Ordering.eq_then, leftPadded, rightPadded,
        compare_digitBytes (by rw [← leftPadded, ← rightPadded, length_padDigits, length_padDigits]),
        ← shifted, pow_add, pow_add]
      rw [regroup, regroup]
    · rw [Nat.compare_eq_gt.mpr behind,
        Nat.compare_eq_gt.mpr (scaled_lt_of_position leftNonzero behind)]
      rfl

-- Values

/-- The rational that a decimal stands for. -/
def decimalValue (decimal : Int × Nat) : ℚ := decimal.1 / 10 ^ decimal.2

/-- The order is known once both strict comparisons are. -/
theorem compare_congr {α β : Type} [LinearOrder α] [LinearOrder β] {left right : α}
    {left' right' : β} (below : left < right ↔ left' < right') (above : right < left ↔ right' < left')
    : compare left right = compare left' right' := by
  rcases lt_trichotomy left right with less | same | greater
  · rw [compare_lt_iff_lt.mpr less, compare_lt_iff_lt.mpr (below.mp less)]
  · have equal : left' = right' := le_antisymm
      (not_lt.mp fun greater => (above.mpr greater).ne' same)
      (not_lt.mp fun less => (below.mpr less).ne same)
    rw [compare_eq_iff_eq.mpr same, compare_eq_iff_eq.mpr equal]
  · rw [compare_gt_iff_gt.mpr greater, compare_gt_iff_gt.mpr (above.mp greater)]

/-- Comparing padded digits compares the magnitudes as numbers. -/
theorem compareDecimalMagnitude_value (leftAbs leftScale rightAbs rightScale : Nat)
    : compareDecimalMagnitude leftAbs leftScale rightAbs rightScale
      = compare (decimalValue (leftAbs, leftScale)) (decimalValue (rightAbs, rightScale)) := by
  have scaled (left leftScale right rightScale : Nat)
    : left * 10 ^ rightScale < right * 10 ^ leftScale
      ↔ decimalValue (left, leftScale) < decimalValue (right, rightScale) := by
    simp only [decimalValue]
    rw [div_lt_div_iff₀ (by positivity) (by positivity)]
    exact_mod_cast Iff.rfl
  rw [compareDecimalMagnitude_scaled]
  exact compare_congr (scaled ..) (scaled ..)

variable {decimal : Int × Nat} {left right : Int × Nat}

/-- The sign of the scaled integer is the sign of the number. -/
theorem decimalValue_neg (negative : decimal.1 < 0) : decimalValue decimal < 0 :=
  div_neg_of_neg_of_pos (by exact_mod_cast negative) (by positivity)

/-- A scaled integer that is not negative is a number that is not. -/
theorem decimalValue_nonneg (nonneg : 0 ≤ decimal.1) : 0 ≤ decimalValue decimal :=
  div_nonneg (by exact_mod_cast nonneg) (by positivity)

/-- Comparing signs and magnitudes compares the numbers. -/
theorem compareNormal_value (left right : Int × Nat)
    : compareNormal left right = compare (decimalValue left) (decimalValue right) := by
  rw [compareNormal]
  split
  next same => rw [same, compare_eq_iff_eq.mpr rfl]
  split
  next signs =>
    have signs : ¬ (left.1 < 0 ↔ right.1 < 0) := by simpa using signs
    rcases lt_or_ge left.1 0 with leftNegative | leftNonneg
    · have rightNonneg : 0 ≤ right.1 := by omega
      rw [compare_lt_iff_lt.mpr (leftNegative.trans_le rightNonneg), compare_lt_iff_lt.mpr
        ((decimalValue_neg leftNegative).trans_le (decimalValue_nonneg rightNonneg))]
    · have rightNegative : right.1 < 0 := by omega
      rw [compare_gt_iff_gt.mpr (rightNegative.trans_le leftNonneg), compare_gt_iff_gt.mpr
        ((decimalValue_neg rightNegative).trans_le (decimalValue_nonneg leftNonneg))]
  next signs =>
    have signs : left.1 < 0 ↔ right.1 < 0 := by simpa using signs
    rw [compareDecimalMagnitude_value]
    split
    next negative =>
      have inverted {decimal : Int × Nat} (negative : decimal.1 < 0)
        : decimalValue (decimal.1.natAbs, decimal.2) = -decimalValue decimal := by
        rw [decimalValue, decimalValue, ← neg_div, Int.ofNat_natAbs_of_nonpos negative.le,
          Int.cast_neg]
      rw [inverted negative, inverted (signs.mp negative), ← Std.OrientedOrd.eq_swap]
      exact compare_congr neg_lt_neg_iff neg_lt_neg_iff
    next nonneg =>
      rw [Int.natAbs_of_nonneg (not_lt.mp nonneg),
        Int.natAbs_of_nonneg (not_lt.mp fun negative => nonneg (signs.mpr negative))]

/-- Trailing zeros behind the point do not change the number. -/
theorem decimalValue_stripZeros (scale : Nat) (scaled : Int)
    : decimalValue (stripZeros scale scaled) = decimalValue (scaled, scale) := by
  induction scale generalizing scaled with
  | zero => rfl
  | succ scale ih =>
    rw [stripZeros]
    split
    next zero =>
      have divided := Int.tdiv_mul_cancel (Int.dvd_of_tmod_eq_zero zero)
      have value : decimalValue (scaled, scale + 1)
        = (scaled.tdiv 10 : ℚ) * 10 / (10 ^ scale * 10) := by
        rw [decimalValue, pow_succ]
        exact_mod_cast congrArg (fun number : Int => (number : ℚ) / (10 ^ scale * 10)) divided.symm
      rw [ih, value, mul_div_mul_right _ _ (by decide)]
      rfl
    next => rfl

/-- The normal form is the same number. -/
theorem decimalValue_normalizeDecimal (scaled : Int) (scale : Nat)
    : decimalValue (normalizeDecimal scaled scale) = decimalValue (scaled, scale) := by
  rw [normalizeDecimal]
  split
  next zero => simp [zero, decimalValue]
  next => exact decimalValue_stripZeros scale scaled

/-- Decimals of any scales are compared as numbers. -/
theorem compareDecimal_value (leftScaled : Int) (leftScale : Nat) (rightScaled : Int)
    (rightScale : Nat)
    : compareDecimal leftScaled leftScale rightScaled rightScale
      = compare (decimalValue (leftScaled, leftScale)) (decimalValue (rightScaled, rightScale)) := by
  rw [compareDecimal, compareNormal_value, decimalValue_normalizeDecimal,
    decimalValue_normalizeDecimal]

/-- Of two decimals for one rational, one in normal form has no more fractional digits. -/
theorem IsNormal.scale_le (normal : IsNormal right)
    (same : left.1 * 10 ^ right.2 = right.1 * 10 ^ left.2) : right.2 ≤ left.2 := by
  by_contra greater
  obtain ⟨more, scale⟩ := Nat.exists_eq_add_of_lt (not_le.mp greater)
  have ends := normal.resolve_left (by omega)
  refine ends ⟨left.1 * 10 ^ more, ?_⟩
  refine mul_right_cancel₀ (pow_ne_zero left.2 (show (10 : Int) ≠ 0 by decide)) ?_
  rw [← same, scale]
  ring

/-- A number has one normal form. -/
theorem IsNormal.eq_of_value (leftNormal : IsNormal left)
    (rightNormal : IsNormal right) (same : decimalValue left = decimalValue right)
    : left = right := by
  have scaled : left.1 * 10 ^ right.2 = right.1 * 10 ^ left.2 := by
    rw [decimalValue, decimalValue, div_eq_div_iff (by positivity) (by positivity)] at same
    exact_mod_cast same
  have scale := le_antisymm (leftNormal.scale_le scaled.symm) (rightNormal.scale_le scaled)
  rw [scale] at scaled
  exact Prod.ext (mul_right_cancel₀ (pow_ne_zero _ (by decide)) scaled) scale

/-- Decimals compare equal exactly if they have the same normal form. -/
theorem compareDecimal_eq_iff (leftScaled : Int) (leftScale : Nat) (rightScaled : Int)
    (rightScale : Nat)
    : compareDecimal leftScaled leftScale rightScaled rightScale = .eq
      ↔ normalizeDecimal leftScaled leftScale = normalizeDecimal rightScaled rightScale := by
  rw [compareDecimal, compareNormal_value, compare_eq_iff_eq]
  exact ⟨(normalizeDecimal_isNormal _ _).eq_of_value (normalizeDecimal_isNormal _ _),
    congrArg decimalValue⟩

-- Texts

/-- The number that a string of digits writes. -/
def digitsValue (digits : List Char) : Nat :=
  Nat.ofDigits 10 (digits.reverse.map fun char => char.toNat - 48)

/-- The digits before others count by their position. -/
theorem digitsValue_append (whole fraction : List Char) : digitsValue (whole ++ fraction)
      = digitsValue whole * 10 ^ fraction.length + digitsValue fraction := by
  rw [digitsValue, reverse_append, map_append, Nat.ofDigits_append, length_map,
    length_reverse, add_comm, mul_comm]
  rfl

/-- Another digit shifts those before it. -/
theorem digitsValue_concat (digits : List Char) (char : Char)
    : digitsValue (digits ++ [char]) = digitsValue digits * 10 + (char.toNat - 48) := by
  rw [digitsValue_append]
  simp [digitsValue]

/-- A text writes a rational: white space around an optional sign and digits, of which at least
one is there, with or without a point.
-/
def Writes (text : String) (value : ℚ) : Prop :=
  ∃ before sign whole point fraction after : List Char,
    text.toList = before ++ (sign ++ (whole ++ point ++ fraction)) ++ after
    ∧ (∀ char ∈ before ++ after, isWhitespace char) ∧ sign ∈ [[], ['+'], ['-']]
    ∧ (∀ char ∈ whole ++ fraction, char.isDigit) ∧ whole ++ fraction ≠ []
    ∧ (point = ['.'] ∨ point = [] ∧ fraction = [])
    ∧ value = (if sign = ['-'] then -1 else 1)
      * (digitsValue whole + digitsValue fraction / 10 ^ fraction.length)

/-- What the loop has read: digits, and the digits after the point. -/
structure ReadDigits (chars : List Char) (scan : DecimalScan) (whole point fraction : List Char)
    : Prop where
  reads : chars = whole ++ point ++ fraction
  digits : ∀ char ∈ whole ++ fraction, char.isDigit
  isPoint : point = (if scan.sawDecimalPoint then ['.'] else [])
  noFraction : scan.sawDecimalPoint = false → fraction = []
  sawDigit : scan.sawDigit → whole ++ fraction ≠ []
  scale : scan.scale = fraction.length
  scaledAbs : scan.scaledAbs = digitsValue (whole ++ fraction)

/-- One more character, either a digit on its side of the point or the point itself. -/
theorem ReadDigits.scanDecimalChar {chars whole point fraction : List Char} {scan after : DecimalScan}
    (read : ReadDigits chars scan whole point fraction) {char : Char}
    (scanned : scanDecimalChar scan char = .ok after)
    : ∃ whole point fraction, ReadDigits (chars ++ [char]) after whole point fraction := by
  obtain ⟨rfl, digits, isPoint, noFraction, sawDigit, scale, scaledAbs⟩ := read
  rw [Record.scanDecimalChar] at scanned
  split at scanned
  next digit =>
    extract_lets newAbs newScale at scanned
    split at scanned
    · cases scanned
    split at scanned <;> cases scanned
    have more : ∀ other ∈ whole ++ fraction ++ [char], other.isDigit :=
      forall_mem_append.mpr ⟨digits, by simpa using digit⟩
    cases saw : scan.sawDecimalPoint with
    | true =>
      refine ⟨whole, point, fraction ++ [char], by simp, by simpa using more, ?_, ?_, ?_, ?_, ?_⟩
      all_goals simp_all [newAbs, newScale, ← append_assoc, digitsValue_concat]
    | false =>
      obtain rfl := noFraction saw
      refine ⟨whole ++ [char], point, [], ?_, by simpa using more, ?_, ?_, ?_, ?_, ?_⟩
      all_goals simp_all [newAbs, newScale, digitsValue_concat]
  split at scanned <;> cases scanned
  next first =>
    have saw : scan.sawDecimalPoint = false := by simpa using first.2
    obtain rfl := noFraction saw
    refine ⟨whole, ['.'], [], ?_, digits, rfl, fun _ => rfl, sawDigit, scale, scaledAbs⟩
    simp [isPoint, saw, first.1]

/-- By induction on the characters, the last one first. -/
theorem exists_readDigits {chars : List Char} {scan : DecimalScan}
    (scanned : chars.foldlM scanDecimalChar
      { sawDigit := false, sawDecimalPoint := false, scale := 0, scaledAbs := 0 } = .ok scan)
    : ∃ whole point fraction, ReadDigits chars scan whole point fraction := by
  induction chars using reverseRecOn generalizing scan with
  | nil =>
    cases scanned
    exact ⟨[], [], [], rfl, by simp, rfl, fun _ => rfl, by simp, rfl, rfl⟩
  | append_singleton chars char ih =>
    rw [foldlM_append] at scanned
    obtain ⟨before, earlier, last⟩ := bind_eq_ok.mp scanned
    obtain ⟨whole, point, fraction, read⟩ := ih earlier
    exact read.scanDecimalChar (by simpa using last)

/-- Trimming takes only white space away, at both ends. -/
theorem exists_whitespace_trim (text : String)
    : ∃ before after, text.toList = before ++ trim text ++ after
      ∧ ∀ char ∈ before ++ after, isWhitespace char := by
  have front := takeWhile_append_dropWhile (p := isWhitespace) (l := text.toList)
  have back := takeWhile_append_dropWhile (p := isWhitespace)
    (l := (text.toList.dropWhile isWhitespace).reverse)
  refine ⟨text.toList.takeWhile isWhitespace,
    ((text.toList.dropWhile isWhitespace).reverse.takeWhile isWhitespace).reverse, ?_, ?_⟩
  · rw [trim, append_assoc, ← reverse_append, back, reverse_reverse, front]
  intro char member
  rcases mem_append.mp member with leading | trailing
  · exact mem_takeWhile_imp leading
  · exact mem_takeWhile_imp (mem_reverse.mp trailing)

/-- A text begins with at most one sign. -/
theorem splitSign_eq_ok {chars digits : List Char} {negative : Bool}
    (split : parseDecimalText.splitSign chars = .ok (negative, digits))
    : ∃ sign ∈ [[], ['+'], ['-']], chars = sign ++ digits ∧ (negative ↔ sign = ['-']) := by
  unfold parseDecimalText.splitSign at split
  split at split <;> cases split
  · exact ⟨['+'], by simp, rfl, by simp⟩
  · exact ⟨['-'], by simp, rfl, by simp⟩
  · exact ⟨[], by simp, rfl, by simp⟩

/-- An accepted text is read as the rational that it writes. -/
theorem writes_of_parseDecimalText {text : String}
    (parsed : parseDecimalText text = .ok decimal) : Writes text (decimalValue decimal) := by
  obtain ⟨before, after, trimmed, white⟩ := exists_whitespace_trim text
  obtain ⟨⟨negative, digits⟩, split, parsed⟩ := bind_eq_ok.mp parsed
  obtain ⟨scan, scanned, finished⟩ := bind_eq_ok.mp parsed
  obtain ⟨sign, listed, signed, negates⟩ := splitSign_eq_ok split
  obtain ⟨whole, point, fraction, read⟩ := exists_readDigits scanned
  have parts : ((digitsValue (whole ++ fraction) : Int) : ℚ) / 10 ^ fraction.length
    = digitsValue whole + digitsValue fraction / 10 ^ fraction.length := by
    rw [digitsValue_append]
    push_cast
    rw [add_div, mul_div_cancel_right₀ _ (by positivity)]
  rw [parseDecimalText.finish] at finished
  generalize isNumber : (if negative then -(scan.scaledAbs : Int) else scan.scaledAbs) = number
    at finished
  split at finished
  · cases finished
  next saw =>
    split at finished <;> cases finished
    refine ⟨before, sign, whole, point, fraction, after, ?_, white, listed, read.digits,
      read.sawDigit (by simpa using saw), ?_, ?_⟩
    · rw [trimmed, signed, read.reads]
    · rw [read.isPoint]
      cases sawPoint : scan.sawDecimalPoint with
      | true => exact .inl rfl
      | false => exact .inr ⟨rfl, read.noFraction sawPoint⟩
    rw [decimalValue_normalizeDecimal, decimalValue, read.scale, ← isNumber, read.scaledAbs,
      ← parts]
    cases negative with
    | true => rw [if_pos rfl, if_pos (negates.mp rfl), Int.cast_neg, neg_div, neg_one_mul]
    | false =>
      rw [if_neg (by simp), if_neg fun minus => Bool.noConfusion (negates.mpr minus), one_mul]

/-- The comparison of stored decimals. -/
def compareStoredDecimal (left right : Int64 × UInt8) : Ordering :=
  compareDecimal left.1.toInt left.2.toNat right.1.toInt right.2.toNat

def storedValue (decimal : Int64 × UInt8) : ℚ := decimalValue (decimal.1.toInt, decimal.2.toNat)

/-- Decimals compare like the rationals that they stand for, so that the comparison is a total
preorder that identifies equal rationals, and a text stands for the rational that it writes.
-/
theorem decimal_order_exact : (∀ left right, compareStoredDecimal left right
        = compare (storedValue left) (storedValue right))
      ∧ Std.TransCmp compareStoredDecimal
      ∧ (∀ left right, compareStoredDecimal left right = .eq ↔ storedValue left = storedValue right)
      ∧ ∀ text decimal, parseDecimalText text = .ok decimal
        → Writes text (decimalValue decimal) := by
  have same (left right : Int64 × UInt8)
    : compareStoredDecimal left right = compare (storedValue left) (storedValue right) :=
    compareDecimal_value ..
  refine ⟨same, ?_, fun left right => ?_, fun _ _ => writes_of_parseDecimalText⟩
  · have on : compareStoredDecimal = compareOn storedValue := funext₂ same
    rw [on]
    infer_instance
  · rw [same, compare_eq_iff_eq]

end DecentDb.Record
