import DecentDb.Library.LittleEndian

/-! The lexicographic order of lists, in which a list comes before its extensions. Lists that
go together part by part compare part by part; numbers of a fixed width compare like their
big-endian bytes.
-/

namespace Lexicographic

open LittleEndian (leBytes length_leBytes)

variable {α : Type} [Ord α]

-- Parts of lists

/-- A comparison that is decided does not look any further. -/
theorem then_of_ne {ordering : Ordering} (decided : ordering ≠ .eq) (next : Ordering)
    : ordering.then next = ordering := by
  cases ordering with
  | eq => exact absurd rfl decided
  | lt | gt => rfl

/-- Lists with first parts of one length compare by these first. -/
theorem compare_append {left right : List α} (length : left.length = right.length)
    (leftRest rightRest : List α)
    : compare (left ++ leftRest) (right ++ rightRest)
      = (compare left right).then (compare leftRest rightRest) := by
  induction left generalizing right with
  | nil =>
    obtain rfl := List.eq_nil_of_length_eq_zero length.symm
    rw [List.nil_append, List.nil_append, List.compare_nil_nil]
    rfl
  | cons first left ih =>
    cases right with
    | nil => cases length
    | cons second right =>
      rw [List.cons_append, List.cons_append, List.compare_cons_cons,
        List.compare_cons_cons, ih (Nat.succ.inj length), Ordering.then_assoc]

/-- Lists of one element are ordered like their elements. -/
theorem compare_singleton (left right : α) : compare [left] [right] = compare left right := by
  rw [List.compare_cons_cons, List.compare_nil_nil, Ordering.then_eq]

/-- What two lists have in common does not matter. -/
theorem compare_common [Std.ReflOrd α] (common leftRest rightRest : List α)
    : compare (common ++ leftRest) (common ++ rightRest) = compare leftRest rightRest := by
  rw [compare_append rfl, Std.ReflOrd.compare_self]
  rfl

/-- The first place at which two lists differ decides. -/
theorem compare_diverging [Std.LawfulEqOrd α] (common : List α) {left right : α}
    (different : left ≠ right) (leftRest rightRest : List α)
    : compare (common ++ left :: leftRest) (common ++ right :: rightRest) = compare left right := by
  rw [compare_common, List.compare_cons_cons]
  exact then_of_ne (fun same => different (Std.compare_eq_iff_eq.mp same)) _

/-- A list is below its extensions. -/
theorem compare_extension [Std.ReflOrd α] (short : List α) (next : α) (rest : List α)
    : compare short (short ++ next :: rest) = .lt := by
  have compared := compare_common short [] (next :: rest)
  rwa [List.append_nil, List.compare_nil_cons] at compared

/-- The extensions of a list are above it. -/
theorem extension_compare [Std.ReflOrd α] (short : List α) (next : α) (rest : List α)
    : compare (short ++ next :: rest) short = .gt := by
  have compared := compare_common short (next :: rest) []
  rwa [List.append_nil, List.compare_cons_nil] at compared

/-- How two lists lie to each other. -/
inductive Related (left right : List α) : Prop where
  | same (equal : left = right)
  | shorter (next : α) (rest : List α) (extended : right = left ++ next :: rest)
  | longer (next : α) (rest : List α) (extended : left = right ++ next :: rest)
  | diverging (common : List α) (first second : α) (leftRest rightRest : List α)
    (different : first ≠ second) (isLeft : left = common ++ first :: leftRest)
    (isRight : right = common ++ second :: rightRest)

omit [Ord α] in
/-- By induction along both lists. -/
theorem related (left right : List α) : Related left right := by
  induction left generalizing right with
  | nil =>
    cases right with
    | nil => exact .same rfl
    | cons next rest => exact .shorter next rest rfl
  | cons first left ih =>
    cases right with
    | nil => exact .longer first left rfl
    | cons second right =>
      by_cases different : first = second
      · subst different
        cases ih right with
        | same equal => exact .same (congrArg _ equal)
        | shorter next rest extended => exact .shorter next rest (congrArg _ extended)
        | longer next rest extended => exact .longer next rest (congrArg _ extended)
        | diverging common _ _ leftRest rightRest different isLeft isRight =>
          exact .diverging (first :: common) _ _ leftRest rightRest different
            (congrArg _ isLeft) (congrArg _ isRight)
      · exact .diverging [] first second left right different rfl rfl

-- Numbers

/-- A common offset does not change the order. -/
theorem compare_nat_add (left right offset : Nat)
    : compare (left + offset) (right + offset) = compare left right := by
  rw [Nat.compare_eq_ite_lt, Nat.compare_eq_ite_lt]
  simp

/-- Complements are ordered the other way round. -/
theorem compare_complement {left right bound : Nat} (leftFits : left ≤ bound)
    (rightFits : right ≤ bound)
    : compare (bound - left) (bound - right) = (compare left right).swap := by
  have below : bound - left < bound - right ↔ right < left := by omega
  have above : bound - right < bound - left ↔ left < right := by omega
  rw [Nat.compare_swap, Nat.compare_eq_ite_lt, Nat.compare_eq_ite_lt]
  simp [below, above]

/-- Numbers compare by their quotients first. -/
theorem compare_div_mod (left right base : Nat) (positive : 0 < base) : compare left right
      = (compare (left / base) (right / base)).then (compare (left % base) (right % base)) := by
  have leftParts := Nat.div_add_mod left base
  have rightParts := Nat.div_add_mod right base
  have leftLow := Nat.mod_lt left positive
  have rightLow := Nat.mod_lt right positive
  rcases lt_trichotomy (left / base) (right / base) with below | same | above
  · have smaller : left < right := Nat.lt_of_div_lt_div below
    rw [Nat.compare_eq_lt.mpr below, Nat.compare_eq_lt.mpr smaller]
    rfl
  · rw [Nat.compare_eq_eq.mpr same, Ordering.eq_then, ← compare_nat_add (left % base) _
    (base * (left / base)), add_comm (left % base), leftParts, same,
    add_comm (right % base), rightParts]
  · have greater : right < left := Nat.lt_of_div_lt_div above
    rw [Nat.compare_eq_gt.mpr above, Nat.compare_eq_gt.mpr greater]
    rfl

/-- Numbers that fit a width compare like their big-endian bytes, by induction on the
width.
-/
theorem compare_reverse_leBytes (width : Nat) {left right : Nat} (leftFits : left < 256 ^ width)
    (rightFits : right < 256 ^ width)
    : compare (leBytes width left).reverse (leBytes width right).reverse = compare left right := by
  induction width generalizing left right with
  | zero =>
    obtain rfl : left = 0 := by simpa using leftFits
    obtain rfl : right = 0 := by simpa using rightFits
    rfl
  | succ width ih =>
    rw [pow_succ] at leftFits rightFits
    have byte (number : Nat) : (UInt8.ofNat (number % 256)).toNat = number % 256 := by
      rw [UInt8.toNat_ofNat']
      exact Nat.mod_eq_of_lt (Nat.mod_lt number (by decide))
    rw [leBytes, leBytes, List.reverse_cons, List.reverse_cons, compare_append (by simp),
      ih (by omega) (by omega), compare_singleton, UInt8.compare_eq_toNat_compare_toNat, byte,
      byte, ← compare_div_mod left right 256 (by decide)]

end Lexicographic
