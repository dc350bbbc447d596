import DecentDb.Query.LookupAgreement
import Mathlib.Data.List.GetD

/-! The rows that a window frame covers, as the first and the last position in the sorted
partition. The bounds are computed in 64-bit arithmetic, in which a large offset after the current
row wraps around to a position before the partition. A release build is modelled: others stop there.
-/

namespace DecentDb.Query

open Record ScalarPrimitives

-- The functions

inductive WindowFrameUnit where
  | rows
  | range
  deriving DecidableEq

inductive WindowFrameBound (Expr : Type) where
  | unboundedPreceding
  | unboundedFollowing
  | currentRow
  | preceding (offset : Expr)
  | following (offset : Expr)

structure WindowFrame (Expr : Type) where
  unit : WindowFrameUnit
  start : WindowFrameBound Expr
  endBound : Option (WindowFrameBound Expr)

/-- The value of an overflowing sum of 64-bit integers. -/
def wrap (value : Int) : Int :=
  (value + 9223372036854775808) % 18446744073709551616 - 9223372036854775808

def i64TryFrom (value : Nat) (message : String) : DbResult Int :=
  if value < 9223372036854775808 then .ok value else .error (.internal message)

def usizeTryFrom (value : Int) (message : String) : DbResult Nat :=
  if value < 0 then .error (.internal message) else .ok value.toNat

def clamp (value low high : Int) : Int := max low (min high value)

def normalizeWindowFrameRange (start last : Int) (partitionLen : Nat)
    : DbResult (Option (Nat × Nat)) :=
  if partitionLen = 0 then .ok none
  else do
    let len ← i64TryFrom partitionLen "window partition is too large"
    let start := clamp start 0 len
    let last := clamp last (-1) (len - 1)
    if last < start then .ok none
    else do
      let start ← usizeTryFrom start "window frame start is invalid"
      let last ← usizeTryFrom last "window frame end is invalid"
      .ok (some (start, last))

section

variable [ScalarPrimitives]

/-- The values of two keys in turn, up to the first two that differ. -/
def orderValuesEqual : List Value → List Value → DbResult Bool
  | left :: lefts, right :: rights => do
    let ordering ← compareValues left right
    if ordering = .eq then orderValuesEqual lefts rights else .ok false
  | _, _ => .ok true

def windowOrderKeysEqual (left right : List Value) : DbResult Bool :=
  if left.length = right.length then orderValuesEqual left right else .ok false

/-- The bounds of all peers from `start` on, where the run at `start` has `size` keys so far. -/
def peerBounds (start : Nat) (first : List Value) (size : Nat)
    : List (List Value) → DbResult (List (Nat × Nat))
  | [] => .ok (.replicate size (start, start + size - 1))
  | key :: rest => do
    let same ← windowOrderKeysEqual first key
    if same then peerBounds start first (size + 1) rest
    else do
      let later ← peerBounds (start + size) key 1 rest
      .ok (.replicate size (start, start + size - 1) ++ later)

def computeWindowPeerBounds : List (List Value) → DbResult (List Nat × List Nat)
  | [] => .ok ([], [])
  | first :: rest => do
    let bounds ← peerBounds 0 first 1 rest
    .ok (bounds.map (·.1), bounds.map (·.2))

section

variable {Expr : Type} (evalExpr : Expr → List Value → DbResult Value) (row : List Value)

def evalWindowFrameOffset (offset : Expr) : DbResult Int := do
  let value ← evalExpr offset row
  match value with
  | .int64 value =>
    if 0 ≤ value.toInt then .ok value.toInt
    else .error (.sql "window frame offset must be a non-negative integer")
  | .null => .error (.sql "window frame offset cannot be NULL")
  | other => .error (.sql s!"window frame offset must be INT64, got {debug other}")

/-- The sum and the difference wrap around. -/
def windowFrameBoundIndex (bound : WindowFrameBound Expr) (start : Bool)
    (ordinal partitionLen : Nat) (peerStarts peerEnds : List Nat) (unit : WindowFrameUnit)
    : DbResult Int := do
  let len ← i64TryFrom partitionLen "window partition is too large"
  let position ← i64TryFrom ordinal "window ordinal is too large"
  match unit, bound with
  | .range, .preceding _ | .range, .following _ =>
    .error (.sql "RANGE frames with offset bounds are not supported yet")
  | _, .unboundedPreceding => .ok 0
  | _, .unboundedFollowing => .ok (if start then len else len - 1)
  | .rows, .currentRow => .ok position
  | .range, .currentRow =>
    if start then i64TryFrom (peerStarts.getD ordinal 0) "window peer start is too large"
    else i64TryFrom (peerEnds.getD ordinal 0) "window peer end is too large"
  | .rows, .preceding offset => do
    let offset ← evalWindowFrameOffset evalExpr row offset
    .ok (wrap (position - offset))
  | .rows, .following offset => do
    let offset ← evalWindowFrameOffset evalExpr row offset
    .ok (wrap (position + offset))

end

def windowFrameBoundsForRow {Expr OrderBy : Type} (evalExpr : Expr → List Value → DbResult Value)
    (rows : List (List Value)) (sorted : List Nat) (orderBy : List OrderBy)
    (peerStarts peerEnds : List Nat) (ordinal : Nat) (frame : Option (WindowFrame Expr))
    : DbResult (Option (Nat × Nat)) :=
  if sorted.isEmpty then .ok none
  else
    match frame, (sorted[ordinal]?).bind (rows[·]?) with
    | none, _ =>
      .ok (some (0, if orderBy.isEmpty then sorted.length - 1 else peerEnds.getD ordinal 0))
    | some _, none => .error (.internal "window row index is invalid")
    | some frame, some row => do
      let start ← windowFrameBoundIndex evalExpr row frame.start true ordinal sorted.length
        peerStarts peerEnds frame.unit
      let last ← windowFrameBoundIndex evalExpr row (frame.endBound.getD .currentRow) false
        ordinal sorted.length peerStarts peerEnds frame.unit
      normalizeWindowFrameRange start last sorted.length

-- Peers

/-- The keys at two positions are equal. -/
def SameKey (keys : List (List Value)) (position other : Nat) : Prop :=
  windowOrderKeysEqual (keys.getD position []) (keys.getD other []) = .ok true

/-- The order keys of a partition can be compared, and their equality is an equivalence. -/
structure KeysComparable (keys : List (List Value)) : Prop where
  decided : ∀ position < keys.length, ∀ other < keys.length, ∃ same,
    windowOrderKeysEqual (keys.getD position []) (keys.getD other []) = .ok same
  refl : ∀ position < keys.length, SameKey keys position position
  symm : ∀ {first second}, SameKey keys first second → SameKey keys second first
  trans : ∀ {first second third}, SameKey keys first second → SameKey keys second third
    → SameKey keys first third

/-- The positions of a maximal run of equal keys around a position. -/
structure PeerRun (keys : List (List Value)) (position : Nat) (bounds : Nat × Nat) : Prop where
  first : bounds.1 ≤ position
  last : position ≤ bounds.2
  inside : bounds.2 < keys.length
  same : ∀ other, bounds.1 ≤ other → other ≤ bounds.2 → SameKey keys position other
  before : bounds.1 = 0 ∨ ¬ SameKey keys position (bounds.1 - 1)
  after : bounds.2 + 1 = keys.length ∨ ¬ SameKey keys position (bounds.2 + 1)

variable {keys rest : List (List Value)} {start size : Nat} {first : List Value}

/-- A run of equal keys that no equal key goes before or comes after. -/
theorem KeysComparable.peerRun (comparable : KeysComparable keys)
    (inside : start + size ≤ keys.length)
    (same : ∀ other, start ≤ other → other < start + size → SameKey keys start other)
    (before : start = 0 ∨ ¬ SameKey keys start (start - 1))
    (after : start + size = keys.length ∨ ¬ SameKey keys start (start + size)) {index : Nat}
    (small : index < size) : PeerRun keys (start + index) (start, start + size - 1) := by
  have own := same (start + index) (by omega) (by omega)
  have next : start + size - 1 + 1 = start + size := by omega
  constructor
  · exact Nat.le_add_right start index
  · dsimp only
    omega
  · dsimp only
    omega
  · intro other above below
    dsimp only at above below
    exact comparable.trans (comparable.symm own) (same other above (by omega))
  · exact before.imp_right fun different equal => different (comparable.trans own equal)
  · rw [next]
    exact after.imp_right fun different equal => different (comparable.trans own equal)

/-- The bounds of the positions from one on. -/
def BoundsFrom (keys : List (List Value)) (start : Nat) (bounds : List (Nat × Nat)) : Prop :=
  bounds.length = keys.length - start
    ∧ ∀ index bound, bounds[index]? = some bound → PeerRun keys (start + index) bound

/-- A run goes before the bounds of the later positions. -/
theorem BoundsFrom.append {later : List (Nat × Nat)} (bounds : BoundsFrom keys (start + size) later)
    (inside : start + size ≤ keys.length)
    (run : ∀ index < size, PeerRun keys (start + index) (start, start + size - 1))
    : BoundsFrom keys start (.replicate size (start, start + size - 1) ++ later) := by
  obtain ⟨length, runs⟩ := bounds
  refine ⟨?_, fun index bound found => ?_⟩
  · rw [List.length_append, List.length_replicate]
    omega
  by_cases small : index < size
  · rw [List.getElem?_append_left (by simpa using small), List.getElem?_replicate,
      if_pos small] at found
    cases found
    exact run index small
  · rw [List.getElem?_append_right (by simpa using small), List.length_replicate] at found
    have found := runs _ bound found
    rwa [show start + size + (index - size) = start + index by omega] at found

/-- The bounds of the run at hand and of the later ones, by induction on the keys that are left. -/
theorem peerBounds_ok (comparable : KeysComparable keys) (isFirst : first = keys.getD start [])
    (isRest : rest = keys.drop (start + size)) (some : 0 < size)
    (inside : start + size ≤ keys.length)
    (same : ∀ other, start ≤ other → other < start + size → SameKey keys start other)
    (before : start = 0 ∨ ¬ SameKey keys start (start - 1))
    : ∃ bounds, peerBounds start first size rest = .ok bounds ∧ BoundsFrom keys start bounds := by
  induction rest generalizing start size first with
  | nil =>
    have all : start + size = keys.length := by
      have := List.drop_eq_nil_iff.mp isRest.symm
      omega
    have none : BoundsFrom keys (start + size) [] := ⟨by simp [all], by simp⟩
    have bounds := none.append inside fun _ => comparable.peerRun inside same before (.inl all)
    rw [List.append_nil] at bounds
    exact ⟨_, rfl, bounds⟩
  | cons key rest ih =>
    have more : start + size < keys.length := by
      by_contra beyond
      rw [List.drop_eq_nil_iff.mpr (by omega)] at isRest
      cases isRest
    rw [List.drop_eq_getElem_cons more] at isRest
    obtain ⟨isKey, left⟩ := List.cons.inj isRest
    rw [← List.getD_eq_getElem keys [] more] at isKey
    obtain ⟨equal, compared⟩ := comparable.decided start (by omega) (start + size) more
    have sameNext : SameKey keys start (start + size) ↔ equal = true := by
      rw [SameKey, compared]
      exact ⟨Except.ok.inj, congrArg Except.ok⟩
    rw [← isFirst, ← isKey] at compared
    rw [peerBounds, compared, ok_bind]
    cases equal with
    | true =>
      refine ih isFirst left (by omega) (by omega) (fun other above below => ?_) before
      obtain inRun | rfl : other < start + size ∨ other = start + size := by omega
      · exact same other above inRun
      · exact sameNext.mpr rfl
    | false =>
      have apart : ¬ SameKey keys start (start + size) := fun equal =>
        Bool.false_ne_true (sameNext.mp equal)
      have different : ¬ SameKey keys (start + size) (start + size - 1) := fun equal =>
        apart (comparable.trans (same (start + size - 1) (by omega) (by omega))
          (comparable.symm equal))
      obtain ⟨later, ran, bounds⟩ := ih isKey left Nat.one_pos (by omega)
        (fun other above below => by
          obtain rfl : other = start + size := by omega
          exact comparable.refl _ more) (.inr different)
      rw [if_neg Bool.false_ne_true, ran, ok_bind]
      exact ⟨_, rfl, bounds.append inside fun _ =>
        comparable.peerRun inside same before (.inr apart)⟩

/-- Every position has its maximal run of equal keys. -/
theorem computeWindowPeerBounds_ok (comparable : KeysComparable keys)
    : ∃ starts ends, computeWindowPeerBounds keys = .ok (starts, ends)
      ∧ ∀ position < keys.length,
        PeerRun keys position (starts.getD position 0, ends.getD position 0) := by
  cases keys with
  | nil => exact ⟨[], [], rfl, by simp⟩
  | cons key rest =>
    have isFirst : key = (key :: rest).getD 0 [] := rfl
    obtain ⟨bounds, ran, length, runs⟩ := peerBounds_ok comparable isFirst
      (show rest = (key :: rest).drop (0 + 1) from rfl) Nat.one_pos (by simp)
      (fun other _ below => by
        obtain rfl : other = 0 := by omega
        exact comparable.refl 0 (by simp)) (.inl rfl)
    refine ⟨_, _, by rw [computeWindowPeerBounds, ran, ok_bind], fun position inside => ?_⟩
    have found := List.getElem?_eq_getElem (length ▸ inside : position < bounds.length)
    have run := runs position _ found
    rw [Nat.zero_add] at run
    simpa [found] using run

-- Frames

/-- The first and the last of the positions below `length` that are meant, if there are any. -/
def Delimits (length : Nat) (meant : Nat → Prop) : Option (Nat × Nat) → Prop
  | none => ∀ other < length, ¬ meant other
  | some (first, last) => first ≤ last ∧ last < length
    ∧ ∀ other < length, meant other ↔ first ≤ other ∧ other ≤ last

section

variable {length : Nat} {meant denoted : Nat → Prop} {result : Option (Nat × Nat)}

omit [ScalarPrimitives] in
/-- Only the positions of the partition matter. -/
theorem Delimits.congr (delimits : Delimits length meant result)
    (same : ∀ other < length, meant other ↔ denoted other) : Delimits length denoted result := by
  cases result with
  | none => exact fun other inside => (same other inside).not.mp (delimits other inside)
  | some bounds =>
    obtain ⟨ordered, inside, iff⟩ := delimits
    exact ⟨ordered, inside, fun other below => (same other below).symm.trans (iff other below)⟩

omit [ScalarPrimitives] in
/-- The result determines the positions. -/
theorem Delimits.unique (left : Delimits length meant result)
    (right : Delimits length denoted result) {other : Nat} (inside : other < length)
    : meant other ↔ denoted other := by
  cases result with
  | none => exact iff_of_false (left other inside) (right other inside)
  | some bounds => exact (left.2.2 other inside).trans (right.2.2 other inside).symm

omit [ScalarPrimitives] in
/-- The range of two bounds is clipped to the partition. -/
theorem normalizeWindowFrameRange_ok (start last : Int) (some : 0 < length)
    (small : length < 9223372036854775808)
    : ∃ result, normalizeWindowFrameRange start last length = .ok result
      ∧ Delimits length (fun other => start ≤ other ∧ other ≤ last) result := by
  rw [normalizeWindowFrameRange, if_neg (by omega), i64TryFrom, if_pos small, ok_bind]
  dsimp only
  split
  next empty =>
    refine ⟨_, rfl, fun other inside => ?_⟩
    simp only [clamp] at empty
    omega
  next nonempty =>
    simp only [clamp] at nonempty ⊢
    rw [usizeTryFrom, if_neg (by omega), ok_bind, usizeTryFrom, if_neg (by omega), ok_bind]
    refine ⟨_, rfl, by omega, by omega, fun other inside => ?_⟩
    omega

end

section

variable {Expr : Type} (evalExpr : Expr → List Value → DbResult Value) (row : List Value)
  (keys : List (List Value)) (ordinal : Nat)

def offsetOf (offset : Expr) : Int :=
  match evalExpr offset row with
  | .ok (.int64 value) => value.toInt
  | _ => 0

/-- All keys from one position to the other are equal. -/
def Peers (position other : Nat) : Prop :=
  other < keys.length ∧ ∀ between, min position other ≤ between → between ≤ max position other
    → SameKey keys position between

/-- The other position is not before the start of the frame of a row. -/
def FromStart (unit : WindowFrameUnit) (bound : WindowFrameBound Expr) (other : Nat) : Prop :=
  match unit, bound with
  | _, .unboundedPreceding => True
  | _, .unboundedFollowing => False
  | .rows, .currentRow => ordinal ≤ other
  | .range, .currentRow => ∃ peer, Peers keys ordinal peer ∧ peer ≤ other
  | _, .preceding offset => ordinal - offsetOf evalExpr row offset ≤ other
  | _, .following offset => ordinal + offsetOf evalExpr row offset ≤ other

/-- The other position is not after the end of the frame of a row. -/
def UpToEnd (unit : WindowFrameUnit) (bound : WindowFrameBound Expr) (other : Nat) : Prop :=
  match unit, bound with
  | _, .unboundedPreceding => False
  | _, .unboundedFollowing => True
  | .rows, .currentRow => other ≤ ordinal
  | .range, .currentRow => ∃ peer, Peers keys ordinal peer ∧ other ≤ peer
  | _, .preceding offset => other ≤ ordinal - offsetOf evalExpr row offset
  | _, .following offset => other ≤ ordinal + offsetOf evalExpr row offset

/-- Without a frame all rows are meant, or those up to the last peer if there is an order. -/
def InFrame (ordered : Bool) (frame : Option (WindowFrame Expr)) (other : Nat) : Prop :=
  match frame with
  | none => ordered = true → ∃ peer, Peers keys ordinal peer ∧ other ≤ peer
  | some frame => FromStart evalExpr row keys ordinal frame.unit frame.start other
    ∧ UpToEnd evalExpr row keys ordinal frame.unit (frame.endBound.getD .currentRow) other

/-- The position of a bound, which may be outside of the partition. -/
def positionOf (start : Bool) (peers : Nat × Nat) (unit : WindowFrameUnit)
    : WindowFrameBound Expr → Int
  | .unboundedPreceding => 0
  | .unboundedFollowing => if start then keys.length else keys.length - 1
  | .currentRow =>
    if unit = .rows then ordinal else if start then peers.1 else peers.2
  | .preceding offset => ordinal - offsetOf evalExpr row offset
  | .following offset => ordinal + offsetOf evalExpr row offset

/-- Offsets count rows and are not negative. -/
def ValidBound (unit : WindowFrameUnit) : WindowFrameBound Expr → Prop
  | .preceding offset | .following offset => unit = .rows
    ∧ ∃ value, evalExpr offset row = .ok (.int64 value) ∧ 0 ≤ value.toInt
  | _ => True

/-- A frame does not start after the partition or end before it. -/
structure ValidFrame (frame : WindowFrame Expr) : Prop where
  start : ValidBound evalExpr row frame.unit frame.start
  last : ValidBound evalExpr row frame.unit (frame.endBound.getD .currentRow)
  starts : frame.start ≠ .unboundedFollowing
  ends : frame.endBound ≠ some .unboundedPreceding

variable {evalExpr row keys ordinal} {unit : WindowFrameUnit} {bound : WindowFrameBound Expr}
  {peers : Nat × Nat} {other : Nat}

/-- The peers of a position are its run. -/
theorem PeerRun.peers_iff (run : PeerRun keys ordinal peers)
    : Peers keys ordinal other ↔ peers.1 ≤ other ∧ other ≤ peers.2 := by
  obtain ⟨first, last, inside, same, before, after⟩ := run
  constructor
  · rintro ⟨small, between⟩
    constructor
    · by_contra outside
      exact before.elim (by omega) fun different => different (between _ (by omega) (by omega))
    · by_contra outside
      exact after.elim (by omega) fun different => different (between _ (by omega) (by omega))
  · rintro ⟨above, below⟩
    exact ⟨by omega, fun between _ _ => same between (by omega) (by omega)⟩

/-- The start of the frame is a position. -/
theorem PeerRun.fromStart_iff (run : PeerRun keys ordinal peers)
    (starts : bound ≠ .unboundedFollowing)
    : FromStart evalExpr row keys ordinal unit bound other
      ↔ positionOf evalExpr row keys ordinal true peers unit bound ≤ other := by
  have first := run.first
  have last := run.last
  cases bound with
  | unboundedFollowing => exact absurd rfl starts
  | unboundedPreceding => simp [FromStart, positionOf]
  | currentRow =>
    cases unit with
    | rows => simp [FromStart, positionOf]
    | range =>
      simp only [FromStart, positionOf, run.peers_iff]
      constructor
      · rintro ⟨peer, ⟨above, -⟩, below⟩
        simp
        omega
      · intro above
        exact ⟨peers.1, ⟨le_rfl, by omega⟩, by simpa using above⟩
  | preceding offset | following offset => cases unit <;> rfl

/-- The end of the frame is a position. -/
theorem PeerRun.upToEnd_iff (run : PeerRun keys ordinal peers) (ends : bound ≠ .unboundedPreceding)
    (inside : other < keys.length)
    : UpToEnd evalExpr row keys ordinal unit bound other
      ↔ other ≤ positionOf evalExpr row keys ordinal false peers unit bound := by
  have first := run.first
  have last := run.last
  cases bound with
  | unboundedPreceding => exact absurd rfl ends
  | unboundedFollowing =>
    simp only [UpToEnd, positionOf, Bool.false_eq_true, if_false, true_iff]
    omega
  | currentRow =>
    cases unit with
    | rows => simp [UpToEnd, positionOf]
    | range =>
      simp only [UpToEnd, positionOf, run.peers_iff]
      constructor
      · rintro ⟨peer, ⟨-, below⟩, upTo⟩
        simp
        omega
      · intro below
        exact ⟨peers.2, ⟨by omega, le_rfl⟩, by simpa using below⟩
  | preceding offset | following offset => cases unit <;> rfl

/-- A bound is its position, computed in 64 bits. -/
theorem windowFrameBoundIndex_ok {start : Bool} {starts ends : List Nat}
    (run : PeerRun keys ordinal (starts.getD ordinal 0, ends.getD ordinal 0))
    (small : keys.length < 9223372036854775808) (valid : ValidBound evalExpr row unit bound)
    : windowFrameBoundIndex evalExpr row bound start ordinal keys.length starts ends unit
      = .ok (wrap (positionOf evalExpr row keys ordinal start
        (starts.getD ordinal 0, ends.getD ordinal 0) unit bound)) := by
  obtain ⟨first, last, inside, -, -, -⟩ := run
  dsimp only at first last inside
  have unchanged (value : Int) (lower : -1 ≤ value) (upper : value < 9223372036854775808)
      : wrap value = value := by
    unfold wrap
    omega
  rw [windowFrameBoundIndex, i64TryFrom, if_pos small, ok_bind, i64TryFrom, if_pos (by omega),
    ok_bind]
  cases bound with
  | unboundedPreceding => cases unit <;> rfl
  | unboundedFollowing =>
    rw [positionOf, unchanged _ (by split <;> omega) (by split <;> omega)]
    cases unit <;> rfl
  | currentRow =>
    cases unit with
    | rows =>
      rw [positionOf, if_pos rfl, unchanged _ (by omega) (by omega)]
    | range =>
      have position : positionOf evalExpr row keys ordinal start
          (starts.getD ordinal 0, ends.getD ordinal 0) .range .currentRow
          = if start then starts.getD ordinal 0 else ends.getD ordinal 0 := by
        cases start <;> rfl
      rw [position, unchanged _ (by split <;> omega) (by split <;> omega)]
      cases start <;> simp only [i64TryFrom, if_true, Bool.false_eq_true, if_false]
      · rw [if_pos (by omega)]
      · rw [if_pos (by omega)]
  | preceding offset | following offset =>
    obtain ⟨rfl, value, evaluated, positive⟩ := valid
    dsimp only
    rw [evalWindowFrameOffset, evaluated, ok_bind]
    dsimp only
    rw [if_pos positive, ok_bind, positionOf, offsetOf, evaluated]

end

/-- What 64-bit arithmetic makes of the bounds does not change the frame: a start that wraps around
belongs to an empty frame, and so does an end that does.
-/
def WrapHarmless (start last : Int) (length : Nat) : Prop :=
  (start < 9223372036854775808 ∨ last < 0 ∨ 9223372036854775808 ≤ last)
    ∧ (last < 9223372036854775808 ∨ length ≤ start)

section

variable {Expr : Type} {evalExpr : Expr → List Value → DbResult Value} {row : List Value}
  {ordinal : Nat} {peers : Nat × Nat} {unit : WindowFrameUnit} {bound : WindowFrameBound Expr}

/-- Offsets are below 2^63, so that a bound overflows at most once. -/
theorem PeerRun.positionOf_bounds (run : PeerRun keys ordinal peers)
    (small : keys.length < 9223372036854775808) (start : Bool)
    : -9223372036854775808 ≤ positionOf evalExpr row keys ordinal start peers unit bound
      ∧ positionOf evalExpr row keys ordinal start peers unit bound < 18446744073709551615 := by
  obtain ⟨first, last, inside, -, -, -⟩ := run
  have offset (offset : Expr) : -9223372036854775808 ≤ offsetOf evalExpr row offset
      ∧ offsetOf evalExpr row offset < 9223372036854775808 := by
    rw [offsetOf]
    split
    · exact ⟨Int64.le_toInt _, Int64.toInt_lt _⟩
    · decide
  cases bound with
  | unboundedPreceding => simp [positionOf]
  | unboundedFollowing | currentRow => simp only [positionOf]; split <;> (try split) <;> omega
  | preceding value | following value =>
    have := offset value
    simp only [positionOf]
    omega

end

omit [ScalarPrimitives] in
/-- The bounds that wrap around mean the same positions exactly if that is harmless: otherwise the
first or the last position of the partition is on the wrong side.
-/
theorem wrap_frame_iff {start last : Int} {length : Nat}
    (startBounds : -9223372036854775808 ≤ start ∧ start < 18446744073709551615)
    (lastBounds : -9223372036854775808 ≤ last ∧ last < 18446744073709551615)
    (small : length < 9223372036854775808) (some : 0 < length)
    : (∀ other < length, (wrap start ≤ (other : Int) ∧ (other : Int) ≤ wrap last)
        ↔ start ≤ other ∧ other ≤ last)
      ↔ WrapHarmless start last length := by
  have wrapped {value : Int} (bounds : -9223372036854775808 ≤ value ∧ value < 18446744073709551615)
      : wrap value
        = if value < 9223372036854775808 then value else value - 18446744073709551616 := by
    unfold wrap
    split <;> omega
  rw [wrapped startBounds, wrapped lastBounds]
  constructor
  · intro same
    have atFirst := same 0 some
    have atLast := same (length - 1) (by omega)
    constructor <;> by_contra harmful
    · rw [if_neg (by omega), if_pos (by omega)] at atFirst
      omega
    · rw [if_neg (show ¬ last < 9223372036854775808 by omega)] at atLast
      split at atLast <;> omega
  · rintro ⟨starts, ends⟩ other inside
    split <;> split <;> omega

section

variable {Expr OrderBy : Type} {evalExpr : Expr → List Value → DbResult Value} {row : List Value}
  {rows : List (List Value)} {sorted : List Nat} {orderBy : List OrderBy} {ordinal : Nat}

/-- Without a frame the rows up to the last peer are returned, or all of them without an order. -/
theorem PeerRun.delimits_none {peers : Nat × Nat} (run : PeerRun keys ordinal peers)
    : Delimits keys.length (InFrame evalExpr row keys ordinal (!orderBy.isEmpty) none)
      (some (0, if orderBy.isEmpty then keys.length - 1 else peers.2)) := by
  have inside := run.inside
  have first := run.first
  have last := run.last
  cases orderBy with
  | nil =>
    refine ⟨Nat.zero_le _, by simp; omega, fun other below => ?_⟩
    simp [InFrame]
    omega
  | cons order rest =>
    refine ⟨Nat.zero_le _, inside, fun other below => ?_⟩
    simp only [InFrame, List.isEmpty_cons, Bool.not_false, forall_const, run.peers_iff,
      Bool.false_eq_true, if_false, Nat.zero_le, true_and]
    constructor
    · rintro ⟨peer, ⟨-, small⟩, upTo⟩
      exact upTo.trans small
    · intro upTo
      exact ⟨peers.2, ⟨first.trans last, le_rfl⟩, upTo⟩

/-- The rows that a valid frame means are those from one position to the other. -/
theorem ValidFrame.inFrame_iff {frame : WindowFrame Expr} {peers : Nat × Nat} {other : Nat}
    {ordered : Bool} (valid : ValidFrame evalExpr row frame) (run : PeerRun keys ordinal peers)
    (inside : other < keys.length)
    : InFrame evalExpr row keys ordinal ordered (some frame) other
      ↔ positionOf evalExpr row keys ordinal true peers frame.unit frame.start ≤ other
        ∧ other ≤ positionOf evalExpr row keys ordinal false peers frame.unit
          (frame.endBound.getD .currentRow) := by
  have ends : frame.endBound.getD .currentRow ≠ .unboundedPreceding := by
    cases isEnd : frame.endBound with
    | none => simp
    | some bound => exact fun same => valid.ends (by rw [isEnd, ← same]; rfl)
  exact and_congr (run.fromStart_iff valid.starts) (run.upToEnd_iff ends inside)

/-- If there is a frame, a bound of it that wraps around is harmless. -/
def FrameFits (evalExpr : Expr → List Value → DbResult Value) (row : List Value)
    (keys : List (List Value)) (ordinal : Nat) (peers : Nat × Nat)
    : Option (WindowFrame Expr) → Prop
  | none => True
  | some frame => WrapHarmless
    (positionOf evalExpr row keys ordinal true peers frame.unit frame.start)
    (positionOf evalExpr row keys ordinal false peers frame.unit (frame.endBound.getD .currentRow))
    keys.length

/-- For every row of a sorted partition and every frame the first and the last position of the rows
that the frame means are returned, or nothing if it means none, exactly if no bound wraps around, or
if that is harmless.
-/
theorem window_frame_exact (orderBy : List OrderBy) (frame : Option (WindowFrame Expr))
    (comparable : KeysComparable keys)
    (sameLength : sorted.length = keys.length) (small : keys.length < 9223372036854775808)
    (inside : ordinal < keys.length) (isRow : sorted[ordinal]?.bind (rows[·]?) = some row)
    (valid : ∀ given ∈ frame, ValidFrame evalExpr row given)
    : ∃ starts ends, computeWindowPeerBounds keys = .ok (starts, ends)
      ∧ ((∃ result, windowFrameBoundsForRow evalExpr rows sorted orderBy starts ends ordinal frame
            = .ok result
          ∧ Delimits keys.length (InFrame evalExpr row keys ordinal (!orderBy.isEmpty) frame)
            result)
        ↔ FrameFits evalExpr row keys ordinal (starts.getD ordinal 0, ends.getD ordinal 0)
          frame) := by
  obtain ⟨starts, ends, computed, runs⟩ := computeWindowPeerBounds_ok comparable
  refine ⟨starts, ends, computed, ?_⟩
  have run := runs ordinal inside
  have some : 0 < keys.length := by omega
  have nonempty : sorted.isEmpty = false := by
    rw [List.isEmpty_eq_false_iff, ← List.length_pos_iff]
    omega
  unfold windowFrameBoundsForRow
  rw [nonempty, isRow, sameLength]
  cases frame with
  | none => exact iff_of_true ⟨_, rfl, run.delimits_none⟩ trivial
  | some frame =>
    have valid := valid frame rfl
    obtain ⟨result, normalized, delimits⟩ := normalizeWindowFrameRange_ok
      (wrap (positionOf evalExpr row keys ordinal true (starts.getD ordinal 0, ends.getD ordinal 0)
        frame.unit frame.start))
      (wrap (positionOf evalExpr row keys ordinal false (starts.getD ordinal 0, ends.getD ordinal 0)
        frame.unit (frame.endBound.getD .currentRow))) some small
    simp only [Bool.false_eq_true, if_false]
    rw [windowFrameBoundIndex_ok run small valid.start, ok_bind,
      windowFrameBoundIndex_ok run small valid.last, ok_bind, normalized]
    rw [FrameFits, ← wrap_frame_iff (run.positionOf_bounds small true)
      (run.positionOf_bounds small false) small some]
    constructor
    · rintro ⟨_, same, exact⟩ other below
      cases same
      exact (delimits.unique exact below).trans (valid.inFrame_iff run below)
    · intro same
      exact ⟨result, rfl, delimits.congr fun other below =>
        (same other below).trans (valid.inFrame_iff run below).symm⟩

end

end

/-- A frame of a partition of three rows without order keys, from one offset to another bound. -/
def frameOfThree (start : Int64) (last : WindowFrameBound Int64) (ordinal : Nat)
    : DbResult (Option (Nat × Nat)) :=
  @windowFrameBoundsForRow noTextScalars Int64 Unit (fun offset _ => .ok (.int64 offset))
    [[], [], []] [0, 1, 2] [] [0, 0, 0] [2, 2, 2] ordinal
    (some ⟨.rows, .following start, some last⟩)

/-- The row after the second one is the last of three. -/
theorem window_frame_exact_next : letI := noTextScalars
    ∃ starts ends, computeWindowPeerBounds [[], [], []] = .ok (starts, ends)
      ∧ ∃ result, windowFrameBoundsForRow (fun (offset : Int64) _ => .ok (.int64 offset))
          [[], [], []] [0, 1, 2] ([] : List Unit) starts ends 1
          (some ⟨.rows, .following 1, some .unboundedFollowing⟩) = .ok result
        ∧ Delimits 3 (InFrame (fun (offset : Int64) _ => .ok (.int64 offset)) [] [[], [], []] 1
          false (some ⟨.rows, .following 1, some .unboundedFollowing⟩)) result := by
  let _ := noTextScalars
  have empty (position : Nat) : [[], [], []].getD position ([] : List Value) = [] := by
    rcases position with _ | _ | _ | _ <;> rfl
  have same (position other : Nat) : SameKey [[], [], []] position other := by
    rw [SameKey, empty, empty]
    rfl
  have comparable : KeysComparable [[], [], []] :=
    ⟨fun position _ other _ => ⟨true, same position other⟩, fun _ _ => same _ _,
      fun _ => same _ _, fun _ _ => same _ _⟩
  have valid : ∀ given ∈ some ⟨.rows, .following (1 : Int64), some .unboundedFollowing⟩,
      ValidFrame (fun (offset : Int64) _ => .ok (.int64 offset)) [] given := by
    rintro given ⟨⟩
    exact ⟨⟨rfl, 1, rfl, by decide⟩, trivial, by simp, by simp⟩
  have isRow : [0, 1, 2][1]?.bind (([[], [], []] : List (List Value))[·]?) = some [] := rfl
  obtain ⟨starts, ends, computed, exact⟩ := window_frame_exact ([] : List Unit) _ comparable rfl
    (by decide) (show 1 < 3 by decide) isRow valid
  have startFits : ((1 : Nat) : Int) + Int64.toInt 1 < 9223372036854775808 := by decide
  have lastFits : ((3 : Nat) : Int) - 1 < 9223372036854775808 := by decide
  exact ⟨starts, ends, computed, exact.mpr ⟨.inl startFits, .inl lastFits⟩⟩

/-- From the second row on the start wraps around to a position before the partition, and the frame
that means no row covers all of them.
-/
theorem window_frame_wrap_counterexample
    : frameOfThree 9223372036854775807 .unboundedFollowing 1 = .ok (some (0, 2))
      ∧ ∀ other < 3, ¬ @InFrame noTextScalars Int64 (fun offset _ => .ok (.int64 offset)) []
        [[], [], []] 1 false
        (some ⟨.rows, .following 9223372036854775807, some .unboundedFollowing⟩) other := by
  refine ⟨by decide +kernel, fun other small meant => ?_⟩
  have start := meant.1
  simp [FromStart, offsetOf] at start
  omega

end DecentDb.Query
