import DecentDb.Query.RowIdentity

/-! How often a set operation returns a row. Rows are told apart by the bytes of an encoding that
has the type of every value, while values of different types may compare as equal.
-/

namespace DecentDb.Query

open List Record
open Std (ExtTreeMap)

-- The operations

def seeRow (seen : ExtTreeMap (List UInt8) (List Value)) (row : List Value)
    : DbResult (ExtTreeMap (List UInt8) (List Value)) := do
  let identity ← rowIdentity row
  .ok (seen.insertIfNew identity row)

/-- The first row of every identity, in the order of the identities. -/
def deduplicateRows (rows : List (List Value)) : DbResult (List (List Value)) := do
  let seen ← rows.foldlM seeRow ∅
  .ok (seen.toList.map (·.2))

abbrev Counts := ExtTreeMap (List UInt8) Nat

section

variable (counts : Counts)

def countRow (row : List Value) : DbResult Counts := do
  let identity ← rowIdentity row
  .ok (counts.insert identity (counts.getD identity 0 + 1))

def countRowIdentities (rows : List (List Value)) : DbResult Counts := rows.foldlM countRow ∅

def consumeRowIdentityCount (identity : List UInt8) : Bool × Counts :=
  let remaining := counts.getD identity 0
  if 0 < remaining then (true, counts.insert identity (remaining - 1)) else (false, counts)

def containsIdentity (identity : List UInt8) : Bool × Counts :=
  (counts.contains identity, counts)

end

/-- The rows that are found, or those that are not. -/
def keepRows (find : Counts → List UInt8 → Bool × Counts) (wanted : Bool)
    : Counts → List (List Value) → DbResult (List (List Value))
  | _, [] => .ok []
  | counts, row :: rows => do
    let identity ← rowIdentity row
    let kept ← keepRows find wanted (find counts identity).2 rows
    .ok (if (find counts identity).1 = wanted then row :: kept else kept)

def selectRows (wanted all : Bool) (left right : List (List Value))
    : DbResult (List (List Value)) := do
  let rightCounts ← countRowIdentities right
  if all then keepRows consumeRowIdentityCount wanted rightCounts left
  else do
    let rows ← keepRows containsIdentity wanted rightCounts left
    deduplicateRows rows

inductive SetOperation where
  | union
  | intersect
  | except

structure Dataset (Column : Type) where
  columns : List Column
  rows : List (List Value)

def evaluateSetOperation {Column : Type} (op : SetOperation) (all : Bool)
    (left right : Dataset Column) : DbResult (Dataset Column) :=
  if left.columns.length ≠ right.columns.length then
    .error (.sql "set operations require matching column counts")
  else do
    let rows ← match op with
      | .union =>
        if all then .ok (left.rows ++ right.rows) else deduplicateRows (left.rows ++ right.rows)
      | .intersect => selectRows true all left.rows right.rows
      | .except => selectRows false all left.rows right.rows
    .ok { columns := left.columns, rows }

-- Multiplicities

/-- How often a row is to be returned that is `left` and `right` times in the datasets. -/
def SetOperation.expected (left right : Nat) : SetOperation → Bool → Nat
  | .union, true => left + right
  | .union, false => if 0 < left + right then 1 else 0
  | .intersect, true => min left right
  | .intersect, false => if 0 < left ∧ 0 < right then 1 else 0
  | .except, true => left - right
  | .except, false => if 0 < left ∧ right = 0 then 1 else 0

section

variable {key : List Value → List UInt8} {rows left right : List (List Value)}
  (keyed : ∀ row ∈ rows, rowIdentity row = .ok (key row))
include keyed

/-- The counters count the rows with each identity. -/
theorem countRowIdentities_spec : ∃ counts, countRowIdentities rows = .ok counts
      ∧ ∀ identity, counts.getD identity 0 = (rows.map key).count identity
        ∧ counts.contains identity = decide (identity ∈ rows.map key) := by
  unfold countRowIdentities
  induction rows using reverseRecOn with
  | nil => exact ⟨∅, rfl, by simp⟩
  | append_singleton rows row ih =>
    obtain ⟨others, last⟩ := forall_mem_append.mp keyed
    obtain ⟨counts, ran, spec⟩ := ih others
    refine ⟨counts.insert (key row) (counts.getD (key row) 0 + 1), ?_, fun identity => ?_⟩
    · simp [ran, countRow, last row]
    by_cases same : key row = identity
    · subst same
      simp [spec]
    · simp [ExtTreeMap.getD_insert, same, Ne.symm same, spec]

/-- One row of each identity is kept. -/
theorem deduplicateRows_spec : ∃ kept, deduplicateRows rows = .ok kept ∧ kept ⊆ rows
      ∧ ∀ identity, (kept.map key).count identity = if identity ∈ rows.map key then 1 else 0 := by
  have loop : ∃ seen, rows.foldlM seeRow ∅ = .ok seen
      ∧ (∀ identity row, seen[identity]? = some row → row ∈ rows ∧ key row = identity)
      ∧ ∀ identity, identity ∈ seen ↔ identity ∈ rows.map key := by
    induction rows using reverseRecOn with
    | nil => exact ⟨∅, rfl, by simp⟩
    | append_singleton rows row ih =>
      obtain ⟨others, last⟩ := forall_mem_append.mp keyed
      obtain ⟨seen, ran, entries, identities⟩ := ih others
      refine ⟨seen.insertIfNew (key row) row, ?_, fun identity found => ?_, fun identity => ?_⟩
      · simp [ran, seeRow, last row]
      · rw [ExtTreeMap.getElem?_insertIfNew]
        split
        next new =>
          rintro ⟨⟩
          simpa using new.1
        next =>
          intro old
          simp [entries identity found old]
      · simp [identities, or_comm, eq_comm (a := identity)]
  obtain ⟨seen, ran, entries, identities⟩ := loop
  have known (entry) (listed : entry ∈ seen.toList) : entry.2 ∈ rows ∧ key entry.2 = entry.1 :=
    entries _ _ (ExtTreeMap.mem_toList_iff_getElem?_eq_some.mp listed)
  refine ⟨seen.toList.map (·.2), by rw [deduplicateRows, ran]; rfl, ?_, fun identity => ?_⟩
  · intro row listed
    obtain ⟨entry, member, rfl⟩ := mem_map.mp listed
    exact (known entry member).1
  have keys : (seen.toList.map (·.2)).map key = seen.keys := by
    rw [← ExtTreeMap.map_fst_toList_eq_keys, map_map]
    exact map_congr_left fun entry listed => (known entry listed).2
  simp [keys, ExtTreeMap.nodup_keys.count, identities]

/-- Rows are kept by whether their identity was counted. -/
theorem keepRows_contains (wanted : Bool) (counts : Counts)
    : keepRows containsIdentity wanted counts rows
      = .ok (rows.filter fun row => counts.contains (key row) = wanted) := by
  induction rows with
  | nil => rfl
  | cons row rows ih =>
    obtain ⟨first, others⟩ := forall_mem_cons.mp keyed
    rw [keepRows, first, ok_bind, containsIdentity, ih others, filter_cons]
    simp

omit keyed in
/-- A positive counter is used up by one; the others stay. -/
theorem consumeRowIdentityCount_spec (counts : Counts) (identity : List UInt8)
    : (consumeRowIdentityCount counts identity).1 = decide (0 < counts.getD identity 0)
      ∧ ∀ other, (consumeRowIdentityCount counts identity).2.getD other 0
        = counts.getD other 0 - if identity = other then 1 else 0 := by
  unfold consumeRowIdentityCount
  dsimp only
  split
  next some =>
    refine ⟨by simp [some], fun other => ?_⟩
    by_cases same : identity = other <;> simp [ExtTreeMap.getD_insert, same]
  next none =>
    refine ⟨by simp [none], fun other => ?_⟩
    by_cases same : identity = other
    · subst same
      simp
      omega
    · simp [same]

/-- A row is found as often as it is counted, by induction on the rows. -/
theorem keepRows_consume (wanted : Bool) (counts : Counts)
    : ∃ kept, keepRows consumeRowIdentityCount wanted counts rows = .ok kept ∧ kept ⊆ rows
      ∧ ∀ identity, (kept.map key).count identity
        = if wanted then min ((rows.map key).count identity) (counts.getD identity 0)
          else (rows.map key).count identity - counts.getD identity 0 := by
  induction rows generalizing counts with
  | nil => exact ⟨[], rfl, by simp, by simp⟩
  | cons row rows ih =>
    obtain ⟨first, others⟩ := forall_mem_cons.mp keyed
    obtain ⟨found, left⟩ := consumeRowIdentityCount_spec counts (key row)
    obtain ⟨kept, ran, inside, spec⟩ := ih others (consumeRowIdentityCount counts (key row)).2
    refine ⟨_, by rw [keepRows, first, ok_bind, ran]; rfl, ?_, fun identity => ?_⟩
    · split
      · exact cons_subset_cons row inside
      · exact subset_cons_of_subset row inside
    · have rest := spec identity
      rw [left] at rest
      rw [found, map_cons, count_cons]
      by_cases same : key row = identity
      · subst same
        cases wanted <;> split <;> simp_all <;> omega
      · cases wanted <;> split <;> simp_all

omit keyed in
/-- Intersection and difference. -/
theorem selectRows_spec (wanted all : Bool)
    (leftKeyed : ∀ row ∈ left, rowIdentity row = .ok (key row))
    (rightKeyed : ∀ row ∈ right, rowIdentity row = .ok (key row))
    : ∃ rows, selectRows wanted all left right = .ok rows ∧ rows ⊆ left
      ∧ ∀ identity, (rows.map key).count identity
        = (if wanted then SetOperation.intersect else .except).expected
          ((left.map key).count identity) ((right.map key).count identity) all := by
  obtain ⟨counts, counting, spec⟩ := countRowIdentities_spec rightKeyed
  rw [selectRows, counting, ok_bind]
  cases all with
  | true =>
    obtain ⟨rows, ran, inside, counted⟩ := keepRows_consume leftKeyed wanted counts
    refine ⟨rows, ran, inside, fun identity => ?_⟩
    rw [counted, (spec identity).1]
    cases wanted <;> rfl
  | false =>
    have kept : ∀ row ∈ left.filter fun row => counts.contains (key row) = wanted,
        rowIdentity row = .ok (key row) :=
      fun row listed => leftKeyed row (mem_of_mem_filter listed)
    obtain ⟨rows, ran, inside, counted⟩ := deduplicateRows_spec kept
    refine ⟨rows, ?_, fun row listed => mem_of_mem_filter (inside listed), fun identity => ?_⟩
    · rw [if_neg Bool.false_ne_true, keepRows_contains leftKeyed]
      exact ran
    have both : identity ∈ (left.filter fun row => counts.contains (key row) = wanted).map key
        ↔ identity ∈ left.map key ∧ counts.contains identity = wanted := by
      grind
    rw [counted, if_congr both rfl rfl]
    cases wanted <;> simp [SetOperation.expected, count_eq_zero, spec]

end

section

variable [ScalarPrimitives]

def sameValue (left right : Value) : Bool :=
  left = .null && right = .null || compareValues left right = .ok .eq

def sameRow (left right : List Value) : Bool := left.isEqv right sameValue

def multiplicity (row : List Value) (rows : List (List Value)) : Nat := rows.countP (sameRow row)

/-- Every row has an identity, which it shares with the rows that are the same. -/
def IdentifiesRows (rows : List (List Value)) : Prop :=
  ∀ row ∈ rows, ∃ identity, rowIdentity row = .ok identity
    ∧ ∀ other ∈ rows, sameRow row other ↔ rowIdentity other = .ok identity

/-- The operation returns rows of the datasets only, each as often as it should. -/
def CountsRows {Column : Type} (op : SetOperation) (all : Bool) (left right : Dataset Column)
    : Prop :=
  ∃ result, evaluateSetOperation op all left right = .ok result
    ∧ result.rows ⊆ left.rows ++ right.rows
    ∧ ∀ row ∈ left.rows ++ right.rows, multiplicity row result.rows
      = op.expected (multiplicity row left.rows) (multiplicity row right.rows) all

/-- Where identities tell rows apart as the comparison does, set operations return every row as
often as they should.
-/
theorem IdentifiesRows.countsRows {Column : Type} {left right : Dataset Column}
    (identifies : IdentifiesRows (left.rows ++ right.rows))
    (widths : left.columns.length = right.columns.length) (op : SetOperation) (all : Bool)
    : CountsRows op all left right := by
  choose! key told using identifies
  obtain ⟨leftKeyed, rightKeyed⟩ := forall_mem_append.mp fun row member => (told row member).1
  have counted (row) (member : row ∈ left.rows ++ right.rows) (rows)
      (inside : rows ⊆ left.rows ++ right.rows)
      : multiplicity row rows = (rows.map key).count (key row) := by
    rw [count_eq_countP, countP_map]
    refine countP_congr fun other listed => ?_
    rw [(told row member).2 other (inside listed), (told other (inside listed)).1]
    simp
  obtain ⟨rows, ran, inside, spec⟩ : ∃ rows, evaluateSetOperation op all left right
      = .ok { columns := left.columns, rows } ∧ rows ⊆ left.rows ++ right.rows
      ∧ ∀ identity, (rows.map key).count identity = op.expected
        ((left.rows.map key).count identity) ((right.rows.map key).count identity) all := by
    rw [evaluateSetOperation, if_neg (not_not.mpr widths)]
    have select (wanted) := selectRows_spec wanted all leftKeyed rightKeyed
    cases op with
    | union =>
      cases all with
      | true => exact ⟨_, rfl, Subset.refl _, by simp [SetOperation.expected]⟩
      | false =>
        obtain ⟨rows, ran, inside, spec⟩ :=
          deduplicateRows_spec (forall_mem_append.mpr ⟨leftKeyed, rightKeyed⟩)
        refine ⟨rows, by simp [ran], inside, fun identity => ?_⟩
        rw [spec, SetOperation.expected, ← count_append, ← map_append]
        exact if_congr count_pos_iff.symm rfl rfl
    | intersect =>
      obtain ⟨rows, ran, inside, spec⟩ := select true
      exact ⟨rows, by rw [ran]; rfl, fun _ listed => mem_append_left _ (inside listed), spec⟩
    | except =>
      obtain ⟨rows, ran, inside, spec⟩ := select false
      exact ⟨rows, by rw [ran]; rfl, fun _ listed => mem_append_left _ (inside listed), spec⟩
  refine ⟨_, ran, inside, fun row member => ?_⟩
  rw [counted row member rows inside, counted row member _ (subset_append_left _ _),
    counted row member _ (subset_append_right _ _), spec]

-- Rows that are the same

/-- Rows are the same column by column. -/
theorem sameRow_iff {left right : List Value}
    : sameRow left right ↔ Forall₂ (sameValue · ·) left right := by
  induction left generalizing right with
  | nil => cases right <;> simp [sameRow, isEqv]
  | cons value rest ih =>
    cases right with
    | nil => simp [sameRow, isEqv]
    | cons other others =>
      rw [forall₂_cons, ← ih]
      simp [sameRow, isEqv]

variable {value left right : Value} {ordering : Ordering}

/-- A value that is comparable with itself equals itself, by cases on the type. -/
theorem compareValues_self (compared : compareValues value value = .ok ordering)
    : ordering = .eq := by
  cases value
  case ipAddr | cidr | macAddr =>
    obtain ⟨-, -, compared⟩ := bind_eq_ok.mp compared
    obtain ⟨-, -, compared⟩ := bind_eq_ok.mp compared
    cases compared
    simp
  case geometry | geography => cases compared
  case float64 => exact (Except.ok.inj compared).symm.trans (totalCmp_eq_iff.mpr rfl)
  case decimal => exact (Except.ok.inj compared).symm.trans ((compareDecimal_eq_iff ..).mpr rfl)
  all_goals
    cases compared
    simp [compareInterval]

/-- Values that nothing tells apart are equal if they are comparable. -/
theorem SameIdentity.compare_eq (same : SameIdentity left right)
    (compared : compareValues left right = .ok ordering) : ordering = .eq := by
  cases same with
  | value same =>
    cases same with
    | refl value => exact compareValues_self compared
    | decimal normal =>
      exact (Except.ok.inj compared).symm.trans ((compareDecimal_eq_iff ..).mpr normal)
    | ipAddr bytes | cidr bytes =>
      obtain ⟨-, -, compared⟩ := bind_eq_ok.mp compared
      obtain ⟨-, -, compared⟩ := bind_eq_ok.mp compared
      cases compared
      simp [bytes]
  | withoutZone micros | withZone micros =>
    cases compared
    simp

/-- A value that is comparable with itself has a field: both make the same checks. -/
theorem encodes_of_comparable (compared : compareValues value value = .ok ordering)
    : Encodes value := by
  cases value
  case ipAddr | macAddr =>
    obtain ⟨⟨⟩, valid, -⟩ := bind_eq_ok.mp compared
    exact ⟨_, bind_eq_ok.mpr ⟨(), valid, rfl⟩⟩
  case cidr family prefixLen network =>
    obtain ⟨⟨⟩, valid, -⟩ := bind_eq_ok.mp compared
    obtain ⟨⟨⟩, known, -⟩ := bind_eq_ok.mp valid
    have isFamily : family = 4 ∨ family = 6 := by
      by_contra unknown
      rw [validateIpFamilyPayload, if_neg unknown] at known
      cases known
    exact ⟨_, (if_pos isFamily).trans (bind_eq_ok.mpr ⟨(), valid, rfl⟩)⟩
  case geometry | geography => cases compared
  all_goals exact ⟨_, rfl⟩

/-- The columns of the rows are comparable, and every text and blob is shorter than its length
field can say.
-/
structure ComparableRows (rows : List Value → Prop) : Prop where
  columns : ∀ left right, rows left → rows right
    → Forall₂ (fun left right => ∃ ordering, compareValues left right = .ok ordering) left right
  short : ∀ row, rows row → ∀ value ∈ row, payloadSize value < 2 ^ 64

namespace ComparableRows

variable {rows : List Value → Prop} {left right : List Value}

/-- The values of comparable rows can be written. -/
theorem encodes (comparable : ComparableRows rows) (isRow : rows left)
    : ∀ value ∈ left, Encodes value := by
  have self := comparable.columns left left isRow isRow
  intro value member
  rw [forall₂_same] at self
  obtain ⟨ordering, compared⟩ := self value member
  exact encodes_of_comparable compared

variable (comparable : ComparableRows rows) (isLeft : rows left) (isRight : rows right)
include comparable isLeft isRight

/-- Rows have the same identity exactly if nothing tells their values apart. -/
theorem rowIdentity_eq_iff
    : rowIdentity left = rowIdentity right ↔ Forall₂ SameIdentity left right :=
  Query.rowIdentity_eq_iff (comparable.columns left right isLeft isRight).length_eq
    (comparable.encodes isLeft) (comparable.encodes isRight) (comparable.short left isLeft)
    (comparable.short right isRight)

/-- Rows that nothing tells apart are the same, by induction on them. -/
theorem sameRow (same : Forall₂ SameIdentity left right) : sameRow left right := by
  have compared := comparable.columns left right isLeft isRight
  clear isLeft isRight
  rw [sameRow_iff]
  induction same with
  | nil => exact .nil
  | cons first rest ih =>
    obtain ⟨⟨ordering, equal⟩, others⟩ := forall₂_cons.mp compared
    obtain rfl := first.compare_eq equal
    exact .cons (by simp [sameValue, equal]) (ih others)

end ComparableRows

/-- The union of two rows with different identities returns both. -/
theorem ComparableRows.union_returns {Column : Type} {columns : List Column}
    {rows : List Value → Prop} {left right : List Value} {result : Dataset Column}
    (comparable : ComparableRows rows) (isLeft : rows left) (isRight : rows right)
    (apart : rowIdentity left ≠ rowIdentity right)
    (ran : evaluateSetOperation .union false ⟨columns, [left]⟩ ⟨columns, [right]⟩ = .ok result)
    : [left, right] ⊆ result.rows := by
  have first := rowIdentity_eq (comparable.encodes isLeft)
  have second := rowIdentity_eq (comparable.encodes isRight)
  have keyed : ∀ row ∈ [left, right], rowIdentity row
      = .ok (encodeVarintU64 (.ofNat row.length) ++ frames (row.map identityField)) := by
    simp [first, second]
  obtain ⟨kept, deduplicated, inside, counts⟩ := deduplicateRows_spec keyed
  have rows : result.rows = kept := by
    rw [evaluateSetOperation, if_neg (not_not.mpr rfl)] at ran
    obtain ⟨_, found, ran⟩ := bind_eq_ok.mp ran
    cases ran
    exact Except.ok.inj (found.symm.trans deduplicated)
  rw [rows]
  intro row listed
  have present : 0 < (kept.map fun row => encodeVarintU64 (.ofNat row.length)
      ++ frames (row.map identityField)).count
        (encodeVarintU64 (.ofNat row.length) ++ frames (row.map identityField)) := by
    rw [counts, if_pos (mem_map_of_mem listed)]
    exact Nat.one_pos
  obtain ⟨found, member, same⟩ := mem_map.mp (count_pos_iff.mp present)
  have identities : rowIdentity found = rowIdentity row := by
    rw [keyed found (inside member), keyed row listed, same]
  have known := inside member
  simp only [mem_cons, not_mem_nil, or_false] at known listed
  rcases known with rfl | rfl <;> rcases listed with rfl | rfl
  · exact member
  · exact absurd identities apart
  · exact absurd identities.symm apart
  · exact member

end

end DecentDb.Query
