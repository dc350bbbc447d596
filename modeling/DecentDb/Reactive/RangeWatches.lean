import DecentDb.Query.LookupAgreement
import DecentDb.Reactive.WatchEvents
import DecentDb.Record.HexText
import DecentDb.Record.SortableNumbers
import DecentDb.Sync.KeyedRows

/-! Watches on a range of primary keys: which changes of rows the executor captures, and when a
watch is told that the rows in its range have changed. It misses a change exactly if row changes
are published and none of them has the key of a row that came or went.
-/

namespace DecentDb.Reactive

open List Record Sync
open Sql (ColumnSchema TableSchema)

-- Commits

abbrev TableRows := String → List (List Value)

/-- A row that is written, as it was and as it is then. Some paths do not capture it. -/
structure RowWrite where
  table : TableSchema
  before : Option (List Value)
  after : Option (List Value)
  captured : Bool

section

variable [JsonPrimitives]

/-- The row whose key a change carries: the new one, or a deleted one. -/
def RowWrite.keyed (write : RowWrite) : Option (List Value) := write.after.or write.before

def RowWrite.recordSyncMutation (write : RowWrite) : Option RowChange :=
  if write.captured then write.keyed.map fun values =>
    { table := write.table.name, primaryKey := buildPrimaryKeyJson write.table values }
  else none

def RowWrite.apply (rows : TableRows) (write : RowWrite) : TableRows := fun table =>
  if table = write.table.name then
    (rows table).filter (some · ≠ write.before) ++ write.after.toList
  else rows table

def commitOf (writes : List RowWrite) (schemaChanged : Bool) : Commit TableRows where
  dirtyTables := writes.map (·.table.name)
  rowChanges := writes.filterMap RowWrite.recordSyncMutation
  schemaChanged
  change rows := writes.foldl RowWrite.apply rows

/-- The row changes that are published: none if there are too many. -/
def publishedChanges (maxRows : Nat) (commit : Commit TableRows) : List RowChange :=
  if 0 < maxRows ∧ maxRows < commit.rowChanges.length then [] else commit.rowChanges

-- Ranges of keys

/-- A range of keys, which a watch is given as JSON. -/
structure KeyRange where
  lower : Option Value
  upper : Option Value
  lowerInclusive : Bool
  upperInclusive : Bool

def KeyRange.toJson (table : TableSchema) (column : ColumnSchema) (range : KeyRange)
    : PrimaryKeyRange where
  table := table.name
  lower := range.lower.map (JsonPrimitives.columnValueToJson column)
  upper := range.upper.map (JsonPrimitives.columnValueToJson column)
  lowerInclusive := range.lowerInclusive
  upperInclusive := range.upperInclusive

/-- Whether a key is in the range, in the order of its type. -/
def KeyRange.Contains [ScalarPrimitives] (range : KeyRange) (key : Value) : Prop :=
  (∀ lower ∈ range.lower, compareValues key lower = .ok .gt
      ∨ range.lowerInclusive ∧ compareValues key lower = .ok .eq)
    ∧ ∀ upper ∈ range.upper, compareValues key upper = .ok .lt
      ∨ range.upperInclusive ∧ compareValues key upper = .ok .eq

/-- The keys of one type: numbers, times, texts, bytes or truth values. -/
def IsKeyOf (kind : ValueKind) (key : Value) : Prop :=
  valueKind key = kind ∧ kind ∈ [.int64, .timestamp, .text, .blob, .uuid, .bool, .float64]

/-- What `column_value_to_json` makes of such a key. An integer is read back from its literal,
which that of a `FLOAT64` never is; numbers that are not finite become `null`.
-/
def IsJsonOf : Value → Json → Prop
  | .int64 value, json | .timestampMicros value, json =>
    ∃ literal, json = .number literal ∧ asI64 literal = some value.toInt
  | .text value, json => json = .string value
  | .blob value, json => json = .string (hexText value)
  | .uuid value, json => json = .string (uuidText value)
  | .bool value, json => json = .bool value
  | .float64 _, json => json = .null ∨ ∃ literal, json = .number literal ∧ asI64 literal = none
  | _, _ => False

/-- Keys whose JSON is not compared, so that a range includes every captured change. -/
def Unordered (kind : ValueKind) : Prop := kind = .bool ∨ kind = .float64

/-- A user's table with its one key column, the rows of whose writes have keys of one type. -/
structure WatchedTable (table : TableSchema) (name : String) (position : Nat)
    (column : ColumnSchema) (kind : ValueKind) (writes : List RowWrite) : Prop where
  isUser : isInternalTableName table.name = false
  single : table.primaryKeyColumns = [name]
  placed : table.columnPosition name = some position
  isColumn : table.columns[position]? = some column
  json : ∀ key, IsKeyOf kind key → IsJsonOf key (JsonPrimitives.columnValueToJson column key)
  schema : ∀ write ∈ writes, write.table.name = table.name → write.table = table
  keyed : ∀ write ∈ writes, write.table = table →
    ∀ values, write.before = some values ∨ write.after = some values
      → ∃ key, values[position]? = some key ∧ IsKeyOf kind key

variable {table : TableSchema} {name : String} {position maxRows : Nat} {column : ColumnSchema}
  {kind : ValueKind} {writes : List RowWrite} {range : KeyRange} {rows : TableRows}
  {row values : List Value} {key other : Value} {schemaChanged : Bool}

-- Keys and their JSON

section

variable {json otherJson : Json}

omit [JsonPrimitives] in
/-- Where JSON is not compared, it is not. -/
theorem IsKeyOf.compareJson_none (isKey : IsKeyOf kind key) (isJson : IsJsonOf key json)
    (unordered : Unordered kind) : compareJsonKey json otherJson = none := by
  obtain ⟨rfl, -⟩ := isKey
  cases key with
  | bool value =>
    cases isJson
    rfl
  | float64 value =>
    obtain rfl | ⟨literal, rfl, noInteger⟩ := isJson
    · rfl
    · cases otherJson with
      | number other => simp [compareJsonKey, noInteger]
      | _ => rfl
  | _ => simp [Unordered, valueKind] at unordered

variable [ScalarPrimitives]

omit [JsonPrimitives] in
/-- Other keys of one type are compared like their JSON. -/
theorem IsKeyOf.compareJson (isKey : IsKeyOf kind key) (isOther : IsKeyOf kind other)
    (isJson : IsJsonOf key json) (isOtherJson : IsJsonOf other otherJson)
    (ordered : ¬ Unordered kind)
    : ∃ ordering, compareValues key other = .ok ordering
      ∧ compareJsonKey json otherJson = some ordering := by
  obtain ⟨rfl, isKind⟩ := isKey
  obtain ⟨same, -⟩ := isOther
  cases key with
  | int64 left | timestampMicros left =>
    cases other <;> cases same
    rename_i right
    obtain ⟨leftLiteral, rfl, readsLeft⟩ := isJson
    obtain ⟨rightLiteral, rfl, readsRight⟩ := isOtherJson
    refine ⟨_, rfl, ?_⟩
    rw [compareJsonKey, readsLeft, readsRight, compare_int64]
    rfl
  | text left =>
    cases other <;> cases same
    cases isJson
    cases isOtherJson
    exact ⟨_, rfl, rfl⟩
  | blob left =>
    cases other <;> cases same
    cases isJson
    cases isOtherJson
    exact ⟨_, rfl, congrArg some (compare_hexText _ _)⟩
  | uuid left =>
    cases other <;> cases same
    cases isJson
    cases isOtherJson
    exact ⟨_, rfl, congrArg some (compare_uuidText _ _)⟩
  | bool value => exact absurd (.inl rfl) ordered
  | float64 value => exact absurd (.inr rfl) ordered
  | _ => simp [valueKind] at isKind

omit [JsonPrimitives] in
/-- Equal keys of one type are the same. -/
theorem IsKeyOf.eq_of_compare (isKey : IsKeyOf kind key) (isOther : IsKeyOf kind other)
    (equal : compareValues key other = .ok .eq) : key = other := by
  cases sameValue_of_equal (isKey.1.trans isOther.1.symm) equal with
  | refl => rfl
  | _ =>
    obtain ⟨rfl, isKind⟩ := isKey
    simp [valueKind] at isKind

omit [JsonPrimitives] in
/-- A key is equal to itself. -/
theorem IsKeyOf.compare_self (isKey : IsKeyOf kind key) : compareValues key key = .ok .eq := by
  obtain ⟨rfl, isKind⟩ := isKey
  cases key with
  | int64 value | timestampMicros value | text value | blob value | uuid value | bool value =>
    exact congrArg Except.ok Std.ReflOrd.compare_self
  | float64 value => exact congrArg Except.ok (totalCmp_eq_iff.mpr rfl)
  | _ => simp [valueKind] at isKind

omit [JsonPrimitives] in
/-- The range from a key to itself has this key only. -/
theorem IsKeyOf.contains_self_iff (isKey : IsKeyOf kind key) (isOther : IsKeyOf kind other)
    : KeyRange.Contains ⟨some key, some key, true, true⟩ other ↔ other = key := by
  constructor
  · rintro ⟨above, below⟩
    apply isOther.eq_of_compare isKey
    rcases above key rfl with greater | ⟨-, same⟩
    · rcases below key rfl with smaller | ⟨-, same⟩
      · cases greater.symm.trans smaller
      · exact same
    · exact same
  · rintro rfl
    have equal := isKey.compare_self
    exact ⟨fun lower isLower => Option.some.inj isLower ▸ .inr ⟨rfl, equal⟩,
      fun upper isUpper => Option.some.inj isUpper ▸ .inr ⟨rfl, equal⟩⟩

end

namespace WatchedTable

variable (watched : WatchedTable table name position column kind writes)
include watched

/-- The key of a change is the JSON of the row's key. -/
theorem primaryKey (isKey : values[position]? = some key)
    : primaryKeySingleValue (buildPrimaryKeyJson table values)
      = some (JsonPrimitives.columnValueToJson column key) := by
  simp [primaryKeySingleValue, buildPrimaryKeyJson, Json.asObject, watched.single, watched.placed,
    watched.isColumn, isKey]

variable [ScalarPrimitives]

/-- A range includes a change exactly if it contains its key, or keys are not compared. -/
theorem includesChange_iff (isKey : values[position]? = some key) (keyed : IsKeyOf kind key)
    (lower : ∀ bound ∈ range.lower, IsKeyOf kind bound)
    (upper : ∀ bound ∈ range.upper, IsKeyOf kind bound)
    : (range.toJson table column).includesChange ⟨table.name, buildPrimaryKeyJson table values⟩
      ↔ Unordered kind ∨ range.Contains key := by
  have isJson := watched.json key keyed
  simp only [PrimaryKeyRange.includesChange, KeyRange.toJson, watched.primaryKey isKey, ne_eq,
    not_true, if_false, Bool.and_eq_true, Option.all_eq_true, Bool.or_eq_true, decide_eq_true_eq,
    Option.map_eq_some_iff, forall_exists_index, and_imp, forall_apply_eq_imp_iff₂,
    KeyRange.Contains, Option.mem_def]
  by_cases unordered : Unordered kind
  · simp [keyed.compareJson_none isJson unordered, unordered]
  rw [or_iff_right unordered]
  refine and_congr (forall₂_congr fun bound isBound => ?_) (forall₂_congr fun bound isBound => ?_)
  · obtain ⟨ordering, compared, asJson⟩ := keyed.compareJson (lower bound isBound) isJson
      (watched.json bound (lower bound isBound)) unordered
    rw [compared, asJson]
    simp
  · obtain ⟨ordering, compared, asJson⟩ := keyed.compareJson (upper bound isBound) isJson
      (watched.json bound (upper bound isBound)) unordered
    rw [compared, asJson]
    simp

end WatchedTable

-- Changed rows

/-- The row is in the table before or after the commit and not at both times. -/
def ChangedBy (table : TableSchema) (writes : List RowWrite) (rows : TableRows) (row : List Value)
    : Prop :=
  ¬(row ∈ writes.foldl RowWrite.apply rows table.name ↔ row ∈ rows table.name)

omit [JsonPrimitives] in
/-- Rows that no write names stay as they are, by induction on the writes. -/
theorem mem_foldl_apply (untouched : ∀ write ∈ writes, write.table.name = table.name
      → write.before ≠ some row ∧ write.after ≠ some row)
    : row ∈ writes.foldl RowWrite.apply rows table.name ↔ row ∈ rows table.name := by
  induction writes generalizing rows with
  | nil => rfl
  | cons write rest ih =>
    obtain ⟨first, others⟩ := forall_mem_cons.mp untouched
    rw [foldl_cons, ih others, RowWrite.apply]
    split
    next same =>
      obtain ⟨before, after⟩ := first same.symm
      simp [before.symm, after]
    next => rfl

omit [JsonPrimitives] in
/-- A row that came or went is one of a write's. -/
theorem ChangedBy.written (changed : ChangedBy table writes rows row)
    : ∃ write ∈ writes, write.table.name = table.name
      ∧ (write.before = some row ∨ write.after = some row) := by
  by_contra untouched
  refine changed (mem_foldl_apply fun write member same => ?_)
  exact not_or.mp fun touched => untouched ⟨write, member, same, touched⟩

/-- The key is that of a captured write: of its new row or the deleted one. -/
def KeyCaptured (table : TableSchema) (position : Nat) (writes : List RowWrite) (key : Value)
    : Prop :=
  ∃ write ∈ writes, write.table = table ∧ write.captured
    ∧ ∃ values, write.keyed = some values ∧ values[position]? = some key

section

variable {Result : Type} {filter : PrimaryKeyRange}

/-- A range watch wants a commit to its table exactly if it publishes no row changes or one that
the range includes.
-/
theorem wants_range_iff (isUser : isInternalTableName filter.table = false)
    (dirty : filter.table ∈ writes.map (·.table.name))
    : (WatchFilter.range filter : WatchFilter TableRows Result).wants maxRows
        (commitOf writes schemaChanged)
      ↔ publishedChanges maxRows (commitOf writes schemaChanged) = []
        ∨ ∃ change ∈ publishedChanges maxRows (commitOf writes schemaChanged),
          filter.includesChange change := by
  have changed : filter.table ∈ (writes.map (·.table.name)).filter
      (fun table => !isInternalTableName table) := mem_filter.mpr ⟨dirty, by rw [isUser]; rfl⟩
  have listed : filter.table ∈ (writes.map (·.table.name)).filter
      (fun table => !isInternalTableName table)
      ++ (commitOf writes schemaChanged).rowChanges.map (·.table) := mem_append_left _ changed
  have notEmpty := isEmpty_eq_false_iff_exists_mem.mpr ⟨_, listed⟩
  have named : (((writes.map (·.table.name)).filter (fun table => !isInternalTableName table)
      ++ (commitOf writes schemaChanged).rowChanges.map (·.table)).any (· = filter.table)) :=
    any_eq_true.mpr ⟨_, listed, decide_eq_true rfl⟩
  have dirtyTables : (commitOf writes schemaChanged).dirtyTables = writes.map (·.table.name) := rfl
  simp only [WatchFilter.wants, takeReactivePendingCommit, dirtyTables, Bool.not_true, notEmpty,
    Bool.false_and, Bool.false_eq_true, if_false, Option.any_some, WatchFilter.matches, named,
    Bool.or_true, Bool.true_and, Bool.or_eq_true, List.isEmpty_iff, any_eq_true, publishedChanges,
    decide_eq_true_eq]

end

namespace WatchedTable

variable (watched : WatchedTable table name position column kind writes)
include watched

/-- The rows that came or went have keys of the type. -/
theorem isKeyOf_changed (found : row[position]? = some key)
    (changed : ChangedBy table writes rows row) : IsKeyOf kind key := by
  obtain ⟨write, member, same, touched⟩ := changed.written
  obtain ⟨own, isOwn, keyed⟩ :=
    watched.keyed write member (watched.schema write member same) row touched
  exact Option.some.inj (isOwn.symm.trans found) ▸ keyed

/-- Captured keys are of the type. -/
theorem isKeyOf_captured (captured : KeyCaptured table position writes key)
    : IsKeyOf kind key := by
  obtain ⟨write, member, isTable, -, values, isKeyed, found⟩ := captured
  obtain ⟨own, isOwn, keyed⟩ := watched.keyed write member isTable values
    ((Option.or_eq_some_iff.mp isKeyed).elim .inr fun before => .inl before.2)
  exact Option.some.inj (isOwn.symm.trans found) ▸ keyed

variable [ScalarPrimitives]

/-- A commit records a change that the range includes, exactly if it captures a key in it. -/
theorem recorded_iff (lower : ∀ bound ∈ range.lower, IsKeyOf kind bound)
    (upper : ∀ bound ∈ range.upper, IsKeyOf kind bound)
    : (∃ change ∈ (commitOf writes schemaChanged).rowChanges,
        (range.toJson table column).includesChange change)
      ↔ ∃ key, KeyCaptured table position writes key ∧ (Unordered kind ∨ range.Contains key) := by
  constructor
  · rintro ⟨change, isChange, included⟩
    obtain ⟨write, member, made⟩ := mem_filterMap.mp isChange
    rw [RowWrite.recordSyncMutation] at made
    split at made
    next isCaptured =>
      obtain ⟨values, isKeyed, rfl⟩ := Option.map_eq_some_iff.mp made
      have sameName : write.table.name = table.name := by
        by_contra different
        simp [PrimaryKeyRange.includesChange, KeyRange.toJson, different] at included
      have isTable := watched.schema write member sameName
      obtain ⟨key, found, keyed⟩ := watched.keyed write member isTable values
        ((Option.or_eq_some_iff.mp isKeyed).elim .inr fun before => .inl before.2)
      rw [isTable] at included
      exact ⟨key, ⟨write, member, isTable, isCaptured, values, isKeyed, found⟩,
        (watched.includesChange_iff found keyed lower upper).mp included⟩
    next => cases made
  · rintro ⟨key, captured, inside⟩
    have keyed := watched.isKeyOf_captured captured
    obtain ⟨write, member, isTable, isCaptured, values, isKeyed, found⟩ := captured
    refine ⟨⟨table.name, buildPrimaryKeyJson table values⟩, mem_filterMap.mpr ⟨write, member, ?_⟩,
      (watched.includesChange_iff found keyed lower upper).mpr inside⟩
    rw [RowWrite.recordSyncMutation, if_pos isCaptured, isKeyed, isTable]
    rfl

/-- A range watch wants a commit that changes a row of the table exactly if it publishes no row
changes or captures a key in the range.
-/
theorem wants_iff {Result : Type} (changed : ChangedBy table writes rows row)
    (lower : ∀ bound ∈ range.lower, IsKeyOf kind bound)
    (upper : ∀ bound ∈ range.upper, IsKeyOf kind bound)
    : (WatchFilter.range (range.toJson table column) : WatchFilter TableRows Result).wants maxRows
        (commitOf writes schemaChanged)
      ↔ publishedChanges maxRows (commitOf writes schemaChanged) = []
        ∨ ∃ key, KeyCaptured table position writes key
          ∧ (Unordered kind ∨ range.Contains key) := by
  obtain ⟨write, member, same, -⟩ := changed.written
  rw [wants_range_iff watched.isUser (mem_map.mpr ⟨write, member, same⟩), publishedChanges]
  split
  · simp
  · rw [watched.recorded_iff lower upper]

end WatchedTable

end

def item (id : String) : List Value := [.text id, .text "name"]

/-- The items with keys up to `m`. -/
def firstItems : KeyRange := ⟨none, some (.text "m"), true, true⟩

/-- The items table is a watched one. -/
theorem itemsTable_watched {writes : List RowWrite} (items : ∀ write ∈ writes,
      write.table = itemsTable ∧ ∀ values, write.before = some values ∨ write.after = some values
        → ∃ id, values = item id)
    : @WatchedTable textJson itemsTable "id" 0 (textColumn "id") .text writes := by
  let _ := textJson
  refine ⟨by decide, rfl, rfl, rfl, fun key isKey => ?_, fun write member _ =>
    (items write member).1, fun write member _ values touched => ?_⟩
  · obtain ⟨isText, -⟩ := isKey
    cases key <;> cases isText
    rfl
  · obtain ⟨id, rfl⟩ := (items write member).2 values touched
    exact ⟨.text id, rfl, rfl, by decide⟩

end DecentDb.Reactive
