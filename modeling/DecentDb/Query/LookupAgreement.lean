import DecentDb.Library.Lists
import DecentDb.Query.IndexedLookup

/-! When the rows that an index finds for a value are those that a scan keeps. -/

namespace DecentDb.Query

open List Results Record
open Sql (ColumnSchema ColumnType IndexSchema TableSchema)

-- What a rebuilt index holds

/-- The key of a row whose key can be computed and is not left out. -/
def rowKey (table : TableSchema) (unique : Bool) (columnName : String) (row : StoredRow)
    : Option RuntimeBtreeKey :=
  (computeIndexKey table unique columnName row.values).toOption.join

variable {index : IndexSchema} {table : TableSchema}
  {columnName left right text indexColumn : String} {entries after : List (RuntimeBtreeKey × Int64)}
  {row : StoredRow} {rows passing : List StoredRow} {keys : RuntimeBtreeKeys}
  {value coerced cell : Value} {position : Nat} {probe filed : Option RuntimeBtreeKey}

/-- A row that is filed adds its entry, if it has a key, at the end. -/
theorem fileRow_ok (filed : fileRow index table columnName entries row = .ok after)
    : (∃ key, computeIndexKey table index.unique columnName row.values = .ok key) ∧ after = entries
        ++ ((rowKey table index.unique columnName row).map fun key => (key, row.rowId)).toList := by
  obtain ⟨key, computed, filed⟩ := bind_eq_ok.mp filed
  refine ⟨⟨key, computed⟩, ?_⟩
  rw [rowKey, computed]
  cases key with
  | none =>
    cases filed
    exact (append_nil _).symm
  | some key =>
    dsimp only at filed
    split at filed <;> cases filed
    · rfl

/-- By induction on the rows. -/
theorem fileRows_ok (filed : rows.foldlM (fileRow index table columnName) entries = .ok after)
    : (∀ row ∈ rows, ∃ key, computeIndexKey table index.unique columnName row.values = .ok key)
      ∧ after = entries ++ rows.filterMap fun row =>
        (rowKey table index.unique columnName row).map fun key => (key, row.rowId) := by
  induction rows generalizing entries with
  | nil =>
    cases filed
    exact ⟨nofun, (append_nil _).symm⟩
  | cons row rest ih =>
    obtain ⟨middle, first, others⟩ := bind_eq_ok.mp filed
    obtain ⟨computed, rfl⟩ := fileRow_ok first
    obtain ⟨restComputed, rfl⟩ := ih others
    refine ⟨forall_mem_cons.mpr ⟨computed, restComputed⟩, ?_⟩
    rw [filterMap_cons, append_assoc]
    cases rowKey table index.unique columnName row <;> rfl

/-- The entries under a key are those of the rows with that key. -/
theorem rowIds_filterMap (keyOf : StoredRow → Option RuntimeBtreeKey) (key : RuntimeBtreeKey)
    (rows : List StoredRow)
    : ((rows.filterMap fun row => (keyOf row).map fun key => (key, row.rowId)).filter
      fun entry => entry.1 = key).map Prod.snd
      = (rows.filter fun row => keyOf row = some key).map StoredRow.rowId := by
  induction rows with
  | nil => rfl
  | cons row rest ih =>
    rw [filterMap_cons, filter_cons]
    cases keyOf row with
    | none => simpa using ih
    | some other =>
      by_cases same : other = key
      · simp [same, ← ih]
      · simp [same, ← ih]

/-- Rows of the table are found by their ids. -/
theorem datasetFromRowIdSet_filter (table : IndexedTable) (keep : StoredRow → Bool)
    : table.datasetFromRowIdSet ((table.rows.filter keep).map StoredRow.rowId)
      = table.rows.filter keep := by
  have found : ∀ row ∈ table.rows.filter keep,
    (table.rows.find? fun other => other.rowId = row.rowId) = some row := by
    intro row member
    have member := (mem_filter.mp member).1
    cases search : table.rows.find? fun other => other.rowId = row.rowId with
    | none => simpa using find?_eq_none.mp search row member
    | some other =>
      have same : other.rowId = row.rowId := by simpa using find?_some search
      exact congrArg some (inj_on_of_nodup_map table.rowIds
        (mem_of_find?_eq_some search) member same)
  rw [IndexedTable.datasetFromRowIdSet, filterMap_map]
  exact (filterMap_congr found).trans filterMap_some

/-- Row ids are unique, so looking one up is a filter. -/
theorem datasetFromRowIdSet_singleton (table : IndexedTable) (rowId : Int64)
    : table.datasetFromRowIdSet [rowId] = table.rows.filter fun row => row.rowId = rowId := by
  rw [filter_key_eq_toList_find? table.rowIds, IndexedTable.datasetFromRowIdSet, filterMap_cons]
  cases table.rows.find? fun row => row.rowId = rowId <;> rfl

/-- The rows that a rebuilt index returns for a key. -/
theorem datasetFromRowIdSet_rebuilt {table : IndexedTable}
    (built : buildRuntimeIndex index table.schema columnName table.rows = .ok keys)
    (probe : Option RuntimeBtreeKey)
    : table.datasetFromRowIdSet (probe.elim [] keys.rowIdsForKey) = table.rows.filter fun row =>
        probe.any fun key => rowKey table.schema index.unique columnName row = some key := by
  cases probe with
  | none => simp [IndexedTable.datasetFromRowIdSet]
  | some key =>
    obtain ⟨entries, filed, isKeys⟩ := bind_eq_ok.mp built
    cases isKeys
    obtain ⟨-, rfl⟩ := fileRows_ok filed
    refine (congrArg table.datasetFromRowIdSet (rowIds_filterMap _ key table.rows)).trans ?_
    rw [datasetFromRowIdSet_filter]
    rfl

/-- Names that are equal up to case name the same column. -/
theorem schemaColumnIndex_congr (table : TableSchema) (same : identifiersEqual left right)
    : schemaColumnIndex table left = schemaColumnIndex table right := by
  have same : left.toList.map Char.toLower = right.toList.map Char.toLower := of_decide_eq_true same
  simp [schemaColumnIndex, identifiersEqual, same]

section

variable [ScalarPrimitives]

-- What the coercion of a text keeps

section

variable (coercion : coerceLookupLiteral table columnName value = .ok coerced)
include coercion

/-- A coerced value is the value itself, the decimal that a text reads as, or of one of the
types that no text can be compared with.
-/
theorem coerceLookupLiteral_cases : coerced = value ∨ ∃ text, value = .text text
      ∧ ((∃ decimal, parseDecimalText text = .ok decimal
        ∧ coerced = .decimal (.ofInt decimal.1) (.ofNat decimal.2))
        ∨ valueKind coerced ∈ [.uuid, .date, .timestamp, .timestampTz]) := by
  cases value with
  | text text =>
    rw [coerceLookupLiteral] at coercion
    split at coercion
    · cases coercion
    next column _ =>
      generalize column.columnType = columnType at coercion
      cases columnType with
      | decimal =>
        rw [coerceText] at coercion
        split at coercion
        next scaled scale parsed =>
          cases coercion
          exact .inr ⟨text, rfl, .inl ⟨(scaled, scale), parsed, rfl⟩⟩
        next => exact .inl (Except.ok.inj coercion).symm
      | uuid | date | timestamp | timestampTz =>
        obtain ⟨inner, -, rfl⟩ := map_eq_ok.mp coercion
        exact .inr ⟨text, rfl, .inr (by simp [valueKind])⟩
      | _ => exact .inl (Except.ok.inj coercion).symm
  | _ => exact .inl (Except.ok.inj coercion).symm

/-- A value that compares equal to a literal, and is of the type that the literal is coerced
to, is the same value as the coerced one.
-/
theorem sameValue_of_coerced
    (kind : valueKind cell = valueKind coerced) (equal : compareValues cell value = .ok .eq)
    : SameValue cell coerced := by
  rcases coerceLookupLiteral_cases coercion with rfl | ⟨text, rfl, ⟨decimal, parsed, rfl⟩ | other⟩
  · exact sameValue_of_equal kind equal
  · cases cell with
    | decimal scaled scale =>
      have compared : compareDecimal scaled.toInt scale.toNat decimal.1 decimal.2 = .eq := by
        rw [compareValues, compareNumericTextValues, parsed] at equal
        exact Except.ok.inj equal
      refine .decimal ?_
      -- A parsed decimal fits its types.
      obtain ⟨-, below, above, scale⟩ := parseDecimalText_ok parsed
      rw [Int64.toInt_ofInt_of_le below above, UInt8.toNat_ofNat', Nat.mod_eq_of_lt (by omega)]
      exact (compareDecimal_eq_iff _ _ _ _).mp compared
    | _ => cases kind
  rw [← kind] at other
  cases cell with
  | uuid | dateDays | timestampMicros | timestampTzMicros => cases equal
  | _ => simp [valueKind] at other

end

-- Which rows the index finds

/-- The value can be looked up under keys of this form: typed keys find nothing for other
types, encoded ones need a key.
-/
def Keyable (form : KeyForm) (value : Value) : Prop := ∃ key, lookupKey form value = .ok key

/-- A row that compares equal is found exactly if it is of the type of the coerced value and
not left out of a unique index.
-/
theorem valueKey_eq_lookupKey {unique : Bool} {form : KeyForm}
    (coercion : coerceLookupLiteral table columnName value = .ok coerced)
    (equal : compareValues cell value = .ok .eq) (isFiled : valueKey unique form cell = .ok filed)
    (isProbe : lookupKey form coerced = .ok probe)
    : (∃ key, probe = some key ∧ filed = some key)
      ↔ valueKind cell = valueKind coerced ∧ ¬ (unique ∧ cell = .null) := by
  cases form with
  | encoded =>
    obtain ⟨coercedKey, encoded, isKey⟩ := bind_eq_ok.mp isProbe
    cases isKey
    rw [valueKey] at isFiled
    split at isFiled
    next leftOut =>
      cases isFiled
      simp [leftOut]
    next kept =>
      obtain ⟨cellKey, cellEncoded, isKey⟩ := bind_eq_ok.mp isFiled
      cases isKey
      constructor
      · rintro ⟨key, isCoerced, isCell⟩
        cases isCoerced
        cases isCell
        exact ⟨kind_eq_of_encode cellEncoded encoded, kept⟩
      rintro ⟨kind, -⟩
      have same := encodeRuntimeIndexKey_same (sameValue_of_coerced coercion kind equal)
      rw [cellEncoded, encoded] at same
      cases same
      exact ⟨_, rfl, rfl⟩
  | int64 | uuid =>
    -- Only a value of the form's own type is filed.
    cases cell <;> cases isFiled
    constructor
    · rintro ⟨key, rfl, isKey⟩
      cases isKey
      cases coerced <;> cases isProbe
      exact ⟨rfl, by simp⟩
    rintro ⟨kind, -⟩
    cases sameValue_of_coerced coercion kind equal
    cases isProbe
    exact ⟨_, rfl, rfl⟩

-- Lookup and scan

def EqualAt (position : Nat) (value : Value) (row : StoredRow) : Prop :=
  compareValues (row.values.getD position .null) value = .ok .eq

instance (position : Nat) (value : Value) (row : StoredRow)
    : Decidable (EqualAt position value row) :=
  inferInstanceAs (Decidable (_ = _))

/-- Every row can be compared with the value. -/
def Comparable (position : Nat) (value : Value) (rows : List StoredRow) : Prop :=
  ∀ row ∈ rows, ∃ ordering, compareValues (row.values.getD position .null) value = .ok ordering

/-- The scan succeeds exactly if the value can be compared with that of every row. -/
theorem filterResults_eq : filterResults (satisfiesFilter position value) rows = .ok passing
      ↔ Comparable position value rows
        ∧ passing = rows.filter fun row => EqualAt position value row := by
  have passes : ∀ row, (satisfiesFilter position value row).toOption = some true
    ↔ EqualAt position value row := by
    intro row
    rw [satisfiesFilter, EqualAt]
    cases compareValues (row.values.getD position .null) value <;> simp [Except.toOption]
  have succeeds : ∀ row, (∃ passed, satisfiesFilter position value row = .ok passed)
    ↔ ∃ ordering, compareValues (row.values.getD position .null) value = .ok ordering := by
    intro row
    rw [satisfiesFilter]
    cases compareValues (row.values.getD position .null) value <;> simp
  rw [filterResults_ok]
  simp [passes, succeeds, Comparable]

/-- Of some rows the scan keeps what it keeps of all rows exactly if none of those is
missing.
-/
theorem filterResults_filter (comparable : Comparable position value rows)
    (found : StoredRow → Bool)
    : filterResults (satisfiesFilter position value) (rows.filter found)
      = .ok (rows.filter fun row => EqualAt position value row)
      ↔ ∀ row ∈ rows, EqualAt position value row → found row := by
  have subset : Comparable position value (rows.filter found) :=
    fun row member => comparable row (mem_of_mem_filter member)
  rw [filterResults_eq, filter_filter]
  constructor
  · rintro ⟨-, same⟩ row member equal
    have kept : row ∈ rows.filter fun row => EqualAt position value row :=
      mem_filter.mpr ⟨member, decide_eq_true equal⟩
    rw [same, mem_filter, Bool.and_eq_true] at kept
    exact kept.2.2
  intro complete
  refine ⟨subset, filter_congr fun row member => ?_⟩
  by_cases equal : EqualAt position value row
  · simp [complete row member equal]
  · simp [equal]

/-- The coercion succeeds and, where the index is used, the coerced value has a key and every
row that compares equal is of its type and not left out.
-/
def IndexReaches (table : IndexedTable) (columnName : String) (position : Nat) (value : Value)
    (index : TableIndex) : Prop :=
  ∃ coerced, coerceLookupLiteral table.schema columnName value = .ok coerced
    ∧ (timestampLookupMatchesSchema table.schema columnName coerced
      → ∀ keys ∈ index.keys, Keyable keys.form coerced
        ∧ ∀ row ∈ table.rows, EqualAt position value row
          → valueKind (row.values.getD position .null) = valueKind coerced
            ∧ ¬ (index.schema.unique ∧ row.values.getD position .null = .null))

/-- Through the alias, the value has to be the row id itself. -/
def LookupReaches (table : IndexedTable) (columnName : String) (value : Value) : Prop :=
  ∀ position, schemaColumnIndex table.schema columnName = some position
    → Comparable position value table.rows → table.schema.generatedColumnsAreStored
    → if table.isRowIdAlias columnName then
      ∀ row ∈ table.rows, EqualAt position value row → value = .int64 row.rowId
      else ∀ index ∈ table.lookupIndex columnName, IndexReaches table columnName position value index

variable {table : IndexedTable}

/-- Which of the rows that compare equal a rebuilt index returns. -/
theorem rowKey_rebuilt_iff
    (built : buildRuntimeIndex index table.schema indexColumn table.rows = .ok keys)
    (isColumn : schemaColumnIndex table.schema indexColumn = some position)
    (coercion : coerceLookupLiteral table.schema columnName value = .ok coerced)
    (probed : lookupKey keys.form coerced = .ok probe) (member : row ∈ table.rows)
    (equal : EqualAt position value row)
    : (probe.any fun key => rowKey table.schema index.unique indexColumn row = some key)
      ↔ valueKind (row.values.getD position .null) = valueKind coerced
        ∧ ¬ (index.unique ∧ row.values.getD position .null = .null) := by
  obtain ⟨entries, rowsFiled, isKeys⟩ := bind_eq_ok.mp built
  cases isKeys
  obtain ⟨filed, isFiled⟩ := (fileRows_ok rowsFiled).1 row member
  have isKey : rowKey table.schema index.unique indexColumn row = filed := by
    rw [rowKey, isFiled]
    rfl
  rw [computeIndexKey, isColumn] at isFiled
  rw [isKey, ← valueKey_eq_lookupKey coercion equal isFiled probed, Option.any_eq_true]
  simp

/-- The lookup through an index, where every row can be compared with the value. -/
theorem indexLookup_agrees_iff {index : TableIndex} (used : index ∈ table.lookupIndex columnName)
    (isColumn : schemaColumnIndex table.schema columnName = some position)
    (comparable : Comparable position value table.rows)
    : (∃ found, indexLookup table columnName value index = .ok found
      ∧ ∀ rows ∈ found, filterResults (satisfiesFilter position value) rows
        = .ok (table.rows.filter fun row => EqualAt position value row))
      ↔ IndexReaches table columnName position value index := by
  have usable := find?_some used
  rw [Bool.and_eq_true, Option.any_eq_true] at usable
  obtain ⟨fresh, indexColumn, plain, sameName⟩ := usable
  rw [← schemaColumnIndex_congr table.schema sameName] at isColumn
  rw [indexLookup, IndexReaches]
  cases coercion : coerceLookupLiteral table.schema columnName value with
  | error error => simp
  | ok coerced =>
    rw [ok_bind]
    by_cases applies : timestampLookupMatchesSchema table.schema columnName coerced
    · rw [if_pos applies]
      cases hasKeys : index.keys with
      | none => simp
      | some keys =>
        have built := table.rebuilt index (mem_of_find?_eq_some used) fresh indexColumn
          plain keys hasKeys
        cases probed : lookupKey keys.form coerced with
        | error error => simp [RuntimeBtreeKeys.rowIdsForValueSet, Keyable, probed, applies]
        | ok probe =>
          simp only [RuntimeBtreeKeys.rowIdsForValueSet, probed, ok_bind]
          constructor
          · rintro ⟨found, ran, agrees⟩
            cases ran
            have complete := agrees _ rfl
            rw [datasetFromRowIdSet_rebuilt built, filterResults_filter comparable] at complete
            refine ⟨coerced, rfl, fun _ other isKeys => ?_⟩
            cases isKeys
            exact ⟨⟨probe, probed⟩, fun row member equal =>
              (rowKey_rebuilt_iff built isColumn coercion probed member equal).mp
                (complete row member equal)⟩
          rintro ⟨other, same, reaches⟩
          cases same
          refine ⟨_, rfl, fun rows isRows => ?_⟩
          cases isRows
          rw [datasetFromRowIdSet_rebuilt built, filterResults_filter comparable]
          exact fun row member equal =>
            (rowKey_rebuilt_iff built isColumn coercion probed member equal).mpr
              ((reaches applies keys rfl).2 row member equal)
    · rw [if_neg applies]
      simp [applies]

/-- The lookup through the row-id alias. -/
theorem aliasLookup_agrees_iff (comparable : Comparable position value table.rows)
    : filterResults (satisfiesFilter position value) (aliasRows table value)
      = .ok (table.rows.filter fun row => EqualAt position value row)
      ↔ ∀ row ∈ table.rows, EqualAt position value row → value = .int64 row.rowId := by
  have rows : aliasRows table value = table.rows.filter fun row => value = .int64 row.rowId := by
    cases value with
    | int64 rowId =>
      rw [aliasRows, datasetFromRowIdSet_singleton]
      exact filter_congr fun row _ => by simp [eq_comm]
    | _ => simp [aliasRows]
  rw [rows, filterResults_filter comparable]
  simp

/-- Where a lookup uses an index at all, it agrees with the scan exactly if every row that the scan
keeps is found under the key of the value.
-/
theorem lookup_agrees_iff (isColumn : schemaColumnIndex table.schema columnName = some position)
    (comparable : Comparable position value table.rows)
    : (∃ found, indexedTableLookup table columnName value = .ok found
      ∧ ∀ rows ∈ found, filterResults (satisfiesFilter position value) rows
        = .ok (table.rows.filter fun row => EqualAt position value row))
      ↔ (table.schema.generatedColumnsAreStored → if table.isRowIdAlias columnName then
          ∀ row ∈ table.rows, EqualAt position value row → value = .int64 row.rowId
          else ∀ index ∈ table.lookupIndex columnName,
            IndexReaches table columnName position value index) := by
  rw [indexedTableLookup]
  by_cases stored : table.schema.generatedColumnsAreStored
  · rw [stored]
    simp only [Bool.not_true, Bool.false_eq_true, if_false, true_implies]
    by_cases isAlias : table.isRowIdAlias columnName
    · rw [if_pos isAlias, if_pos isAlias, ← aliasLookup_agrees_iff comparable]
      simp
    rw [if_neg isAlias, if_neg isAlias]
    cases used : table.lookupIndex columnName with
    | none => simp
    | some index =>
      rw [indexLookup_agrees_iff used isColumn comparable]
      simp
  · simp [stored]

/-- A lookup agrees with the scan exactly if, where it applies and the scan raises no error,
the literal can be coerced and encoded and the type of every row that compares equal is that of
the coerced literal.
-/
theorem indexed_lookup_agrees_iff (table : IndexedTable) (columnName : String) (value : Value)
    : LookupAgrees table columnName value ↔ LookupReaches table columnName value := by
  rw [LookupAgrees, LookupReaches]
  simp only [filterRows]
  cases isColumn : schemaColumnIndex table.schema columnName with
  | none => exact ⟨fun _ => nofun, fun _ => nofun⟩
  | some position =>
    constructor
    · intro agrees other isPosition comparable
      cases isPosition
      exact (lookup_agrees_iff isColumn comparable).mp
        (agrees _ (filterResults_eq.mpr ⟨comparable, rfl⟩))
    · intro reaches scanned scan
      obtain ⟨comparable, rfl⟩ := filterResults_eq.mp scan
      exact (lookup_agrees_iff isColumn comparable).mpr (reaches position rfl comparable)

end

/-- No text reads as a value of another type, and all numbers are the same. -/
@[reducible]
def noTextScalars : ScalarPrimitives where
  int64ToFloat _ := ⟨0⟩
  decimalToFloat _ _ := ⟨0⟩
  parseUuidText _ := .error (.sql "invalid UUID cast")
  parseDateDays _ := .error (.sql "invalid DATE cast")
  parseDatetimeMicros _ := .error (.sql "invalid TIMESTAMP cast")
  parseTimestampTzMicros _ := .error (.sql "invalid TIMESTAMPTZ cast")
  debug _ := ""

/-- One row under an identifier that the unique index on `id` holds. -/
def devices : IndexedTable where
  schema := {
    name := "devices"
    columns := [{
      name := "id", columnType := .uuid, nullable := false, generated := none
      generatedStored := false, autoIncrement := false }]
    primaryKeyColumns := ["id"] }
  rows := [{ rowId := 1, values := [.uuid (.replicate 16 7)] }]
  indexes := [{
    schema := {
      name := "devices_id", unique := true, columns := [.column "id"], predicate := none
      fresh := true }
    keys := some { form := .uuid, entries := [(.uuid (.replicate 16 7), 1)] } }]
  rowIds := by decide
  widths := by decide
  rebuilt := by
    intro index member _ columnName isColumn keys isKeys
    cases mem_singleton.mp member
    cases isColumn
    cases isKeys
    rfl

/-- The scan compares the identifier with the sixteen bytes of a blob and keeps the row; the
index has no key for a blob.
-/
theorem blob_lookup_misses_uuid_counterexample
    : ¬ @LookupAgrees noTextScalars devices "id" (.blob (replicate 16 7)) := by
  intro agrees
  have scan : @filterRows noTextScalars devices.schema "id" (.blob (replicate 16 7)) devices.rows
    = .ok devices.rows := by decide +kernel
  have lookup : @indexedTableLookup noTextScalars devices "id" (.blob (replicate 16 7))
    = .ok (some []) := by decide +kernel
  obtain ⟨found, looked, agree⟩ := agrees _ scan
  rw [lookup] at looked
  cases looked
  cases agree [] rfl

end DecentDb.Query
