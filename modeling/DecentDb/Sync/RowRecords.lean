import DecentDb.Sync.ExportedBatches
import DecentDb.Sync.RowEffects
import DecentDb.Sync.Shapes

/-! The record of a row: its payloads hold the values of the row, so that it names the row,
has the row as its image and is in a scope that filters on keys exactly if the row is.
-/

namespace DecentDb.Sync

open JsonPrimitives List Option Results

open Sql (ColumnSchema TableSchema)

variable [JsonPrimitives]

-- Tables and rows

/-- The columns of a table have different names, and its primary key names some of them. -/
structure TableSound (table : TableSchema) : Prop where
  distinct : (table.columns.map (·.name)).Nodup
  declared : ∀ name ∈ table.primaryKeyColumns, ∃ column ∈ table.columns, column.name = name

variable (table : TableSchema)

/-- A row has a value for each column, and JSON keeps the values. -/
def RowFits (values : List Value) : Prop :=
  values.length = table.columns.length ∧ ∀ entry ∈ table.columns.zip values,
    jsonToColumnValue table.name entry.1
      (columnValueToJson entry.1 entry.2) = .ok entry.2

/-- The JSON of the value in the column with the name. -/
def jsonAt (values : List Value) (name : String) : Option Json :=
  (table.columnPosition name).bind fun position => (table.columns[position]?).bind fun column =>
    (values[position]?).map (columnValueToJson column)

/-- By induction on the columns: both sides take the first column with the name. -/
theorem lookup_columns (columns : List ColumnSchema) (values : List Value) (name : String)
    : ((columns.zip values).map fun (column, value) =>
      (column.name, columnValueToJson column value)).lookup name
      = (columns.findIdx? fun column => column.name = name).bind fun position =>
        (columns[position]?).bind fun column =>
          (values[position]?).map (columnValueToJson column) := by
  induction columns generalizing values with
  | nil => rfl
  | cons column rest ih =>
    cases values with
    | nil => simp
    | cons value values =>
      by_cases named : column.name = name
      · simp [findIdx?_cons, named]
      have different : (name == column.name) = false := by simpa using Ne.symm named
      simp only [zip_cons_cons, map_cons, lookup_cons, different, ih values,
        findIdx?_cons, named, decide_false, Bool.false_eq_true, if_false, bind_map]
      rfl

variable {name columnName : String} {position : Nat} {column : ColumnSchema}
  {table other : TableSchema} {values : List Value} {record : SyncJournalRecord}
  {tables : List TableSchema} {operation : SyncOperation} {scope : SyncScope}

omit [JsonPrimitives] in
/-- Each name is looked up as its own field. -/
theorem lookup_names (names : List String) (field : String → Option Json) (member : name ∈ names)
    : (names.filterMap fun name => (field name).map (name, ·)).lookup name = field name := by
  have absent : ∀ rest : List String, field name = none
    → (rest.filterMap fun name => (field name).map (name, ·)).lookup name = none := by
    intro rest unknown
    refine lookup_eq_none_iff.mpr fun entry inside => ?_
    obtain ⟨other, -, found⟩ := mem_filterMap.mp inside
    obtain ⟨json, isField, rfl⟩ := map_eq_some_iff.mp found
    rw [bne_iff_ne]
    rintro rfl
    rw [unknown] at isField
    cases isField
  induction names with
  | nil => cases member
  | cons first rest ih =>
    cases known : field name with
    | none => exact absent _ known
    | some json =>
      by_cases same : first = name
      · simp [same, known]
      have later := (mem_cons.mp member).resolve_left (Ne.symm same)
      have different : (name == first) = false := by simpa using Ne.symm same
      rw [← known, ← ih later, filterMap_cons]
      cases field first with
      | none => rfl
      | some other => simp [lookup_cons, different]

section

/-- The fields of an after image. -/
def afterOf (table : TableSchema) (values : List Value) : List (String × Json) :=
  (table.columns.zip values).map fun (column, value) =>
    (column.name, columnValueToJson column value)

/-- The fields of a primary key. -/
def primaryKeyOf (table : TableSchema) (values : List Value) : List (String × Json) :=
  table.primaryKeyColumns.filterMap fun name => (jsonAt table values name).map (name, ·)

/-- The key of a record is an object of the key columns. -/
theorem buildPrimaryKeyJson_asObject
    : (buildPrimaryKeyJson table values).asObject = some (primaryKeyOf table values) := by
  rw [buildPrimaryKeyJson, primaryKeyOf, Json.asObject]
  refine congrArg some (filterMap_congr fun name _ => ?_)
  simp [jsonAt, map_eq_bind, bind_assoc]

/-- The after image has the JSON of every column. -/
theorem afterOf_lookup (name : String)
    : (afterOf table values).lookup name = jsonAt table values name :=
  lookup_columns _ _ _

/-- The key has the JSON of every key column. -/
theorem primaryKeyOf_lookup (member : name ∈ table.primaryKeyColumns)
    : (primaryKeyOf table values).lookup name = jsonAt table values name :=
  lookup_names _ _ member

omit [JsonPrimitives] in
/-- A column is found under its own name. -/
theorem TableSound.columnPosition (sound : TableSound table)
    (found : table.columns[position]? = some column)
    : table.columnPosition column.name = some position := by
  obtain ⟨inside, isColumn⟩ := List.getElem?_eq_some_iff.mp found
  refine findIdx?_eq_some_iff_getElem.mpr ⟨inside, by simp [isColumn], ?_⟩
  intro earlier before same
  have inPosition : position < (table.columns.map (·.name)).length := by simpa using inside
  have different := nodup_iff_getElem?_ne_getElem?.mp sound.distinct earlier position before
    inPosition
  refine different ?_
  rw [getElem?_map, getElem?_map, found, getElem?_eq_getElem (by omega)]
  simpa using same

variable (sound : TableSound table) (fits : RowFits table values)
include sound fits

/-- The value in a column, its JSON under the name of the column, and back. -/
theorem RowFits.value (found : table.columns[position]? = some column)
    : ∃ value, values[position]? = some value ∧ jsonAt table values column.name
        = some (columnValueToJson column value)
      ∧ jsonToColumnValue table.name column
        (columnValueToJson column value) = .ok value := by
  obtain ⟨inside, -⟩ := List.getElem?_eq_some_iff.mp found
  have isValue : values[position]? = some (values.get ⟨position, fits.1 ▸ inside⟩) :=
    getElem?_eq_getElem _
  refine ⟨_, isValue, ?_, ?_⟩
  · rw [jsonAt, sound.columnPosition found, bind_some, found, isValue]
    rfl
  · refine fits.2 (column, _) (mem_iff_getElem?.mpr ⟨position, ?_⟩)
    rw [getElem?_zip_eq_some]
    exact ⟨found, isValue⟩

/-- The values are read back from the after image. -/
theorem columnValues_afterOf (payload : String)
    : columnValues payload table (afterOf table values) = .ok values := by
  refine mapM_eq_of_getElem? fits.1 fun position column found => ?_
  obtain ⟨value, isValue, isJson, converted⟩ := fits.value sound found
  refine ⟨value, isValue, ?_⟩
  rw [columnValue, afterOf_lookup, isJson]
  exact converted

/-- The column of a part of the primary key, with its value. -/
theorem RowFits.keyColumn (member : name ∈ table.primaryKeyColumns)
    : ∃ column value, table.columns.find? (fun column => column.name = name) = some column
      ∧ (table.columnPosition name).bind (values[·]?) = some value
      ∧ jsonAt table values name = some (columnValueToJson column value)
      ∧ jsonToColumnValue table.name column (columnValueToJson column value) = .ok value := by
  obtain ⟨column, inside, rfl⟩ := sound.declared name member
  obtain ⟨position, found⟩ := mem_iff_getElem?.mp inside
  obtain ⟨value, isValue, isJson, converted⟩ := fits.value sound found
  have isPosition := sound.columnPosition found
  refine ⟨column, value, ?_, ?_, isJson, converted⟩
  · rw [find?_eq_bind_findIdx?_getElem?]
    rw [TableSchema.columnPosition] at isPosition
    rw [isPosition]
    exact found
  · rw [isPosition]
    exact isValue

/-- The key of a row that fits has a value in every key column. -/
theorem rowKey_eq : rowKey table values = (keyOf table values).map some := by
  have all : ∀ entry ∈ rowKey table values, entry.isSome := by
    intro entry member
    obtain ⟨name, inKey, rfl⟩ := mem_map.mp member
    obtain ⟨column, value, -, isValue, -⟩ := fits.keyColumn sound inKey
    rw [isValue]
    rfl
  rw [keyOf]
  generalize rowKey table values = entries at all
  induction entries with
  | nil => rfl
  | cons entry rest ih =>
    obtain ⟨value, rfl⟩ := isSome_iff_exists.mp (all entry mem_cons_self)
    rw [filterMap_cons, id, map_cons, ← ih fun entry member => all entry (mem_cons_of_mem _ member)]

/-- The key is read back from the record. -/
theorem keyValues_primaryKeyOf
    : keyValues table (primaryKeyOf table values) = .ok (keyOf table values) := by
  have length : (keyOf table values).length = table.primaryKeyColumns.length := by
    have same := congrArg length (rowKey_eq sound fits)
    simpa [rowKey] using same.symm
  refine mapM_eq_of_getElem? length fun position name found => ?_
  have member := mem_of_getElem? found
  obtain ⟨column, value, isColumn, isValue, isJson, converted⟩ := fits.keyColumn sound member
  refine ⟨value, ?_, ?_⟩
  · have same := congrArg (·[position]?) (rowKey_eq sound fits)
    simp only [rowKey, getElem?_map, found, map_some, isValue] at same
    obtain ⟨entry, isEntry, isSome⟩ := map_eq_some_iff.mp same.symm
    rw [isEntry, some.inj isSome]
  · rw [keyValue, isColumn]
    rw [primaryKeyOf_lookup member, isJson]
    exact converted

end

-- Records of rows

/-- Every table is sound, and no two have the same name up to case. -/
structure TablesSound (tables : List TableSchema) : Prop where
  sound : ∀ table ∈ tables, TableSound table
  distinct : (tables.map fun table => table.name.toList.map Char.toLower).Nodup

/-- The record says that the row was inserted, changed or deleted. -/
structure IsRowRecord (operation : SyncOperation) (table : TableSchema) (values : List Value)
    (record : SyncJournalRecord) : Prop where
  isTable : record.table = table.name
  isOperation : record.operation = operation.text
  isKey : record.primaryKey = buildPrimaryKeyJson table values
  isAfter : record.after = (operation.image values).map (buildAfterJson table)

/-- A row filter reads columns of the primary key only. -/
def FiltersOnKeys (tables : List TableSchema) (scope : SyncScope) : Prop :=
  scope.rowFilter.isSome → ∀ table ∈ tables, scope.includes table.name →
    ∀ columnName ∈ scope.filterColumns, ∃ column ∈ table.columns.find?
      (fun column => identifiersEqual column.name columnName),
      column.name ∈ table.primaryKeyColumns

section

omit [JsonPrimitives]

/-- No two tables have names that differ only in case. -/
theorem TablesSound.eq_of_folded (sound : TablesSound tables) (member : table ∈ tables)
    (otherMember : other ∈ tables) (same : identifiersEqual table.name other.name)
    : table = other :=
  inj_on_of_nodup_map sound.distinct member otherMember (of_decide_eq_true same)

/-- A table is found under its name up to case. -/
theorem catalogTable_folded (found : catalogTable tables name = some table)
    : identifiersEqual table.name name := by
  rcases or_eq_some_iff.mp found with exact | ⟨-, folded⟩
  · have named : table.name = name := by simpa using find?_some exact
    rw [named, identifiersEqual]
    exact decide_eq_true rfl
  · simpa using find?_some folded

/-- A table is found under its own name. -/
theorem TablesSound.catalogTable_self (sound : TablesSound tables) (member : table ∈ tables)
    : catalogTable tables table.name = some table := by
  have found : (catalogTable tables table.name).isSome := by
    have isSome : (tables.find? fun other => other.name = table.name).isSome :=
      find?_isSome.mpr ⟨table, member, by simp⟩
    rw [catalogTable, isSome_or, isSome]
    rfl
  obtain ⟨other, isOther⟩ := isSome_iff_exists.mp found
  rw [isOther, sound.eq_of_folded (catalogTable_mem isOther) member (catalogTable_folded isOther)]

/-- An operation is read back from its text. -/
theorem SyncOperation.parse_text (operation : SyncOperation)
    : SyncOperation.parse operation.text = .ok operation := by
  cases operation <;> rfl

end

section

/-- The record of a row has the key of its after image. -/
theorem IsRowRecord.coherent (sound : TablesSound tables) (member : table ∈ tables)
    (isRow : IsRowRecord operation table values record)
    : record.Coherent tables := by
  intro found isTable after primaryKey isAfter isKey name inKey
  rw [isRow.isTable, sound.catalogTable_self member] at isTable
  cases isTable
  rw [isRow.isKey, buildPrimaryKeyJson_asObject] at isKey
  cases isKey
  rw [isRow.isAfter] at isAfter
  cases image : operation.image values with
  | none =>
    rw [image] at isAfter
    cases isAfter
  | some values' =>
    have same : values' = values := by
      cases operation <;> cases image
      · rfl
      · rfl
    rw [image, same] at isAfter
    cases isAfter
    exact (afterOf_lookup name).trans (primaryKeyOf_lookup inKey).symm

/-- The record of a row that fits names the row and has it as its image. -/
theorem IsRowRecord.effect (sound : TablesSound tables) (member : table ∈ tables)
    (fits : RowFits table values) (isRow : IsRowRecord operation table values record)
    : recordEffect tables record = .ok (rowName table values, operation.image values) := by
  have tableSound := sound.sound table member
  have keys := keyValues_primaryKeyOf tableSound fits
  have object : objectOr "primary_key must be an object" record.primaryKey
    = .ok (primaryKeyOf table values) := by
    rw [objectOr, isRow.isKey, buildPrimaryKeyJson_asObject]
  have fields : ∀ missing malformed, operation ≠ .delete
    → afterFields missing malformed record = .ok (afterOf table values) := by
    intro missing malformed kept
    rw [afterFields, isRow.isAfter]
    cases operation with
    | insert | update => rfl
    | delete => exact absurd rfl kept
  rw [recordEffect, isRow.isTable, sound.catalogTable_self member]
  simp only [object, ok_bind, isRow.isOperation, SyncOperation.parse_text]
  cases operation with
  | insert | update =>
    simp only [importStatement, fields _ _ (by simp), ok_bind,
      columnValues_afterOf tableSound fits, keys]
    rfl
  | delete =>
    simp only [importStatement, ok_bind, keys]
    rfl

/-- The payload that a row filter reads has the value of a key column. -/
theorem scopeValue_row (sound : TableSound table) (fits : RowFits table values)
    {fields : List (String × Json)}
    (holds : ∀ name ∈ table.primaryKeyColumns, fields.lookup name = jsonAt table values name)
    (onKey : ∃ column ∈ table.columns.find?
      (fun column => identifiersEqual column.name columnName),
      column.name ∈ table.primaryKeyColumns)
    : scopeValue table fields columnName = rowScopeValue table values columnName := by
  obtain ⟨column, isColumn, inKey⟩ := onKey
  have found : table.columns.find? (fun column => identifiersEqual column.name columnName)
    = some column := isColumn
  have position := found
  rw [find?_eq_bind_findIdx?_getElem?] at position
  obtain ⟨index, isIndex, atIndex⟩ := bind_eq_some_iff.mp position
  obtain ⟨value, isValue, isJson, converted⟩ := fits.value sound atIndex
  rw [scopeValue, found, rowScopeValue, isIndex]
  dsimp only
  rw [holds column.name inKey, isJson, bind_some, isValue]
  exact converted

/-- A filter reads the key of a delete and the after image of the others. -/
theorem IsRowRecord.scopeFields (isRow : IsRowRecord operation table values record)
    : ∃ fields, scopeFields record = .ok fields
      ∧ ∀ name ∈ table.primaryKeyColumns, fields.lookup name = jsonAt table values name := by
  cases operation with
  | delete =>
    refine ⟨primaryKeyOf table values, ?_, fun name inKey => primaryKeyOf_lookup inKey⟩
    rw [Sync.scopeFields, scopePayload, isRow.isOperation, isRow.isKey]
    simp [SyncOperation.text, buildPrimaryKeyJson_asObject]
  | insert | update =>
    refine ⟨afterOf table values, ?_, fun name _ => afterOf_lookup name⟩
    rw [Sync.scopeFields, scopePayload, isRow.isOperation, isRow.isAfter]
    rfl

omit [JsonPrimitives] in
/-- Rows with the same key satisfy such a filter alike. -/
theorem rowSatisfies_of_key (sound : TableSound table) (member : table ∈ tables)
    (included : scope.includes table.name) (onKeys : FiltersOnKeys tables scope)
    {other : List Value} (same : rowKey table values = rowKey table other)
    : rowSatisfies scope table values = rowSatisfies scope table other := by
  unfold rowSatisfies
  cases filtered : scope.rowFilter with
  | none => rfl
  | some rowFilter =>
    rw [mapM_congr fun columnName inFilter => ?_]
    obtain ⟨column, isColumn, inKey⟩ :=
      onKeys (by rw [filtered]; rfl) table member included columnName inFilter
    have found : table.columns.find? (fun column => identifiersEqual column.name columnName)
      = some column := isColumn
    rw [find?_eq_bind_findIdx?_getElem?] at found
    obtain ⟨index, isIndex, atIndex⟩ := bind_eq_some_iff.mp found
    have sameValue := map_inj_left.mp same column.name inKey
    rw [sound.columnPosition atIndex, bind_some, bind_some] at sameValue
    rw [rowScopeValue, rowScopeValue, isIndex, bind_some, bind_some, sameValue]

/-- The record of a row is in a scope that filters on keys if the row satisfies the filter. -/
theorem IsRowRecord.inScope_iff (sound : TablesSound tables) (member : table ∈ tables)
    (fits : RowFits table values) (isRow : IsRowRecord operation table values record)
    (onKeys : FiltersOnKeys tables scope)
    : inScope tables (some scope) record
      ↔ scope.includes table.name ∧ rowSatisfies scope table values = .ok true := by
  have decided : syncScopeRecordMatches tables scope record
    = if scope.includes table.name then rowSatisfies scope table values else .ok false := by
    rw [syncScopeRecordMatches, isRow.isTable]
    cases included : scope.includes table.name with
    | false => rfl
    | true =>
      simp only [if_true]
      rw [rowSatisfies]
      cases filtered : scope.rowFilter with
      | none => rfl
      | some rowFilter =>
        obtain ⟨fields, isFields, holds⟩ := isRow.scopeFields
        simp only [scopeFilterHolds, isRow.isTable, sound.catalogTable_self member, isFields,
          ok_bind]
        rw [mapM_congr fun columnName inFilter =>
          scopeValue_row (sound.sound table member) fits holds
            (onKeys (by rw [filtered]; rfl) table member included columnName inFilter)]
  rw [inScope, decided]
  cases scope.includes table.name with
  | false => simp
  | true =>
    simp only [if_true, true_and]
    cases rowSatisfies scope table values with
    | error _ => simp
    | ok kept => simp

end

end DecentDb.Sync
