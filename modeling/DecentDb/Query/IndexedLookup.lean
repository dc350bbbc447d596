import DecentDb.Identifiers
import DecentDb.Library.Results
import DecentDb.Record.IndexKey
import DecentDb.Sql.Schema

/-! Lookups of a column's value through the row-id alias or a B-tree index, and the scan that
they stand for. The index agrees with the scan exactly where every row that the scan keeps is
of the type of the value that the index is asked for.
-/

namespace DecentDb.Query

open Record
open Sql (ColumnSchema ColumnType IndexSchema TableSchema)

-- Runtime indexes over one plain column

inductive RuntimeBtreeKey where
  | encoded (bytes : List UInt8)
  | int64 (value : Int64)
  | uuid (value : Vector UInt8 16)
  deriving DecidableEq, Repr

/-- Which keys an index holds: encoded ones, or the numbers or identifiers themselves. -/
inductive KeyForm where
  | encoded
  | int64
  | uuid
  deriving DecidableEq, Repr

/-- The entries in the order of their rows. -/
structure RuntimeBtreeKeys where
  form : KeyForm
  entries : List (RuntimeBtreeKey × Int64)
  deriving DecidableEq, Repr

section

variable (table : TableSchema)

section

variable (columnName : String)

def schemaColumnIndex : Option Nat :=
  table.columns.findIdx? fun column => identifiersEqual column.name columnName

def columnSchema : Option ColumnSchema :=
  table.columns.find? fun column => identifiersEqual column.name columnName

/-- A column that is never NULL and of type INT64 or UUID has typed keys. -/
def btreeKeyForm : KeyForm :=
  match columnSchema table columnName with
  | none => .encoded
  | some column =>
    if column.nullable then .encoded
    else if column.columnType = .int64 then .int64
    else if column.columnType = .uuid then .uuid
    else .encoded

end

/-- The key that a row with this value is filed under. -/
def valueKey (unique : Bool) : KeyForm → Value → DbResult (Option RuntimeBtreeKey)
  | .int64, .int64 value => .ok (some (.int64 value))
  | .int64, _ => .error (.internal "typed INT64 runtime index expected an INT64 row value")
  | .uuid, .uuid value => .ok (some (.uuid value))
  | .uuid, _ => .error (.internal "typed UUID runtime index expected a UUID row value")
  | .encoded, value =>
    if unique ∧ value = .null then .ok none
    else do
      let key ← encodeRuntimeIndexKey value
      .ok (some (.encoded key))

def computeIndexKey (unique : Bool) (columnName : String)
    (row : List Value) : DbResult (Option RuntimeBtreeKey) :=
  match schemaColumnIndex table columnName with
  | none => .error (.constraint s!"index column {columnName} does not exist")
  | some position => valueKey unique (btreeKeyForm table columnName) (row.getD position .null)

end

/-- Files the next row; a unique index refuses a key that it has. -/
def fileRow (index : IndexSchema) (table : TableSchema) (columnName : String)
    (entries : List (RuntimeBtreeKey × Int64)) (row : StoredRow)
    : DbResult (List (RuntimeBtreeKey × Int64)) := do
  let key ← computeIndexKey table index.unique columnName row.values
  match key with
  | none => .ok entries
  | some key =>
    if index.unique ∧ key ∈ entries.map Prod.fst then
      .error (.corruption s!"unique index {index.name} contains duplicate keys")
    else .ok (entries ++ [(key, row.rowId)])

def buildRuntimeIndex (index : IndexSchema) (table : TableSchema) (columnName : String)
    (rows : List StoredRow) : DbResult RuntimeBtreeKeys := do
  let entries ← rows.foldlM (fileRow index table columnName) []
  .ok { form := btreeKeyForm table columnName, entries }

/-- The key that a value is looked up under; typed keys have none for other types. -/
def lookupKey : KeyForm → Value → DbResult (Option RuntimeBtreeKey)
  | .encoded, value => do
    let key ← encodeRuntimeIndexKey value
    .ok (some (.encoded key))
  | .int64, .int64 value => .ok (some (.int64 value))
  | .uuid, .uuid value => .ok (some (.uuid value))
  | _, _ => .ok none

def RuntimeBtreeKeys.rowIdsForKey (keys : RuntimeBtreeKeys) (key : RuntimeBtreeKey) : List Int64 :=
  (keys.entries.filter fun entry => entry.1 = key).map Prod.snd

def RuntimeBtreeKeys.rowIdsForValueSet (keys : RuntimeBtreeKeys) (value : Value)
    : DbResult (List Int64) := do
  let key ← lookupKey keys.form value
  .ok (key.elim [] keys.rowIdsForKey)

-- Tables

structure TableIndex where
  schema : IndexSchema
  keys : Option RuntimeBtreeKeys

/-- The one plain column of an index that covers every row. -/
def TableIndex.plainColumn? (index : TableIndex) : Option String :=
  match index.schema.columns, index.schema.predicate with
  | [.column columnName], none => some columnName
  | _, _ => none

/-- A table with its rows and its B-tree indexes in the order of their names. A fresh index
holds what a rebuild from the rows gives.
-/
structure IndexedTable where
  schema : TableSchema
  rows : List StoredRow
  indexes : List TableIndex
  rowIds : (rows.map StoredRow.rowId).Nodup
  widths : ∀ row ∈ rows, row.values.length = schema.columns.length
  rebuilt : ∀ index ∈ indexes, index.schema.fresh → ∀ columnName ∈ index.plainColumn?,
    ∀ keys ∈ index.keys, buildRuntimeIndex index.schema schema columnName rows = .ok keys

namespace IndexedTable

def rowIdAliasColumnName (table : TableSchema) : Option String :=
  match table.primaryKeyColumns with
  | [primaryKeyColumn] =>
    (table.columns.find? fun column =>
      identifiersEqual column.name primaryKeyColumn && column.autoIncrement).map ColumnSchema.name
  | _ => none

section

variable (table : IndexedTable)

def isRowIdAlias (columnName : String) : Bool :=
  (rowIdAliasColumnName table.schema).any fun rowIdColumn => identifiersEqual rowIdColumn columnName

/-- The first fresh index over exactly this column. -/
def lookupIndex (columnName : String) : Option TableIndex :=
  table.indexes.find? fun index =>
    index.schema.fresh && index.plainColumn?.any fun name => identifiersEqual name columnName

def datasetFromRowIdSet (rowIds : List Int64) : List StoredRow :=
  rowIds.filterMap fun rowId => table.rows.find? fun row => row.rowId = rowId

end

end IndexedTable

/-- Only an integer is a row id. -/
def aliasRows (table : IndexedTable) : Value → List StoredRow
  | .int64 rowId => table.datasetFromRowIdSet [rowId]
  | _ => []

section

variable [ScalarPrimitives]

open ScalarPrimitives (parseUuidText parseDateDays parseDatetimeMicros parseTimestampTzMicros)

/-- A text is read as the type of the column where that is a decimal, an identifier or a
date; a text that is no decimal stays a text.
-/
def coerceText (text : String) : ColumnType → DbResult Value
  | .decimal =>
    match parseDecimalText text with
    | .ok (scaled, scale) => .ok (.decimal (.ofInt scaled) (.ofNat scale))
    | .error _ => .ok (.text text)
  | .uuid => (parseUuidText text).map .uuid
  | .date => (parseDateDays text).map .dateDays
  | .timestamp => (parseDatetimeMicros text).map .timestampMicros
  | .timestampTz => (parseTimestampTzMicros text).map .timestampTzMicros
  | _ => .ok (.text text)

def coerceLookupLiteral (table : TableSchema) (columnName : String) : Value → DbResult Value
  | .text text =>
    match columnSchema table columnName with
    | none => .error (.sql s!"unknown column {columnName}")
    | some column => coerceText text column.columnType
  | value => .ok value

def timestampKeyTypesMatch : ColumnType → ColumnType → Bool
  | .timestamp, .timestampTz | .timestampTz, .timestamp => false
  | _, _ => true

def timestampLookupMatchesSchema (table : TableSchema) (columnName : String) (value : Value)
    : Bool :=
  match columnSchema table columnName, value with
  | none, _ => false
  | some column, .timestampMicros _ => timestampKeyTypesMatch column.columnType .timestamp
  | some column, .timestampTzMicros _ => timestampKeyTypesMatch column.columnType .timestampTz
  | some _, _ => true

section

variable (table : IndexedTable)

section

variable (columnName : String) (value : Value)

/-- The lookup through an index; no rows at all if it does not apply. -/
def indexLookup (index : TableIndex) : DbResult (Option (List StoredRow)) := do
  let value ← coerceLookupLiteral table.schema columnName value
  if timestampLookupMatchesSchema table.schema columnName value then
    match index.keys with
    | none => .ok none
    | some keys => do
      let rowIds ← keys.rowIdsForValueSet value
      .ok (some (table.datasetFromRowIdSet rowIds))
  else .ok none

def indexedTableLookup : DbResult (Option (List StoredRow)) :=
  if !table.schema.generatedColumnsAreStored then .ok none
  else if table.isRowIdAlias columnName then .ok (some (aliasRows table value))
  else
    match table.lookupIndex columnName with
    | none => .ok none
    | some index => indexLookup table columnName value index

-- Scans

def satisfiesFilter (position : Nat) (value : Value) (row : StoredRow) : DbResult Bool := do
  let ordering ← compareValues (row.values.getD position .null) value
  .ok (ordering = .eq)

/-- The rows with `column = value`. -/
def filterRows (table : TableSchema) (columnName : String) (value : Value)
    (rows : List StoredRow) : DbResult (List StoredRow) :=
  match schemaColumnIndex table columnName with
  | none => .error (.sql s!"unknown column {columnName}")
  | some position => Results.filterResults (satisfiesFilter position value) rows

/-- If the scan raises no error then neither does the lookup, and of the rows that it returns
those that satisfy the filter are those of the scan.
-/
def LookupAgrees : Prop :=
  ∀ scanned, filterRows table.schema columnName value table.rows = .ok scanned
    → ∃ found, indexedTableLookup table columnName value = .ok found
      ∧ ∀ rows ∈ found, filterRows table.schema columnName value rows = .ok scanned

end

end

end

end DecentDb.Query
