import DecentDb.Error
import DecentDb.Record.Value

/-! Table and index schemas as lookups and synchronization read them. Expressions are the
functions they evaluate to.
-/

namespace DecentDb.Sql

inductive ColumnType where
  | int64 | float64 | bool | text | blob | decimal | uuid | timestamp | geometry | geography
  | enum | ipAddr | cidr | macAddr | date | time | timestampTz | interval
  deriving DecidableEq, Repr

-- Tables

/-- An expression over the values of one row. -/
abbrev RowExpr := List Value → DbResult Value

/-- `spatialType` is the check of the declared SRID, subtype and dimensions; a default
reads no column.
-/
structure ColumnSchema where
  name : String
  columnType : ColumnType
  nullable : Bool
  generated : Option RowExpr
  generatedStored : Bool
  autoIncrement : Bool

structure TableSchema where
  name : String
  columns : List ColumnSchema
  primaryKeyColumns : List String

namespace TableSchema

variable (table : TableSchema)

def columnPosition (columnName : String) : Option Nat :=
  table.columns.findIdx? fun column => column.name = columnName

def generatedColumnsAreStored : Bool :=
  table.columns.all fun column => column.generated.isNone || column.generatedStored

end TableSchema

-- Indexes

/-- An expression of an index: it reads only the columns it references. -/
structure ColumnExpr where
  references : List String
  eval : (String → DbResult Value) → DbResult Value
  reads_references : ∀ left right, (∀ name ∈ references, left name = right name)
    → eval left = eval right

inductive IndexColumn where
  | column (columnName : String)
  | expression (expression : ColumnExpr)

/-- A B-tree index. Its runtime keys answer lookups only while it is fresh. -/
structure IndexSchema where
  name : String
  unique : Bool
  columns : List IndexColumn
  predicate : Option ColumnExpr
  fresh : Bool

end DecentDb.Sql
