import DecentDb.Library.TransitionSystem
import DecentDb.Exec.TableData

/-! Mutation tracking: the executor changes resident rows and records each change in
`dirty_tables` and in a per-table `PagedMutationDelta`, from which `persist_to_db` later
decides what to write.
-/

namespace DecentDb

open Std (ExtTreeMap ExtTreeSet)

structure PagedMutationDelta where
  appendCount : Nat
  updatedRows : ExtTreeMap Int64 (List Value)
  deletedRows : ExtTreeSet Int64
  originalRows : ExtTreeMap Int64 (List Value)

/-- The `Default` value: nothing recorded. -/
def PagedMutationDelta.empty : PagedMutationDelta :=
  { appendCount := 0, updatedRows := ∅, deletedRows := ∅, originalRows := ∅ }

/-- The part of `EngineRuntime` that mutation tracking reads and writes. Names are resolved
identifiers; `tables` holds the catalog's tables, which a temporary table may shadow.
-/
structure EngineRuntime where
  tables : ExtTreeMap String TableData
  tempTables : ExtTreeMap String TableData
  dirtyTables : ExtTreeSet String
  pagedMutations : ExtTreeMap String PagedMutationDelta

namespace EngineRuntime

variable (runtime : EngineRuntime) (tableName : String)

def visibleTableIsTemporary : Bool :=
  tableName ∈ runtime.tempTables

def canonicalCatalogTableName (name : String) : Option String :=
  if name ∈ runtime.tables then some name else none

/-- A dirty table without a delta is rewritten as a whole; its rows are not tracked. -/
abbrev WhollyDirty : Prop :=
  tableName ∈ runtime.dirtyTables ∧ tableName ∉ runtime.pagedMutations

-- The mark functions

def markTableDirty : EngineRuntime :=
  if runtime.visibleTableIsTemporary tableName then runtime
  else
    match runtime.canonicalCatalogTableName tableName with
    | none => runtime
    | some tableName =>
      { runtime with
        pagedMutations := runtime.pagedMutations.erase tableName
        dirtyTables := runtime.dirtyTables.insert tableName
      }

/-- The common shape of the row marks: a temporary or unknown table is ignored, a wholly
dirty table stays so, and otherwise `change` is applied to the table's (new) delta.
-/
def trackRows (change : PagedMutationDelta → PagedMutationDelta) : EngineRuntime :=
  if runtime.visibleTableIsTemporary tableName then runtime
  else
    match runtime.canonicalCatalogTableName tableName with
    | none => runtime
    | some tableName =>
      if runtime.WhollyDirty tableName then runtime
      else
        let delta := runtime.pagedMutations.getD tableName .empty
        { runtime with
          dirtyTables := runtime.dirtyTables.insert tableName
          pagedMutations := runtime.pagedMutations.insert tableName (change delta)
        }

variable (rowId : Int64)

def markTableRowDirty (values : List Value) : EngineRuntime :=
  runtime.trackRows tableName fun delta =>
    { delta with updatedRows := delta.updatedRows.insert rowId values }

def markTableRowDeleted : EngineRuntime :=
  runtime.trackRows tableName fun delta =>
    { delta with deletedRows := delta.deletedRows.insert rowId }

def markTableRowsDeleted (rowIds : ExtTreeSet Int64) : EngineRuntime :=
  if rowIds.isEmpty then runtime
  else
    runtime.trackRows tableName fun delta =>
      { delta with
        deletedRows :=
          if delta.deletedRows.isEmpty then rowIds
          else delta.deletedRows.insertMany rowIds.toList
      }

/-- Unlike the other marks, the current delta and dirty flag are looked up first. -/
def markTableRowAppended : EngineRuntime :=
  if runtime.visibleTableIsTemporary tableName then runtime
  else
    match runtime.pagedMutations[tableName]? with
    | some delta =>
      { runtime with
        pagedMutations := runtime.pagedMutations.insert tableName
          { delta with appendCount := delta.appendCount + 1 }
      }
    | none =>
      if tableName ∈ runtime.dirtyTables then runtime
      else
        match runtime.canonicalCatalogTableName tableName with
        | none => runtime
        | some tableName =>
          { runtime with
            dirtyTables := runtime.dirtyTables.insert tableName
            pagedMutations := runtime.pagedMutations.insert tableName
              { PagedMutationDelta.empty with appendCount := 1 }
          }

/-- A row that returns to its recorded original leaves the delta, and a delta that becomes
empty takes the dirty flag with it.
-/
def cancelUpdate : EngineRuntime :=
  match runtime.pagedMutations[tableName]? with
  | none => runtime
  | some delta =>
    let remaining :=
      { delta with
        updatedRows := delta.updatedRows.erase rowId
        originalRows := delta.originalRows.erase rowId
      }
    if remaining.updatedRows.isEmpty && remaining.deletedRows.isEmpty
      && remaining.appendCount = 0 then
      { runtime with
        pagedMutations := runtime.pagedMutations.erase tableName
        dirtyTables := runtime.dirtyTables.erase tableName
      }
    else
      { runtime with pagedMutations := runtime.pagedMutations.insert tableName remaining }

def restoresOriginal (values : List Value) : Bool :=
  ((runtime.pagedMutations[tableName]?).bind (fun delta => delta.originalRows[rowId]?)).any
    (fun original => valuesEq original values)

def markTableRowDirtyWithOriginalValues (originalValues values : List Value) : EngineRuntime :=
  if runtime.visibleTableIsTemporary tableName then runtime
  else
    match runtime.canonicalCatalogTableName tableName with
    | none => runtime
    | some tableName =>
      if runtime.WhollyDirty tableName then runtime
      else if runtime.restoresOriginal tableName rowId values
        || valuesEq values originalValues then
        runtime.cancelUpdate tableName rowId
      else
        let delta := runtime.pagedMutations.getD tableName .empty
        { runtime with
          dirtyTables := runtime.dirtyTables.insert tableName
          pagedMutations := runtime.pagedMutations.insert tableName
            { delta with
              originalRows := delta.originalRows.insertIfNew rowId originalValues
              updatedRows := delta.updatedRows.insert rowId values
            }
        }

-- Executor steps: change the resident rows, then call the mark of that path

/-- `table_data`: a temporary table shadows the catalog table of its name. -/
def tableData : Option TableData :=
  if runtime.visibleTableIsTemporary tableName then runtime.tempTables[tableName]?
  else runtime.tables[tableName]?

/-- Writes through `table_data_mut`. -/
def setTableData (data : TableData) : EngineRuntime :=
  if runtime.visibleTableIsTemporary tableName then
    { runtime with tempTables := runtime.tempTables.insert tableName data }
  else { runtime with tables := runtime.tables.insert tableName data }

end EngineRuntime

/-- One executor step on one table. `update` is the generic path and `updateTracked` the
resident arithmetic and boolean paths; `rewrite` stands for the paths that replace rows
wholesale, such as foreign-key actions.
-/
inductive RowStep where
  | insert (tableName : String) (row : StoredRow)
  | update (tableName : String) (rowId : Int64) (values : List Value)
  | updateTracked (tableName : String) (rowId : Int64) (values : List Value)
  | delete (tableName : String) (rowId : Int64)
  | deleteSet (tableName : String) (rowIds : ExtTreeSet Int64)
  | rewrite (tableName : String) (data : { data : TableData // data.WellFormed })

namespace RowStep

/-- The values of the row before an update, and the table with the new ones. -/
def replaceRow (data : TableData) (rowId : Int64) (values : List Value)
    : Option (List Value × TableData) := do
  let index ← data.rowIndexById rowId
  let row ← data.rows[index]?
  let updated ← data.replaceRowValues index values
  return (row.values, updated)

/-- A step is not enabled when the executor would have reported an error before it: an
unknown table, an insert of an existing row id, or a row that vanished.
-/
def next (runtime : EngineRuntime) : RowStep → Option EngineRuntime
  | .insert tableName row => do
    let data ← runtime.tableData tableName
    if (data.rowIndexById row.rowId).isSome then none
    else
      return (runtime.setTableData tableName (data.pushRow row)).markTableRowAppended tableName
  | .update tableName rowId values => do
    let data ← runtime.tableData tableName
    let (_, updated) ← replaceRow data rowId values
    return (runtime.setTableData tableName updated).markTableRowDirty tableName rowId values
  | .updateTracked tableName rowId values => do
    let data ← runtime.tableData tableName
    let (original, updated) ← replaceRow data rowId values
    return (runtime.setTableData tableName updated).markTableRowDirtyWithOriginalValues
      tableName rowId original values
  | .delete tableName rowId => do
    let data ← runtime.tableData tableName
    if (data.rowIndexById rowId).isNone then none
    else
      return (runtime.setTableData tableName (data.markRowsDeleted [rowId])).markTableRowDeleted
        tableName rowId
  | .deleteSet tableName rowIds => do
    let data ← runtime.tableData tableName
    return (runtime.setTableData tableName
      (data.markExistingRowSetDeleted rowIds)).markTableRowsDeleted tableName rowIds
  | .rewrite tableName data => do
    let _ ← runtime.tableData tableName
    return (runtime.setTableData tableName data.val).markTableDirty tableName

end RowStep

/-- All executor steps on all tables. -/
def mutationSystem : TransitionSystem.System EngineRuntime RowStep := ⟨RowStep.next⟩

-- What the delta promises about the persisted rows

namespace PagedMutationDelta

variable (delta : PagedMutationDelta)

def onlyUpdates : Prop :=
  delta.appendCount = 0 ∧ delta.deletedRows = ∅ ∧ delta.updatedRows ≠ ∅

def onlyDeletes : Prop :=
  delta.appendCount = 0 ∧ delta.deletedRows ≠ ∅ ∧ delta.updatedRows = ∅

def onlyAppends : Prop :=
  0 < delta.appendCount ∧ delta.deletedRows = ∅ ∧ delta.updatedRows = ∅

end PagedMutationDelta

/-- The reading of `dirty_tables` and of the delta that persistence relies on. -/
structure TrackingSound (persisted : List StoredRow) (runtime : EngineRuntime)
    (tableName : String) (data : TableData) : Prop where
  resident : runtime.tables[tableName]? = some data
  clean : tableName ∉ runtime.dirtyTables → data.visibleRows = persisted
  updates : ∀ delta, runtime.pagedMutations[tableName]? = some delta → delta.onlyUpdates
    → data.visibleRows.map StoredRow.rowId = persisted.map StoredRow.rowId
      ∧ ∀ old ∈ persisted, ∀ row ∈ data.visibleRows, row.rowId = old.rowId
        → row.values ≠ old.values → row.rowId ∈ delta.updatedRows
  deletes : ∀ delta, runtime.pagedMutations[tableName]? = some delta → delta.onlyDeletes
    → data.visibleRows = persisted.filter (fun row => row.rowId ∉ delta.deletedRows)
  appends : ∀ delta, runtime.pagedMutations[tableName]? = some delta → delta.onlyAppends
    → ∃ added, data.visibleRows = persisted ++ added ∧ added.length = delta.appendCount

end DecentDb
