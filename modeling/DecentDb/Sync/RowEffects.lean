import DecentDb.Library.KeyedUpdates
import DecentDb.Sync.ImportSteps
import DecentDb.Sync.KeyedRows

/-! What one record does to the rows of a database whose statements change the row of one key
each: the record names a row, and the import makes its after image of it.
-/

namespace DecentDb.Sync

open List
open Sql (ColumnSchema TableSchema)

def ImportStatement.image : ImportStatement → Option (List Value)
  | .insert _ values | .update _ values _ => some values
  | .delete _ _ => none

variable {tables : List TableSchema} {name message missing malformed payload : String}
  {table : TableSchema} {fields after primaryKey : List (String × Json)}
  {record : SyncJournalRecord} {values key : List Value} {operation : SyncOperation}
  {statement : ImportStatement} {settings : ReplicaSettings} {policy : SyncConflictPolicy}

/-- A table that is found is one of the catalog. -/
theorem catalogTable_mem (found : catalogTable tables name = some table) : table ∈ tables := by
  rcases Option.or_eq_some_iff.mp found with exact | ⟨-, folded⟩
  · exact mem_of_find?_eq_some exact
  · exact mem_of_find?_eq_some folded

/-- The check succeeds on objects only. -/
theorem objectOr_eq_ok {json : Json} (ran : objectOr message json = .ok fields)
    : json.asObject = some fields := by
  unfold objectOr at ran
  split at ran <;> cases ran
  next found => exact found

/-- An after image that is used is an object. -/
theorem afterFields_eq_ok (ran : afterFields missing malformed record = .ok fields)
    : record.after.bind Json.asObject = some fields := by
  unfold afterFields at ran
  split at ran
  next => cases ran
  next after isAfter =>
    rw [isAfter]
    exact objectOr_eq_ok ran

section

variable [JsonPrimitives] {Db : Type} [ReplicaDatabase Db]

/-- The row that a record names and what the record makes of it. -/
def recordEffect (tables : List TableSchema) (record : SyncJournalRecord)
    : DbResult (RowName × Option (List Value)) :=
  match catalogTable tables record.table with
  | none => .error (.sql s!"unknown table '{record.table}'")
  | some table => do
    let primaryKey ← objectOr "primary_key must be an object" record.primaryKey
    let operation ← SyncOperation.parse record.operation
    let statement ← importStatement record table primaryKey operation
    let key ← keyValues table primaryKey
    .ok ((table.name, key), statement.image)

/-- The effects of the records in their order. -/
def effects (tables : List TableSchema) (records : List SyncJournalRecord)
    : List (RowName × Option (List Value)) :=
  records.filterMap fun record => (recordEffect tables record).toOption

omit [ReplicaDatabase Db] in
/-- The effects are those of the records that have one. -/
theorem mem_effects {records : List SyncJournalRecord} {effect : RowName × Option (List Value)}
    : effect ∈ effects tables records
      ↔ ∃ record ∈ records, recordEffect tables record = .ok effect := by
  simp [effects, toOption_eq_some]

/-- The primary keys are columns of their tables. -/
def KeysDeclared (tables : List TableSchema) : Prop :=
  ∀ table ∈ tables, ∀ name ∈ table.primaryKeyColumns,
    ∃ column ∈ table.columns, column.name = name

/-- The after image has the primary key that the record names. -/
def SyncJournalRecord.Coherent (tables : List TableSchema) (record : SyncJournalRecord) : Prop :=
  ∀ table, catalogTable tables record.table = some table →
    ∀ after primaryKey, record.after.bind Json.asObject = some after →
      record.primaryKey.asObject = some primaryKey →
        ∀ name ∈ table.primaryKeyColumns, after.lookup name = primaryKey.lookup name

-- The key of an after image

/-- The value of the first column with the name; by induction on the columns. -/
theorem value_of_column {columns : List ColumnSchema}
    (filled : Forall₂ (fun column value => columnValue payload table after column = .ok value)
      columns values) (declared : ∃ column ∈ columns, column.name = name)
    : ∃ column value, columns.find? (fun column => column.name = name) = some column
      ∧ (columns.findIdx? fun column => column.name = name).bind (values[·]?) = some value
      ∧ columnValue payload table after column = .ok value := by
  induction filled with
  | nil => simp at declared
  | @cons column value columns values first rest ih =>
    by_cases named : column.name = name
    · exact ⟨column, value, by simp [named], by simp [findIdx?_cons, named], first⟩
    obtain ⟨found, foundValue, isFound, isValue, converted⟩ := ih (by simpa [named] using declared)
    refine ⟨found, foundValue, by simpa [named] using isFound, ?_, converted⟩
    simp only [findIdx?_cons, named, decide_false, Bool.false_eq_true, if_false, Option.bind_map]
    exact isValue

section

variable (filled : columnValues payload table after = .ok values)
include filled

/-- The key of a record and its after image give a key column the same value. -/
theorem keyValue_of_columns (declared : ∃ column ∈ table.columns, column.name = name)
    (same : after.lookup name = primaryKey.lookup name)
    : ∃ value, keyValue table primaryKey name = .ok value
      ∧ (table.columnPosition name).bind (values[·]?) = some value := by
  obtain ⟨column, value, isColumn, isValue, converted⟩ :=
    value_of_column (Results.mapM_ok filled) declared
  have named : column.name = name := by simpa using find?_some isColumn
  refine ⟨value, ?_, isValue⟩
  rw [keyValue, isColumn]
  dsimp only
  rw [← same, ← named]
  unfold columnValue at converted
  split at converted
  next => cases converted
  next json found => exact converted

/-- The columns of a coherent after image have the key that the record names. -/
theorem keyValues_of_columns
    (declared : ∀ name ∈ table.primaryKeyColumns, ∃ column ∈ table.columns, column.name = name)
    (same : ∀ name ∈ table.primaryKeyColumns, after.lookup name = primaryKey.lookup name)
    : ∃ key, keyValues table primaryKey = .ok key ∧ rowKey table values = key.map some := by
  unfold keyValues rowKey
  generalize table.primaryKeyColumns = names at declared same
  induction names with
  | nil => exact ⟨[], rfl, rfl⟩
  | cons name rest ih =>
    obtain ⟨key, keyed, isKey⟩ := ih (forall_mem_cons.mp declared).2 (forall_mem_cons.mp same).2
    obtain ⟨value, converted, isValue⟩ := keyValue_of_columns filled
      (declared name mem_cons_self) (same name mem_cons_self)
    exact ⟨value :: key, Results.mapM_cons_ok.mpr ⟨value, key, converted, keyed, rfl⟩,
      by simp [isValue, isKey]⟩

end

-- One record

/-- The statement is about the row of the key. -/
def ImportStatement.Targets (table : TableSchema) (key : List Value) : ImportStatement → Prop
  | .insert own values => own = table ∧ rowKey table values = key.map some
  | .update own values ownKey => own = table ∧ ownKey = key ∧ rowKey table values = key.map some
  | .delete own ownKey => own = table ∧ ownKey = key

/-- The statement of a record stands for its effect. -/
theorem importStatement_effect (declared : KeysDeclared tables) (coherent : record.Coherent tables)
    (found : catalogTable tables record.table = some table)
    (keyed : objectOr "primary_key must be an object" record.primaryKey = .ok primaryKey)
    (parsed : SyncOperation.parse record.operation = .ok operation)
    (built : importStatement record table primaryKey operation = .ok statement)
    : ∃ key, recordEffect tables record = .ok ((table.name, key), statement.image)
      ∧ statement.Targets table key := by
  have effect : ∀ key, keyValues table primaryKey = .ok key
    → recordEffect tables record = .ok ((table.name, key), statement.image) := by
    intro key isKey
    simp [recordEffect, found, keyed, parsed, built, isKey]
  have imaged : ∀ {payload after values}, record.after.bind Json.asObject = some after
    → columnValues payload table after = .ok values
    → ∃ key, keyValues table primaryKey = .ok key ∧ rowKey table values = key.map some := by
    intro payload after values isAfter filled
    exact keyValues_of_columns filled (declared table (catalogTable_mem found))
      (coherent table found after primaryKey isAfter (objectOr_eq_ok keyed))
  cases operation with
  | insert =>
    obtain ⟨after, isAfter, later⟩ := bind_eq_ok.mp built
    obtain ⟨values, filled, done⟩ := bind_eq_ok.mp later
    cases done
    obtain ⟨key, isKey, rowed⟩ := imaged (afterFields_eq_ok isAfter) filled
    exact ⟨key, effect key isKey, rfl, rowed⟩
  | update =>
    obtain ⟨after, isAfter, later⟩ := bind_eq_ok.mp built
    obtain ⟨values, filled, later⟩ := bind_eq_ok.mp later
    obtain ⟨key, isKey, done⟩ := bind_eq_ok.mp later
    cases done
    obtain ⟨same, isSame, rowed⟩ := imaged (afterFields_eq_ok isAfter) filled
    rw [isKey] at isSame
    cases isSame
    exact ⟨key, effect key isKey, rfl, rfl, rowed⟩
  | delete =>
    obtain ⟨key, isKey, done⟩ := bind_eq_ok.mp built
    cases done
    exact ⟨key, effect key isKey, rfl, rfl⟩

variable {row : Db → RowName → Option (List Value)} {db after : Db}

omit [JsonPrimitives] in
/-- A statement that the import counts as applied has its effect. -/
theorem KeyedLaws.execute (laws : KeyedLaws tables row) (member : table ∈ tables)
    (targets : statement.Targets table key) {affected : Nat}
    (ran : ReplicaDatabase.execute statement db = (after, .ok affected))
    (hit : affected ≠ 0 ∨ ∃ values, statement = .insert table values)
    : row after = Function.update (row db) (table.name, key) statement.image := by
  cases statement with
  | insert own values =>
    obtain ⟨rfl, rowed⟩ := targets
    exact laws.insert own member values key db after affected ran rowed
  | update own values ownKey =>
    obtain ⟨rfl, rfl, rowed⟩ := targets
    obtain ⟨fewer, rfl⟩ := Nat.exists_eq_succ_of_ne_zero (hit.resolve_right nofun)
    exact laws.update own member values ownKey db after fewer ran rowed
  | delete own ownKey =>
    obtain ⟨rfl, rfl⟩ := targets
    obtain ⟨fewer, rfl⟩ := Nat.exists_eq_succ_of_ne_zero (hit.resolve_right nofun)
    exact laws.delete own member ownKey db after fewer ran

/-- An applied outcome means that the statement ran and hit a row. -/
theorem importOutcome_applied {localRow : Option Json} {result : DbResult Nat}
    (ran : importOutcome settings policy record table primaryKey localRow operation result db
      = (after, .ok .applied))
    : after = db ∧ ∃ affected, result = .ok affected
      ∧ (affected ≠ 0 ∨ operation.noRows = none) := by
  cases result with
  | ok affected =>
    refine ⟨?_, affected, rfl, ?_⟩
    · cases operation <;> cases affected <;> cases ran <;> rfl
    cases operation with
    | insert => exact .inr rfl
    | update =>
      cases affected with
      | zero => cases ran
      | succ _ => exact .inl (Nat.succ_ne_zero _)
    | delete =>
      cases affected with
      | zero => cases ran
      | succ _ => exact .inl (Nat.succ_ne_zero _)
  | error error =>
    exfalso
    cases error with
    | constraint message =>
      rw [importOutcome] at ran
      split at ran
      · obtain ⟨_, _, _, done⟩ := Stateful.bind_eq_ok.mp ran
        cases done
      · cases ran
    | io _ => cases ran
    | corruption _ => cases ran
    | transaction _ => cases ran
    | sql _ => cases ran
    | internal _ => cases ran
    | unsupportedFormatVersion _ => cases ran

/-- A record that is applied gives its row its image and changes no other. -/
theorem syncApplyImportRecord_applied (laws : KeyedLaws tables row) (declared : KeysDeclared tables)
    (coherent : record.Coherent tables) (found : catalogTable tables record.table = some table)
    (ran : syncApplyImportRecord settings policy record table db = (after, .ok .applied))
    : ∃ effect, recordEffect tables record = .ok effect
      ∧ row after = Function.update (row db) effect.1 effect.2 := by
  obtain ⟨primaryKey, keyed, later⟩ := Stateful.readResult_bind_eq_ok.mp ran
  obtain ⟨localRow, captured, later⟩ := Stateful.readResult_bind_eq_ok.mp later
  obtain ⟨operation, parsed, later⟩ := Stateful.readResult_bind_eq_ok.mp later
  obtain ⟨statement, built, later⟩ := Stateful.readResult_bind_eq_ok.mp later
  obtain ⟨rfl, affected, succeeded, hit⟩ := importOutcome_applied later
  obtain ⟨key, isEffect, targets⟩ :=
    importStatement_effect declared coherent found keyed parsed built
  refine ⟨_, isEffect, laws.execute (catalogTable_mem found) targets
    (Prod.ext rfl succeeded) (hit.imp_right ?_)⟩
  intro noRows
  cases operation with
  | insert =>
    obtain ⟨_, _, later⟩ := bind_eq_ok.mp built
    obtain ⟨values, _, done⟩ := bind_eq_ok.mp later
    exact ⟨values, (Except.ok.inj done).symm⟩
  | update | delete => cases noRows

end

end DecentDb.Sync
