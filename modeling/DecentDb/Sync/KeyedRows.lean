import DecentDb.Sync.Import
import Mathlib.Data.List.Nodup

/-! What an import expects of the statements that it issues, and a database that keeps rows
under their primary keys and has no other constraint.
-/

namespace DecentDb.Sync

open List ReplicaDatabase

open Sql (ColumnSchema TableSchema)

-- Rows under keys

/-- A row is named by its table and the values of its primary key. -/
abbrev RowName := String × List Value

/-- The values of the primary key, as far as the row has them. -/
def rowKey (table : TableSchema) (row : List Value) : List (Option Value) :=
  table.primaryKeyColumns.map fun name => (table.columnPosition name).bind (row[·]?)

/-- A statement that succeeds changes the row of its key and no other. -/
structure KeyedLaws {Db : Type} [ReplicaDatabase Db] (tables : List TableSchema)
    (row : Db → RowName → Option (List Value)) : Prop where
  insert : ∀ table ∈ tables, ∀ values key db after affected,
    execute (.insert table values) db = (after, .ok affected)
    → rowKey table values = key.map some
    → row after = Function.update (row db) (table.name, key) (some values)
  update : ∀ table ∈ tables, ∀ values key db after affected,
    execute (.update table values key) db = (after, .ok (affected + 1))
    → rowKey table values = key.map some
    → row after = Function.update (row db) (table.name, key) (some values)
  delete : ∀ table ∈ tables, ∀ key db after affected,
    execute (.delete table key) db = (after, .ok (affected + 1))
    → row after = Function.update (row db) (table.name, key) none

/-- The rows of all tables, each with the name of its table. -/
structure KeyedRows where
  rows : List (String × List Value)
  deriving DecidableEq, Repr

variable {affected : Nat}

namespace KeyedRows

variable (table : TableSchema)

/-- Whether the entry is the row of the table with the key. -/
def holds (key : List (Option Value)) (entry : String × List Value) : Bool :=
  entry.1 = table.name && rowKey table entry.2 = key

def has (db : KeyedRows) (table : TableSchema) (key : List (Option Value)) : Bool :=
  db.rows.any (holds table key)

def duplicateKey : DbError :=
  .constraint s!"duplicate primary key in table '{table.name}'"

def execute : ImportStatement → Stateful KeyedRows DbError Nat
  | .insert table values => fun db =>
    if db.has table (rowKey table values) then (db, .error (duplicateKey table))
    else ({ rows := db.rows ++ [(table.name, values)] }, .ok 1)
  | .update table values key => fun db =>
    if !db.has table (key.map some) then (db, .ok 0)
    else if rowKey table values ≠ key.map some ∧ db.has table (rowKey table values) then
      (db, .error (duplicateKey table))
    else
      ({ rows := db.rows.map fun entry =>
        if holds table (key.map some) entry then (table.name, values) else entry }, .ok 1)
  | .delete table key => fun db =>
    if !db.has table (key.map some) then (db, .ok 0)
    else ({ rows := db.rows.filter fun entry => !holds table (key.map some) entry }, .ok 1)

instance : ReplicaDatabase KeyedRows where
  rows db name := some ((db.rows.filter fun entry => entry.1 = name).map (·.2))
  execute := execute

/-- The row of the table that is found under the name. -/
def row (tables : List TableSchema) (db : KeyedRows) (name : RowName) : Option (List Value) :=
  (tables.find? fun table => table.name = name.1).bind fun table =>
    (db.rows.find? (holds table (name.2.map some))).map (·.2)

section Laws

variable {tables : List TableSchema} (distinct : (tables.map (·.name)).Nodup) {table : TableSchema}
  (member : table ∈ tables) {key values : List Value} {db after : KeyedRows}

include distinct member

/-- A table is found under its name. -/
theorem find?_name : tables.find? (fun other => other.name = table.name) = some table := by
  cases found : tables.find? (fun other => other.name = table.name) with
  | none =>
    have unnamed := find?_eq_none.mp found table member
    simp at unnamed
  | some other =>
    have named : other.name = table.name := by simpa using find?_some found
    rw [inj_on_of_nodup_map distinct (mem_of_find?_eq_some found) member named]

section

variable {other : TableSchema} {otherKey : List Value} {name : String} {entry : String × List Value}
  (found : tables.find? (fun other => other.name = name) = some other)
  (different : (name, otherKey) ≠ (table.name, key))
include found different

/-- An entry is the row of one name only. -/
theorem holds_apart (isOther : holds other (otherKey.map some) entry)
    : holds table (key.map some) entry = false := by
  by_contra both
  obtain ⟨entryOther, keyOther⟩ := Bool.and_eq_true_iff.mp isOther
  obtain ⟨entryTable, keyTable⟩ := Bool.and_eq_true_iff.mp (Bool.not_eq_false _ |>.mp both)
  have sameName : other.name = table.name :=
    (of_decide_eq_true entryOther).symm.trans (of_decide_eq_true entryTable)
  have sameTable := inj_on_of_nodup_map distinct (mem_of_find?_eq_some found) member
    sameName
  have named : other.name = name := by simpa using find?_some found
  rw [sameTable] at keyOther
  have sameKey : otherKey.map some = key.map some :=
    (of_decide_eq_true keyOther).symm.trans (of_decide_eq_true keyTable)
  rw [map_inj_right fun _ _ => Option.some.inj] at sameKey
  exact different (by rw [← named, sameName, sameKey])

/-- An entry under one key is under no other. -/
theorem holds_apart_symm (isOwn : holds table (key.map some) entry)
    : holds other (otherKey.map some) entry = false := by
  by_contra isOther
  rw [holds_apart distinct member found different (Bool.not_eq_false _ |>.mp isOther)] at isOwn
  cases isOwn

end

/-- The rows after a change: that of the key, and the others as they were. -/
theorem row_update {image : Option (List Value)}
    (own : (after.rows.find? (holds table (key.map some))).map (·.2) = image)
    (others : ∀ other otherKey name, tables.find? (fun other => other.name = name) = some other
      → (name, otherKey) ≠ (table.name, key) → after.rows.find? (holds other (otherKey.map some))
        = db.rows.find? (holds other (otherKey.map some)))
    : after.row tables = Function.update (db.row tables) (table.name, key) image := by
  funext ⟨name, otherKey⟩
  by_cases same : (name, otherKey) = (table.name, key)
  · obtain ⟨rfl, rfl⟩ := Prod.mk.inj same
    rw [Function.update_self, row, find?_name distinct member]
    exact own
  rw [Function.update_of_ne same, row, row]
  cases found : tables.find? (fun other => other.name = name) with
  | none => rfl
  | some other => rw [Option.bind_some, Option.bind_some, others other otherKey name found same]

/-- An insert changes the row of its key and no other. -/
theorem insert_law (ran : execute (.insert table values) db = (after, .ok affected))
    (rowed : rowKey table values = key.map some)
    : after.row tables = Function.update (db.row tables) (table.name, key) (some values) := by
  simp only [execute] at ran
  split at ran
  next => cases ran
  next absent =>
    obtain ⟨rfl, -⟩ := Prod.mk.inj ran
    have new : holds table (key.map some) (table.name, values) := by simp [holds, rowed]
    have free : db.rows.find? (holds table (key.map some)) = none := by
      simpa [has, rowed] using absent
    refine row_update distinct member ?_ ?_
    · simp [free, new]
    · intro other otherKey name found different
      simp [holds_apart_symm distinct member found different new]

/-- The entries of other keys are not changed, and the changed entry is not one of theirs. -/
theorem update_law (ran : execute (.update table values key) db = (after, .ok (affected + 1)))
    (rowed : rowKey table values = key.map some)
    : after.row tables = Function.update (db.row tables) (table.name, key) (some values) := by
  simp only [execute] at ran
  split at ran
  next => cases ran
  next present =>
    split at ran
    next => cases ran
    obtain ⟨rfl, -⟩ := Prod.mk.inj ran
    have new : holds table (key.map some) (table.name, values) := by simp [holds, rowed]
    have kept : ∀ test : String × List Value → Bool,
      (∀ entry, holds table (key.map some) entry → test (table.name, values) = test entry)
      → (test ∘ fun entry : String × List Value =>
        if holds table (key.map some) entry then (table.name, values) else entry)
        = test := by
      intro test same
      funext entry
      simp only [Function.comp]
      split
      next isOwn => exact same entry isOwn
      next => rfl
    refine row_update distinct member ?_ ?_
    · obtain ⟨entry, isRow⟩ : ∃ entry, db.rows.find? (holds table (key.map some)) = some entry :=
      Option.isSome_iff_exists.mp (find?_isSome.mpr (by simpa [has] using present))
      rw [find?_map, kept _ fun entry isOwn => new.trans isOwn.symm, isRow]
      simp [find?_some isRow]
    intro other otherKey name found different
    have apart {entry} := @holds_apart_symm tables distinct table member key other otherKey
      name entry found different
    rw [find?_map, kept _ fun entry isOwn => (apart new).trans (apart isOwn).symm]
    cases isRow : db.rows.find? (holds other (otherKey.map some)) with
    | none => rfl
    | some entry => simp [holds_apart distinct member found different (find?_some isRow)]

/-- A delete changes the row of its key and no other. -/
theorem delete_law (ran : execute (.delete table key) db = (after, .ok (affected + 1)))
    : after.row tables = Function.update (db.row tables) (table.name, key) none := by
  simp only [execute] at ran
  split at ran
  next => cases ran
  obtain ⟨rfl, -⟩ := Prod.mk.inj ran
  refine row_update distinct member ?_ ?_
  · simp
  intro other otherKey name found different
  rw [find?_filter]
  congr 1
  funext entry
  cases isOther : holds other (otherKey.map some) entry with
  | false => simp
  | true => simp [holds_apart distinct member found different isOther]

omit member in
/-- Tables with distinct names obey the laws of keyed statements. -/
theorem laws : KeyedLaws tables (row tables) where
  insert _ member _ _ _ _ _ ran rowed := insert_law distinct member ran rowed
  update _ member _ _ _ _ _ ran rowed := update_law distinct member ran rowed
  delete _ member _ _ _ _ ran := delete_law distinct member ran

end Laws

end KeyedRows

-- A replica with one table of texts

/-- JSON texts stand for TEXT values. -/
@[reducible]
def textJson : JsonPrimitives where
  columnValueToJson := fun
    | _, .text value => .string value
    | _, _ => .null
  jsonToColumnValue := fun
    | _, _, .string value => .ok (.text value)
    | tableName, column, _ =>
      .error (.sql s!"column '{column.name}' in table '{tableName}' must be TEXT")

def textColumn (name : String) : ColumnSchema where
  name
  columnType := .text
  nullable := false
  generated := none
  generatedStored := false
  autoIncrement := false

/-- A table with the columns `id` and `name` and the primary key `id`. -/
def itemsTable : TableSchema where
  name := "items"
  columns := [textColumn "id", textColumn "name"]
  primaryKeyColumns := ["id"]

def itemJson (id name : String) : Json := .object [("id", .string id), ("name", .string name)]

/-- A record of the replica `remote` that stores the item. -/
def itemRecord (sequence : Nat) (operation id name : String) : SyncJournalRecord where
  schemaVersion := 1
  sequence
  replicaId := "remote"
  transactionLsn := sequence
  table := "items"
  operation
  primaryKey := .object [("id", .string id)]
  after := if operation = "delete" then none else some (itemJson id name)
  schemaCookie := 1
  committedAtMicros := 0

/-- A replica with the table and without rows. -/
def emptyReplica : Replica KeyedRows where
  settings := {
    schemaCookie := 1
    tables := [itemsTable]
    replicaId := some "local"
    originPriority := []
  }
  db := { rows := [] }
  watermarks := fun _ => none
  imported := fun _ _ => false
  conflicts := []

end DecentDb.Sync
