import DecentDb.Library.TransitionSystem
import DecentDb.Sync.ChangesetApplication
import DecentDb.Sync.KeyedRows

/-! Shapes: the snapshot of the rows in a scope, the changes since a checkpoint, and the steps
of a server and of a client that applies what it is sent. A commit of the server is the rows
that it writes one after the other, each with its journal record if it is captured.
-/

namespace DecentDb.Sync

open Sql (ColumnSchema TableSchema)
open TransitionSystem (System)

-- Server rows

/-- The rows of the server, each under one name. -/
structure ServerRows where
  entries : List (RowName × List Value)
  distinct : (entries.map (·.1)).Nodup

namespace ServerRows

section

variable (rows : ServerRows)

def row (name : RowName) : Option (List Value) := rows.entries.lookup name

def ofTable (table : TableSchema) : List (List Value) :=
  (rows.entries.filter fun entry => entry.1.1 = table.name).map (·.2)

/-- Sets or removes the row of a name. -/
def set (name : RowName) (image : Option (List Value)) : ServerRows where
  entries := (image.map (name, ·)).toList ++ rows.entries.filter fun entry => entry.1 ≠ name
  distinct := by
    have others : ((rows.entries.filter fun entry => entry.1 ≠ name).map (·.1)).Nodup :=
      rows.distinct.sublist (List.filter_sublist.map _)
    cases image with
    | none => exact others
    | some values =>
      refine List.nodup_cons.mpr ⟨?_, others⟩
      simp

end

end ServerRows

section

variable (table : TableSchema)

section

variable (values : List Value)

/-- The values of the primary key of a row that has them all. -/
def keyOf : List Value :=
  (rowKey table values).filterMap id

def rowName : RowName :=
  (table.name, keyOf table values)

-- Deliveries

/-- The value that a row filter reads in a row. -/
def rowScopeValue (columnName : String) : DbResult Value :=
  match (table.columns.findIdx? fun column => identifiersEqual column.name columnName).bind
    (values[·]?) with
  | none => .error (.sql s!"unknown column {columnName}")
  | some value => .ok value

end

end

/-- The row filter of a scope on a row. -/
def rowSatisfies (scope : SyncScope) (table : TableSchema) (values : List Value) : DbResult Bool :=
  match scope.rowFilter with
  | none => .ok true
  | some rowFilter => do
    let filterValues ← scope.filterColumns.mapM (rowScopeValue table values)
    rowFilter filterValues

def selectRows (scope : SyncScope) (table : TableSchema)
    : List (List Value) → DbResult (List (List Value))
  | [] => .ok []
  | values :: rest => do
    let kept ← rowSatisfies scope table values
    let others ← selectRows scope table rest
    .ok (if kept then values :: others else others)

/-- A server with its journal; `log` keeps the records that were pruned, too. -/
structure ShapeServer where
  tables : List TableSchema
  schemaCookie : Nat
  schemaFingerprint : String
  replicaId : Option String
  scopes : List SyncScope
  shapes : List SyncShape
  rows : ServerRows
  journal : List SyncJournalRecord
  nextSequence : Nat
  log : List SyncJournalRecord

structure SyncShapeDelivery where
  shapeSequence : Nat
  sourceHighWatermark : Nat
  changeset : SyncChangeset

namespace ShapeServer

section

variable (server : ShapeServer)

def lastSequence : Option Nat := server.journal.getLast?.map (·.sequence)

def context (scopeName shapeId : String) (createdAtMicros : Int) : ChangesetContext where
  scopeName := some scopeName
  shapeId := some shapeId
  schemaFingerprint := server.schemaFingerprint
  schemaCookie := server.schemaCookie
  createdAtMicros

def syncShape (shapeId : String) : DbResult SyncShape :=
  match server.shapes.find? fun shape => shape.shapeId = shapeId with
  | some shape => .ok shape
  | none => .error (.sql s!"SHAPE_NOT_FOUND: sync shape '{shapeId}' not found")

def shapeScope (shape : SyncShape) : DbResult SyncScope := do
  match ← syncScope server.scopes shape.scopeName with
  | some scope => .ok scope
  | none => .error (.sql s!"sync scope '{shape.scopeName}' not found")

end

end ShapeServer

section Deliveries

variable [JsonPrimitives] [ChangesetPrimitives]

def snapshotRecord (source : String) (schemaCookie : Nat) (table : TableSchema) (sequence : Nat)
    (values : List Value) : SyncChangesetRecord where
  recordVersion := 1
  table := table.name
  operation := "insert"
  primaryKey := buildPrimaryKeyJson table values
  originReplicaId := source
  originSequence := sequence
  transactionLsn := sequence
  schemaCookie
  before := none
  after := some (buildAfterJson table values)

/-- Numbers the rows of one table from the given sequence on. -/
def snapshotTableRecords (source : String) (schemaCookie : Nat) (table : TableSchema)
    : Nat → List (List Value) → List SyncChangesetRecord
  | _, [] => []
  | sequence, values :: rest =>
    snapshotRecord source schemaCookie table sequence values
      :: snapshotTableRecords source schemaCookie table (sequence + 1) rest

/-- The records of the tables of the scope, one table after the other. -/
def snapshotRecords (server : ShapeServer) (source : String) (scope : SyncScope)
    (maxRecords : Nat)
    : List SyncChangesetRecord → List String → DbResult (List SyncChangesetRecord)
  | records, [] => .ok records
  | records, tableName :: rest =>
    match catalogTable server.tables tableName with
    | none => .error (.sql s!"sync scope table '{tableName}' does not exist")
    | some table => do
      let selected ← selectRows scope table (server.rows.ofTable table)
      let more := snapshotTableRecords source server.schemaCookie table (records.length + 1)
        selected
      if maxRecords < (records ++ more).length then
        .error (.sql "BATCH_TOO_LARGE: shape snapshot exceeds max_records")
      else snapshotRecords server source scope maxRecords (records ++ more) rest

variable (server : ShapeServer)

/-- The records are numbered from one, under the watermark of the journal. -/
def syncCreateShapeSnapshotChangeset (shape : SyncShape)
    (scope : SyncScope) (createdAtMicros : Int) : DbResult SyncChangeset := do
  let source := server.replicaId.getD "snapshot"
  let records ← snapshotRecords server source scope shape.maxRecords [] scope.includeTables
  .ok (syncFinalizeChangeset (changesetOf (server.context scope.name shape.shapeId createdAtMicros)
    "shape_snapshot" source records (some (server.lastSequence.getD 0))))

def syncShapeSnapshot (shapeId : String) (principal : Option SyncPrincipal)
    (createdAtMicros : Int) : DbResult SyncShapeDelivery := do
  let shape ← server.syncShape shapeId
  syncAuthorizeShape principal shape
  let scope ← server.shapeScope shape
  let changeset ← syncCreateShapeSnapshotChangeset server shape scope createdAtMicros
  let shapeSequence := changeset.checkpoint.getD 0
  .ok {
    shapeSequence
    sourceHighWatermark := changeset.sourceHighWatermark.getD shapeSequence
    changeset
  }

/-- A checkpoint below the first record that is still there asks for a new snapshot. -/
def refusePruned (since : Nat) : DbResult Unit :=
  match server.journal.head? with
  | none => .ok ()
  | some first =>
    if 0 < since ∧ since < first.sequence then
      .error (.sql (s!"SHAPE_RESYNC_REQUIRED: since checkpoint {since} is below retained first "
        ++ s!"sequence {first.sequence}"))
    else .ok ()

/-- The journal records after the checkpoint, as many as the request allows. -/
def syncPendingChanges (since limit : Nat) : List SyncJournalRecord :=
  (server.journal.filter fun record => since < record.sequence).take limit

def principalValid : Option SyncPrincipal → DbResult Unit
  | none => .ok ()
  | some principal => principal.validate

def syncShapeChanges (shapeId : String) (since : Nat)
    (principal : Option SyncPrincipal) (createdAtMicros : Int) : DbResult SyncShapeDelivery := do
  let shape ← server.syncShape shapeId
  syncAuthorizeShape principal shape
  refusePruned server since
  principalValid principal
  let scope ← server.shapeScope shape
  let batch ← syncExportBatchForScope server.tables scope
    (syncPendingChanges server since shape.maxRecords)
  let changeset := checkpointChangeset
    (server.context shape.scopeName shape.shapeId createdAtMicros) batch server.replicaId
    server.lastSequence
  let shapeSequence := changeset.checkpoint.getD since
  .ok {
    shapeSequence
    sourceHighWatermark := changeset.sourceHighWatermark.getD shapeSequence
    changeset
  }

-- A server and a client

/-- A row that is inserted, changed under its key, or deleted. -/
structure ServerWrite where
  operation : SyncOperation
  table : TableSchema
  values : List Value

def SyncOperation.text : SyncOperation → String
  | .insert => "insert"
  | .update => "update"
  | .delete => "delete"

def SyncOperation.image (operation : SyncOperation) (values : List Value) : Option (List Value) :=
  match operation with
  | .delete => none
  | _ => some values

/-- The record that the journal gets for a write. -/
def ServerWrite.record (write : ServerWrite) (server : ShapeServer) : SyncJournalRecord where
  schemaVersion := 1
  sequence := server.nextSequence
  replicaId := server.replicaId.getD "unknown"
  transactionLsn := server.nextSequence
  table := write.table.name
  operation := write.operation.text
  primaryKey := buildPrimaryKeyJson write.table write.values
  after := match write.operation with
    | .delete => none
    | _ => some (buildAfterJson write.table write.values)
  schemaCookie := server.schemaCookie
  committedAtMicros := 0

/-- Whether the row is there, and for a delete that it is the one that goes. -/
def ServerWrite.possible (write : ServerWrite) (server : ShapeServer) : Bool :=
  match write.operation, server.rows.row (rowName write.table write.values) with
  | .insert, none => true
  | .update, some _ => true
  | .delete, some old => old = write.values
  | _, _ => false

def ShapeServer.write (server : ShapeServer) (write : ServerWrite) : ShapeServer :=
  { server with
    rows := server.rows.set (rowName write.table write.values)
      (write.operation.image write.values)
    journal := server.journal ++ [write.record server]
    nextSequence := server.nextSequence + 1
    log := server.log ++ [write.record server] }

/-- A write that the capture of changes misses: it leaves no record. -/
def ShapeServer.writeUncaptured (server : ShapeServer) (write : ServerWrite) : ShapeServer :=
  { server with
    rows := server.rows.set (rowName write.table write.values)
      (write.operation.image write.values) }

def ShapeServer.prune (through : Nat) : ShapeServer :=
  { server with journal := server.journal.filter fun record => through < record.sequence }

/-- `received` is the checkpoint of the last delivery that the client applied, `applied` tells
whether the last step applied one.
-/
structure ShapeRun (Db : Type) where
  server : ShapeServer
  client : SyncDatabase Db
  received : Option Nat
  acknowledged : Option Nat
  applied : Bool

inductive ShapeAction where
  | write (write : ServerWrite)
  | writeUncaptured (write : ServerWrite)
  | prune (through : Nat)
  | snapshot (createdAtMicros : Int) (options : ApplyChangesetOptions) (storage : ApplyStorage)
  | changes (createdAtMicros : Int) (options : ApplyChangesetOptions) (storage : ApplyStorage)
  | acknowledge

variable {Db : Type} [ReplicaDatabase Db]

namespace ShapeRun

/-- The client applies a delivery; an error or a conflict is no success. -/
def apply (run : ShapeRun Db) (options : ApplyChangesetOptions) (storage : ApplyStorage)
    (delivery : SyncShapeDelivery) : ShapeRun Db :=
  match syncApplyChangeset options delivery.changeset storage run.client with
  | (after, .ok result) =>
    if result.outcome = .applied then
      { run with
        client := after
        received := some delivery.sourceHighWatermark
        applied := true }
    else { run with client := after, applied := false }
  | (after, .error _) => { run with client := after, applied := false }

/-- A request that the server refuses changes nothing. -/
def deliver (run : ShapeRun Db) (options : ApplyChangesetOptions) (storage : ApplyStorage)
    (answer : DbResult SyncShapeDelivery) : ShapeRun Db :=
  match answer with
  | .ok delivery => run.apply options storage delivery
  | .error _ => { run with applied := false }

end ShapeRun

def shapeSystem (Db : Type) [ReplicaDatabase Db] (shapeId : String)
    (principal : Option SyncPrincipal) : System (ShapeRun Db) ShapeAction where
  next run
    | .write write =>
      if write.possible run.server then
        some { run with server := run.server.write write, applied := false }
      else none
    | .writeUncaptured write =>
      if write.possible run.server then
        some { run with server := run.server.writeUncaptured write, applied := false }
      else none
    | .prune through => some { run with server := run.server.prune through, applied := false }
    | .snapshot createdAtMicros options storage =>
      some (run.deliver options storage
        (syncShapeSnapshot run.server shapeId principal createdAtMicros))
    | .changes createdAtMicros options storage =>
      run.acknowledged.map fun since =>
        run.deliver options storage
          (syncShapeChanges run.server shapeId since principal createdAtMicros)
    | .acknowledge =>
      run.received.map fun checkpoint =>
        { run with acknowledged := some checkpoint, applied := false }

end Deliveries

end DecentDb.Sync
