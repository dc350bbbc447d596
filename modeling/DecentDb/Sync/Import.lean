import DecentDb.Library.Stateful
import DecentDb.Sync.Batches

/-! The import of a batch into a replica: which records are skipped, how a record is applied
to the rows, which conflicts are recorded and how the transaction around it ends. The
statements that an import issues are executed by the replica's database, whatever it is.
-/

namespace DecentDb.Sync

open Sql (ColumnSchema TableSchema)

-- The database underneath

/-- A statement with its parameters: the values of all columns and of the primary key. -/
inductive ImportStatement where
  | insert (table : TableSchema) (values : List Value)
  | update (table : TableSchema) (values : List Value) (key : List Value)
  | delete (table : TableSchema) (key : List Value)

/-- A statement returns the number of affected rows; one that fails may leave changes. -/
class ReplicaDatabase (Db : Type) where
  rows : Db → String → Option (List (List Value))
  execute : ImportStatement → Stateful Db DbError Nat

-- Conflicts

inductive SyncConflictPolicy where
  | record
  | stop
  | lastWriterWins
  | originPriority
  deriving DecidableEq, Repr

def SyncConflictPolicy.asStr : SyncConflictPolicy → String
  | .record => "record"
  | .stop => "stop"
  | .lastWriterWins => "last_writer_wins"
  | .originPriority => "origin_priority"

inductive ConflictType where
  | insertInsert
  | updateUpdate
  | deleteUpdate
  | constraintError
  | missingTarget
  | applyError
  deriving DecidableEq, Repr

structure SyncConflictRecordData where
  conflictType : ConflictType
  message : String
  localRow : Option Json
  resolution : Option String
  resolvedBy : Option String
  resolutionNote : Option String
  policyName : Option String

/-- A row of the conflicts table, without its times. -/
structure SyncConflict where
  conflictId : Nat
  batchId : String
  remoteReplicaId : String
  remoteSequence : Nat
  tableName : String
  operation : String
  conflictType : ConflictType
  message : String
  primaryKey : Json
  remoteRecord : SyncJournalRecord
  localRow : Option Json
  resolved : Bool
  resolution : Option String
  resolvedBy : Option String
  resolutionNote : Option String
  policyName : Option String

def unresolvedConflict (conflictType : ConflictType) (message : String) (localRow : Option Json)
    (policy : SyncConflictPolicy) : SyncConflictRecordData where
  conflictType
  message
  localRow
  resolution := none
  resolvedBy := none
  resolutionNote := none
  policyName := some policy.asStr

def resolvedConflict (conflictType : ConflictType) (message : String) (localRow : Option Json)
    (policy : SyncConflictPolicy) : SyncConflictRecordData where
  conflictType
  message
  localRow
  resolution := some "remote_applied"
  resolvedBy := some "sync_policy"
  resolutionNote := none
  policyName := some policy.asStr

-- Replicas

/-- What an import reads and never changes. -/
structure ReplicaSettings where
  schemaCookie : Nat
  tables : List TableSchema
  replicaId : Option String
  originPriority : List String

/-- The sync metadata is kept by what its keys name: the watermark of each source and the
records that are marked as imported.
-/
structure Replica (Db : Type) where
  settings : ReplicaSettings
  db : Db
  watermarks : String → Option Nat
  imported : String → Nat → Bool
  conflicts : List SyncConflict

inductive SyncOperation where
  | insert
  | update
  | delete
  deriving DecidableEq, Repr

inductive SyncImportRecordOutcome where
  | applied
  | conflict (conflict : SyncConflictRecordData)
  | resolved (conflict : SyncConflictRecordData)

def SyncOperation.parse (operation : String) : DbResult SyncOperation :=
  if operation = "insert" then .ok .insert
  else if operation = "update" then .ok .update
  else if operation = "delete" then .ok .delete
  else .error (.sql s!"unsupported operation '{operation}'")

section Records

variable [JsonPrimitives]

def keyValue (table : TableSchema) (primaryKey : List (String × Json)) (name : String)
    : DbResult Value :=
  match table.columns.find? fun column => column.name = name with
  | none => .error (.sql s!"table '{table.name}' missing primary key column '{name}'")
  | some column =>
    match primaryKey.lookup name with
    | none =>
      .error (.sql
        s!"missing primary key column '{name}' in record for table '{table.name}'")
    | some value => JsonPrimitives.jsonToColumnValue table.name column value

def keyValues (table : TableSchema) (primaryKey : List (String × Json)) : DbResult (List Value) :=
  table.primaryKeyColumns.mapM (keyValue table primaryKey)

def columnValue (payload : String) (table : TableSchema) (after : List (String × Json))
    (column : ColumnSchema) : DbResult Value :=
  match after.lookup column.name with
  | none =>
    .error (.sql
      s!"missing column '{column.name}' in {payload} payload for table '{table.name}'")
  | some value => JsonPrimitives.jsonToColumnValue table.name column value

def columnValues (payload : String) (table : TableSchema) (after : List (String × Json))
    : DbResult (List Value) :=
  table.columns.mapM (columnValue payload table after)

def objectOr (message : String) (json : Json) : DbResult (List (String × Json)) :=
  match json.asObject with
  | some fields => .ok fields
  | none => .error (.sql message)

def afterFields (missing malformed : String) (record : SyncJournalRecord)
    : DbResult (List (String × Json)) :=
  match record.after with
  | none => .error (.sql missing)
  | some after => objectOr malformed after

/-- Whether a row has the key; the columns behind the first difference are not looked at. -/
def rowHasKey (table : TableSchema) (primaryKey : List (String × Json)) (row : List Value)
    : List String → DbResult Bool
  | [] => .ok true
  | name :: rest => do
    let expected ← keyValue table primaryKey name
    match (table.columnPosition name).bind (row[·]?) with
    | none => .ok false
    | some actual =>
      if actual.partialEq expected then rowHasKey table primaryKey row rest else .ok false

def findRow (table : TableSchema) (primaryKey : List (String × Json))
    : List (List Value) → DbResult (Option Json)
  | [] => .ok none
  | row :: rest => do
    let found ← rowHasKey table primaryKey row table.primaryKeyColumns
    if found then .ok (some (buildAfterJson table row)) else findRow table primaryKey rest

def syncCaptureLocalRowJson {Db : Type} [ReplicaDatabase Db] (table : TableSchema)
    (primaryKey : List (String × Json)) (db : Db) : DbResult (Option Json) :=
  match ReplicaDatabase.rows db table.name with
  | none => .ok none
  | some rows => findRow table primaryKey rows

/-- The statement for a record, with the values that its payloads convert to. -/
def importStatement (record : SyncJournalRecord) (table : TableSchema)
    (primaryKey : List (String × Json)) : SyncOperation → DbResult ImportStatement
  | .insert => do
    let after ← afterFields "insert record missing after payload"
      "after must be an object for insert" record
    let values ← columnValues "after" table after
    .ok (.insert table values)
  | .update => do
    let after ← afterFields "update record missing after payload"
      "after must be an object for update" record
    let values ← columnValues "update" table after
    let key ← keyValues table primaryKey
    .ok (.update table values key)
  | .delete => do
    let key ← keyValues table primaryKey
    .ok (.delete table key)

/-- Whether the policy lets the remote row replace the local one. -/
def remoteWins (settings : ReplicaSettings) (record : SyncJournalRecord) : SyncConflictPolicy → Bool
  | .record | .stop => false
  | .lastWriterWins => true
  | .originPriority =>
    match settings.replicaId with
    | none => false
    | some localReplicaId =>
      match settings.originPriority.findIdx? (· = record.replicaId),
        settings.originPriority.findIdx? (· = localReplicaId) with
      | some remote, some own => remote < own
      | _, _ => false

variable {Db : Type} [ReplicaDatabase Db]

/-- Deletes the local row and inserts the remote one. -/
def applyRemoteReplace (record : SyncJournalRecord) (table : TableSchema)
    (primaryKey : List (String × Json)) (operation : SyncOperation) : Stateful Db DbError Unit := do
  let key ← .lift (keyValues table primaryKey)
  let _ ← ReplicaDatabase.execute (.delete table key)
  match operation with
  | .delete => pure ()
  | _ => do
    let after ← .lift (afterFields "remote record missing after payload"
      "remote record after payload must be an object" record)
    let values ← .lift (columnValues "after" table after)
    let _ ← ReplicaDatabase.execute (.insert table values)
    pure ()

def SyncOperation.clash : SyncOperation → ConflictType
  | .insert => .insertInsert
  | .update => .updateUpdate
  | .delete => .deleteUpdate

def SyncOperation.noRows : SyncOperation → Option String
  | .insert => none
  | .update => some "update affected no rows"
  | .delete => some "delete affected no rows"

/-- What the result of the statement means for the record. -/
def importOutcome (settings : ReplicaSettings) (policy : SyncConflictPolicy)
    (record : SyncJournalRecord) (table : TableSchema) (primaryKey : List (String × Json))
    (localRow : Option Json) (operation : SyncOperation)
    : DbResult Nat → Stateful Db DbError SyncImportRecordOutcome
  | .ok affected =>
    match affected, operation.noRows with
    | 0, some message =>
      pure (.conflict (unresolvedConflict .missingTarget message localRow policy))
    | _, _ => pure .applied
  | .error (.constraint message) =>
    if remoteWins settings record policy then do
      applyRemoteReplace record table primaryKey operation
      pure (.resolved (resolvedConflict operation.clash message localRow policy))
    else
      pure (.conflict (unresolvedConflict
        (if localRow.isSome then operation.clash else .constraintError) message localRow policy))
  | .error error =>
    pure (.conflict (unresolvedConflict .applyError error.text localRow policy))

def syncApplyImportRecord (settings : ReplicaSettings) (policy : SyncConflictPolicy)
    (record : SyncJournalRecord) (table : TableSchema)
    : Stateful Db DbError SyncImportRecordOutcome := do
  let primaryKey ← .lift (objectOr "primary_key must be an object" record.primaryKey)
  let localRow ← .readResult (syncCaptureLocalRowJson table primaryKey)
  let operation ← .lift (SyncOperation.parse record.operation)
  let statement ← .lift (importStatement record table primaryKey operation)
  let result ← (ReplicaDatabase.execute statement).attempt
  importOutcome settings policy record table primaryKey localRow operation result

-- Batches

def maxInt64 : Nat := 2 ^ 63 - 1

def nextSyncConflictId (conflicts : List SyncConflict) : DbResult Nat :=
  let current := (conflicts.map (·.conflictId)).foldr max 0
  if current < maxInt64 then .ok (current + 1)
  else .error (.internal "sync conflict_id counter overflow")

def recordSyncConflictWithData (batch : SyncChangeBatch) (record : SyncJournalRecord)
    (conflict : SyncConflictRecordData) : Stateful (Replica Db) DbError Nat := do
  let conflictId ← .readResult fun replica => nextSyncConflictId replica.conflicts
  .lift (if record.sequence ≤ maxInt64 then .ok ()
    else .error (.internal "remote_sequence exceeds INT64 range for sync conflict"))
  .modify fun replica => { replica with
    conflicts := replica.conflicts ++ [{
      conflictId
      batchId := batch.batchId
      remoteReplicaId := record.replicaId
      remoteSequence := record.sequence
      tableName := record.table
      operation := record.operation
      conflictType := conflict.conflictType
      message := conflict.message
      primaryKey := record.primaryKey
      remoteRecord := record
      localRow := conflict.localRow
      resolved := conflict.resolution.isSome
      resolution := conflict.resolution
      resolvedBy := conflict.resolvedBy
      resolutionNote := conflict.resolutionNote
      policyName := conflict.policyName
    }] }
  pure conflictId

/-- How the loop over the records ends early. -/
inductive ImportExit where
  | failed (error : DbError)
  | stopped (record : SyncJournalRecord) (conflict : SyncConflictRecordData)

inductive RecordResult where
  | applied
  | skipped
  | conflicted
  | resolved
  deriving DecidableEq, Repr

/-- The table that a record goes to, or none if the record is skipped. -/
def admitRecord (replica : Replica Db) (watermark : Option Nat) (record : SyncJournalRecord)
    : DbResult (Option TableSchema) :=
  if replica.settings.replicaId = some record.replicaId then
    .error (.sql s!"cannot import record from same replica '{record.replicaId}'")
  else if watermark.any (record.sequence ≤ ·) then .ok none
  else if record.schemaVersion ≠ 1 then
    .error (.sql s!"unsupported sync record schema version {record.schemaVersion}")
  else if record.schemaCookie ≠ replica.settings.schemaCookie then
    .error (.sql (s!"schema mismatch for table '{record.table}': record has schema_cookie "
      ++ s!"{record.schemaCookie} but local schema is {replica.settings.schemaCookie}"))
  else
    match catalogTable replica.settings.tables record.table with
    | none => .error (.sql s!"unknown table '{record.table}'")
    | some table =>
      if isInternalTableName table.name then
        .error (.sql s!"cannot import into internal table '{table.name}'")
      else if replica.imported record.replicaId record.sequence then .ok none
      else .ok (some table)

def orFail {State Result : Type} (program : Stateful State DbError Result)
    : Stateful State ImportExit Result := fun state =>
  ((program state).1, (program state).2.mapError .failed)

/-- Works on the rows only. -/
def onDatabase {Result : Type} (program : Stateful Db DbError Result)
    : Stateful (Replica Db) DbError Result := fun replica =>
  ({ replica with db := (program replica.db).1 }, (program replica.db).2)

def markImported (record : SyncJournalRecord) (replica : Replica Db) : Replica Db :=
  { replica with imported := fun replicaId sequence =>
    (replicaId = record.replicaId && sequence = record.sequence)
      || replica.imported replicaId sequence }

/-- Marks an applied record and records a conflict. -/
def settleOutcome (policy : SyncConflictPolicy) (batch : SyncChangeBatch)
    (record : SyncJournalRecord)
    : SyncImportRecordOutcome → Stateful (Replica Db) ImportExit RecordResult
  | .applied => do
    .modify (markImported record)
    pure .applied
  | .conflict conflict =>
    if policy = .stop then .lift (.error (.stopped record conflict))
    else do
      let _ ← orFail (recordSyncConflictWithData batch record conflict)
      pure .conflicted
  | .resolved conflict => do
    .modify (markImported record)
    let _ ← orFail (recordSyncConflictWithData batch record conflict)
    pure .resolved

/-- One turn of the loop over the records of a batch. -/
def importRecord (policy : SyncConflictPolicy) (batch : SyncChangeBatch) (watermark : Option Nat)
    (record : SyncJournalRecord) : Stateful (Replica Db) ImportExit RecordResult := do
  let admitted ← orFail (.readResult fun replica => admitRecord replica watermark record)
  match admitted with
  | none => pure .skipped
  | some table => do
    let settings ← .read (·.settings)
    let outcome ← orFail (onDatabase (syncApplyImportRecord settings policy record table))
    settleOutcome policy batch record outcome

structure SyncImportSummary where
  seen : Nat
  applied : Nat
  skipped : Nat
  conflicted : Nat
  deriving DecidableEq, Repr

def importSummary (batch : SyncChangeBatch) (results : List RecordResult) : SyncImportSummary where
  seen := batch.recordCount
  applied := results.countP fun result => result = .applied || result = .resolved
  skipped := results.count .skipped
  conflicted := results.countP fun result => result = .conflicted || result = .resolved

/-- Raises the stored watermark of the source to that of the batch. -/
def raiseWatermark (batch : SyncChangeBatch) (current : Option Nat) (replica : Replica Db)
    : Replica Db :=
  match batch.sourceReplicaId, batch.watermark with
  | some source, some watermark =>
    { replica with watermarks := fun replicaId =>
      if replicaId = source then some (max (current.getD 0) watermark)
      else replica.watermarks replicaId }
  | _, _ => replica

/-- The transaction: an error of a record or of the storage at its end undoes every record
of the batch, and a conflict that stops the import is recorded after that.
-/
def importTransaction (policy : SyncConflictPolicy) (batch : SyncChangeBatch)
    (current : Option Nat) (storage : DbResult Unit)
    : Stateful (Replica Db) DbError SyncImportSummary := fun replica =>
  match Stateful.each (importRecord policy batch current) batch.records replica with
  | (after, .ok results) =>
    match storage with
    | .ok () => (raiseWatermark batch current after, .ok (importSummary batch results))
    | .error error => (replica, .error error)
  | (_, .error (.failed error)) => (replica, .error error)
  | (_, .error (.stopped record conflict)) =>
    match recordSyncConflictWithData batch record conflict replica with
    | (after, .ok conflictId) =>
      (after, .error (.sql s!"sync import stopped on conflict {conflictId}"))
    | (after, .error error) => (after, .error error)

def refuseOwnBatch (batch : SyncChangeBatch) (replica : Replica Db) : DbResult Unit :=
  match replica.settings.replicaId with
  | some replicaId =>
    if batch.sourceReplicaId = some replicaId then
      .error (.sql s!"cannot import batch from same replica '{replicaId}'")
    else .ok ()
  | none => .ok ()

/-- A batch whose watermark is not above the stored one was imported before. -/
def SyncChangeBatch.isKnown (batch : SyncChangeBatch) (current : Option Nat) : Bool :=
  batch.watermark.any fun watermark => current.any (watermark ≤ ·)

/-- `storage` is what the commit of the transaction returns. -/
def syncImportBatchWithPolicy (policy : SyncConflictPolicy) (batch : SyncChangeBatch)
    (storage : DbResult Unit) : Stateful (Replica Db) DbError SyncImportSummary := do
  .lift batch.validate
  let current ← .read fun replica => batch.sourceReplicaId.bind replica.watermarks
  .readResult (refuseOwnBatch batch)
  if batch.isKnown current then do
    .modify (raiseWatermark batch current)
    pure {
      seen := batch.recordCount
      applied := 0
      skipped := batch.recordCount
      conflicted := 0
    }
  else importTransaction policy batch current storage

end Records

end DecentDb.Sync
