import DecentDb.Identifiers
import DecentDb.Library.Results
import DecentDb.Record.Json
import DecentDb.Sql.Schema

/-! Records of the sync journal, the scopes that select some of them, and the batches in
which they are shipped to another replica.
-/

namespace DecentDb.Sync

open Sql (ColumnSchema TableSchema)

-- Payloads

/-- The conversions between column values and JSON: any functions. -/
class JsonPrimitives where
  columnValueToJson : ColumnSchema → Value → Json
  jsonToColumnValue : String → ColumnSchema → Json → DbResult Value

/-- A table by its exact name or else by its name up to case. -/
def catalogTable (tables : List TableSchema) (name : String) : Option TableSchema :=
  (tables.find? fun table => table.name = name).or
    (tables.find? fun table => identifiersEqual table.name name)

def isInternalTableName (name : String) : Bool :=
  "__decentdb_".toList.isPrefixOf name.toList

section Payloads

variable [JsonPrimitives]

def buildAfterJson (table : TableSchema) (values : List Value) : Json :=
  .object ((table.columns.zip values).map fun (column, value) =>
    (column.name, JsonPrimitives.columnValueToJson column value))

def buildPrimaryKeyJson (table : TableSchema) (values : List Value) : Json :=
  .object (table.primaryKeyColumns.filterMap fun name => do
    let position ← table.columnPosition name
    let column ← table.columns[position]?
    let value ← values[position]?
    some (name, JsonPrimitives.columnValueToJson column value))

end Payloads

-- Records

structure SyncJournalRecord where
  schemaVersion : Nat
  sequence : Nat
  replicaId : String
  transactionLsn : Nat
  table : String
  operation : String
  primaryKey : Json
  after : Option Json
  schemaCookie : Nat
  committedAtMicros : Int

/-- A row filter is the function that its expression evaluates to, over the values of the
filter columns.
-/
structure SyncScope where
  name : String
  includeTables : List String
  rowFilter : Option (List Value → DbResult Bool)
  filterColumns : List String

section Scopes

variable [JsonPrimitives]

/-- The payload that a row filter reads: a delete only has its key. -/
def scopePayload (record : SyncJournalRecord) : DbResult Json :=
  if record.operation = "delete" then .ok record.primaryKey
  else if record.operation = "insert" ∨ record.operation = "update" then
    match record.after with
    | some after => .ok after
    | none => .error (.sql "sync record missing after payload")
  else .error (.sql s!"unsupported operation '{record.operation}'")

def scopeFields (record : SyncJournalRecord) : DbResult (List (String × Json)) := do
  let payload ← scopePayload record
  match payload.asObject with
  | some fields => .ok fields
  | none => .error (.sql s!"sync record for table '{record.table}' must use an object payload")

def scopeValue (table : TableSchema) (fields : List (String × Json)) (columnName : String)
    : DbResult Value :=
  match table.columns.find? fun column => identifiersEqual column.name columnName with
  | none =>
    .error (.sql s!"sync scope column '{columnName}' is missing from table '{table.name}'")
  | some column =>
    match fields.lookup column.name with
    | none =>
      .error (.sql
        s!"sync record for table '{table.name}' is missing scoped column '{column.name}'")
    | some value => JsonPrimitives.jsonToColumnValue table.name column value

def SyncScope.includes (scope : SyncScope) (tableName : String) : Bool :=
  scope.includeTables.any fun name => identifiersEqual name tableName

/-- Whether the row filter holds of the payload of a record. -/
def scopeFilterHolds (tables : List TableSchema) (scope : SyncScope)
    (rowFilter : List Value → DbResult Bool) (record : SyncJournalRecord) : DbResult Bool :=
  match catalogTable tables record.table with
  | none => .error (.sql s!"unknown table '{record.table}'")
  | some table => do
    let fields ← scopeFields record
    let values ← scope.filterColumns.mapM (scopeValue table fields)
    rowFilter values

def syncScopeRecordMatches (tables : List TableSchema) (scope : SyncScope)
    (record : SyncJournalRecord) : DbResult Bool :=
  if scope.includes record.table then
    match scope.rowFilter with
    | none => .ok true
    | some rowFilter => scopeFilterHolds tables scope rowFilter record
  else .ok false

def syncFilterRecordsForScope (tables : List TableSchema) (scope : SyncScope)
    : List SyncJournalRecord → DbResult (List SyncJournalRecord)
  | [] => .ok []
  | record :: rest => do
    let kept ← syncScopeRecordMatches tables scope record
    let others ← syncFilterRecordsForScope tables scope rest
    .ok (if kept then record :: others else others)

end Scopes

-- Batches

structure SyncChangeBatch where
  protocolVersion : Nat
  batchId : String
  sourceReplicaId : Option String
  firstSequence : Option Nat
  lastSequence : Option Nat
  sourceHighWatermark : Option Nat
  recordCount : Nat
  records : List SyncJournalRecord

def protocolVersion : Nat := 1

def emptyBatchId : String := "sync-batch:v1:empty:0:0:0"

def deterministicBatchId : Option String → Option Nat → Option Nat → Nat → String
  | some source, some first, some last, count => s!"sync-batch:v1:{source}:{first}:{last}:{count}"
  | _, _, _, _ => emptyBatchId

namespace SyncChangeBatch

def empty : SyncChangeBatch where
  protocolVersion := Sync.protocolVersion
  batchId := emptyBatchId
  sourceReplicaId := none
  firstSequence := none
  lastSequence := none
  sourceHighWatermark := none
  recordCount := 0
  records := []

section

variable (batch : SyncChangeBatch)

def validateEmpty : DbResult Unit :=
  if batch.batchId ≠ emptyBatchId then
    .error (.sql (s!"sync batch_id mismatch for empty batch: expected {emptyBatchId}, "
      ++ s!"got {batch.batchId}"))
  else if batch.firstSequence.isSome || batch.lastSequence.isSome then
    .error (.sql "empty sync batch must not declare sequence bounds")
  else if batch.sourceHighWatermark.isSome && batch.sourceReplicaId.isNone then
    .error (.sql "empty sync batch with source_high_watermark must include source_replica_id")
  else .ok ()

/-- The bounds and the source that a batch declares against its records. -/
def validateRecords (source : String) (first last : Nat) : DbResult Unit :=
  let expected := deterministicBatchId (some source) (some first) (some last) batch.recordCount
  let actualFirst := batch.records.head?.map (·.sequence)
  let actualLast := batch.records.getLast?.map (·.sequence)
  if batch.batchId ≠ expected then
    .error (.sql s!"sync batch_id mismatch: expected {expected}, got {batch.batchId}")
  else if actualFirst ≠ some first then
    .error (.sql (s!"sync batch first_sequence {first} does not match first record sequence "
      ++ toString (actualFirst.getD 0)))
  else if actualLast ≠ some last then
    .error (.sql (s!"sync batch last_sequence {last} does not match last record sequence "
      ++ toString (actualLast.getD 0)))
  else if batch.sourceHighWatermark.any (· < last) then
    .error (.sql s!"sync batch source_high_watermark must be >= last_sequence {last}")
  else
    match batch.records.find? fun record => record.replicaId ≠ source with
    | some record =>
      .error (.sql (s!"mixed source_replica_id values in sync batch: expected {source}, "
        ++ s!"got {record.replicaId}"))
    | none => .ok ()

def validate : DbResult Unit :=
  if batch.protocolVersion ≠ Sync.protocolVersion then
    .error (.sql s!"unsupported sync batch protocol version {batch.protocolVersion}")
  else if batch.recordCount ≠ batch.records.length then
    .error (.sql (s!"sync batch record_count {batch.recordCount} does not match "
      ++ s!"{batch.records.length} record(s)"))
  else if batch.records.isEmpty then batch.validateEmpty
  else
    match batch.sourceReplicaId, batch.firstSequence, batch.lastSequence with
    | none, _, _ => .error (.sql "non-empty sync batch must include source_replica_id")
    | some _, none, _ => .error (.sql "non-empty sync batch must include first_sequence")
    | some _, some _, none => .error (.sql "non-empty sync batch must include last_sequence")
    | some source, some first, some last => batch.validateRecords source first last

/-- The sequence up to which an import of the batch covers its source. -/
def watermark : Option Nat :=
  batch.sourceHighWatermark.or batch.lastSequence

end

/-- The batch of some records, before its validation. -/
def ofRecords (first : SyncJournalRecord) (rest : List SyncJournalRecord) : SyncChangeBatch :=
  let last := ((first :: rest).getLast?.map (·.sequence)).getD first.sequence
  {
    protocolVersion := Sync.protocolVersion
    batchId := deterministicBatchId (some first.replicaId) (some first.sequence) (some last)
      (first :: rest).length
    sourceReplicaId := some first.replicaId
    firstSequence := some first.sequence
    lastSequence := some last
    sourceHighWatermark := none
    recordCount := (first :: rest).length
    records := first :: rest
  }

def fromRecords : List SyncJournalRecord → DbResult SyncChangeBatch
  | [] => .ok empty
  | first :: rest => do
    (ofRecords first rest).validate
    .ok (ofRecords first rest)

def scopedFromRecords (records : List SyncJournalRecord) (sourceReplicaId : Option String)
    (sourceHighWatermark : Option Nat) : DbResult SyncChangeBatch := do
  let batch ← fromRecords records
  let narrowed := { batch with
    sourceReplicaId := batch.sourceReplicaId.or sourceReplicaId
    sourceHighWatermark }
  narrowed.validate
  .ok narrowed

end SyncChangeBatch

section Exports

variable [JsonPrimitives] (tables : List TableSchema)

def syncExportBatchForScope (scope : SyncScope)
    (records : List SyncJournalRecord) : DbResult SyncChangeBatch := do
  let filtered ← syncFilterRecordsForScope tables scope records
  SyncChangeBatch.scopedFromRecords filtered (records.head?.map (·.replicaId))
    (records.getLast?.map (·.sequence))

/-- The batch of the journal records of one request, with a scope or without. -/
def syncExportBatch (scope : Option SyncScope)
    (records : List SyncJournalRecord) : DbResult SyncChangeBatch :=
  match scope with
  | none => SyncChangeBatch.fromRecords records
  | some scope => syncExportBatchForScope tables scope records

end Exports

end DecentDb.Sync
