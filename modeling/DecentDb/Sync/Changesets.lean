import DecentDb.Sync.Batches

/-! Changesets: how they are made of journal records, of the difference of two branches or
snapshots and of another changeset, and how one is checked.
-/

namespace DecentDb.Sync

open Sql (ColumnSchema TableSchema)

-- Changesets and who may apply them

structure SyncChangesetRecord where
  recordVersion : Nat
  table : String
  operation : String
  primaryKey : Json
  originReplicaId : String
  originSequence : Nat
  transactionLsn : Nat
  schemaCookie : Nat
  before : Option Json
  after : Option Json

structure SyncChangeset where
  changesetVersion : Nat
  changesetId : String
  sourceReplicaId : String
  scopeName : Option String
  shapeId : Option String
  endCheckpoint : Option Nat
  sourceHighWatermark : Option Nat
  schemaFingerprint : String
  schemaCookie : Nat
  syncContractVersion : Nat
  records : List SyncChangesetRecord
  createdAtMicros : Int
  integrityHash : Option String

def syncChangesetVersion : Nat := 1

def syncContractVersion : Nat := 1

/-- The digests and the reading of a branch value: any functions. -/
class ChangesetPrimitives where
  integrityHash : SyncChangeset → String
  syncChangesetId : String → String → Int → Nat → String
  jsonFromBranchValue : String → Json

structure SyncPrincipal where
  tenantId : String
  subjectId : String
  sessionId : String
  requestId : String
  roles : List String
  allowedScopes : List String
  allowedShapes : List String

structure SyncShape where
  shapeId : String
  scopeName : String
  tenantId : String
  allowedRoles : List String
  allowedSubjects : List String
  maxRecords : Nat

/-- A text without a character that is not white space. -/
def isBlankText (text : String) : Bool := text.toList.all Char.isWhitespace

section

variable (principal : SyncPrincipal)

def SyncPrincipal.validate : DbResult Unit :=
  match [("tenant_id", principal.tenantId), ("subject_id", principal.subjectId),
    ("session_id", principal.sessionId), ("request_id", principal.requestId)].find?
    fun field => isBlankText field.2 with
  | some (field, _) => .error (.sql s!"sync principal {field} is required")
  | none => .ok ()

def SyncPrincipal.allowsScope (scopeName : String) : Bool :=
  principal.allowedScopes.any fun scope => scope = "*" || identifiersEqual scope scopeName

def SyncPrincipal.allowsShape (shapeId : String) : Bool :=
  principal.allowedShapes.any fun shape => shape = "*" || identifiersEqual shape shapeId

end

def syncAuthorizeScope (principal : Option SyncPrincipal) (scopeName : String) : DbResult Unit :=
  match principal with
  | none => .ok ()
  | some principal =>
    if principal.allowsScope scopeName then .ok ()
    else .error (.sql
      s!"SCOPE_UNAUTHORIZED: principal '{principal.subjectId}' cannot access scope '{scopeName}'")

def syncAuthorizeShape (principal : Option SyncPrincipal) (shape : SyncShape) : DbResult Unit :=
  match principal with
  | none => .ok ()
  | some principal =>
    if !identifiersEqual principal.tenantId shape.tenantId then
      .error (.sql
        s!"AUTH_FORBIDDEN: shape '{shape.shapeId}' belongs to tenant '{shape.tenantId}'")
    else if !principal.allowsShape shape.shapeId then
      .error (.sql (s!"AUTH_FORBIDDEN: principal '{principal.subjectId}' cannot access shape "
        ++ s!"'{shape.shapeId}'"))
    else if !shape.allowedSubjects.isEmpty && !shape.allowedSubjects.any fun subject =>
      subject = "*" || subject = principal.subjectId then
      .error (.sql (s!"AUTH_FORBIDDEN: subject '{principal.subjectId}' is not allowed for shape "
        ++ s!"'{shape.shapeId}'"))
    else if !shape.allowedRoles.isEmpty && !principal.roles.any fun role =>
      shape.allowedRoles.any fun allowed => allowed = "*" || allowed = role then
      .error (.sql (s!"AUTH_FORBIDDEN: principal '{principal.subjectId}' lacks a role for shape "
        ++ s!"'{shape.shapeId}'"))
    else .ok ()

-- Making changesets

def syncChangesetRecordFromJournalRecord (record : SyncJournalRecord) : SyncChangesetRecord where
  recordVersion := 1
  table := record.table
  operation := record.operation
  primaryKey := record.primaryKey
  originReplicaId := record.replicaId
  originSequence := record.sequence
  transactionLsn := record.transactionLsn
  schemaCookie := record.schemaCookie
  before := none
  after := record.after

/-- What the maker of a changeset knows about itself. -/
structure ChangesetContext where
  scopeName : Option String
  shapeId : Option String
  schemaFingerprint : String
  schemaCookie : Nat
  createdAtMicros : Int

section Making

variable [ChangesetPrimitives]

def syncFinalizeChangeset (changeset : SyncChangeset) : SyncChangeset :=
  { changeset with
    integrityHash := some (ChangesetPrimitives.integrityHash { changeset with integrityHash := none }) }

section

variable (context : ChangesetContext)

/-- The changeset of some records whose watermark is given. -/
def changesetOf (kind sourceReplicaId : String)
    (records : List SyncChangesetRecord) (sourceHighWatermark : Option Nat) : SyncChangeset where
  changesetVersion := syncChangesetVersion
  changesetId := ChangesetPrimitives.syncChangesetId kind sourceReplicaId context.createdAtMicros
    records.length
  sourceReplicaId
  scopeName := context.scopeName
  shapeId := context.shapeId
  endCheckpoint := records.getLast?.map (·.originSequence)
  sourceHighWatermark
  schemaFingerprint := context.schemaFingerprint
  schemaCookie := context.schemaCookie
  syncContractVersion
  records
  createdAtMicros := context.createdAtMicros
  integrityHash := none

/-- The changeset of an exported batch; `replicaId` is the producer's own, `lastSequence` the
last one of its journal.
-/
def checkpointChangeset (batch : SyncChangeBatch)
    (replicaId : Option String) (lastSequence : Option Nat) : SyncChangeset :=
  syncFinalizeChangeset (changesetOf context "checkpoint"
    ((batch.sourceReplicaId.or replicaId).getD "unknown")
    (batch.records.map syncChangesetRecordFromJournalRecord)
    ((batch.sourceHighWatermark.or batch.lastSequence).or lastSequence))

structure BranchRowDiff where
  primaryKey : List String
  before : Option (List String)
  after : Option (List String)

structure BranchTableDiff where
  table : String
  unsupported : Bool
  schemaChanged : Bool
  added : List BranchRowDiff
  updated : List BranchRowDiff
  deleted : List BranchRowDiff
  message : Option String

def branchObject (mismatch : String) (columns values : List String) : DbResult Json :=
  if columns.length ≠ values.length then .error (.sql mismatch)
  else .ok (.object (columns.zip (values.map ChangesetPrimitives.jsonFromBranchValue)))

def branchImage (columns : List String) (values : Option (List String)) : DbResult (Option Json) :=
  match values with
  | none => .ok none
  | some values => (branchObject "branch diff row width mismatch" columns values).map some

def syncChangesetRecordFromBranchRow (sourceReplicaId : String)
    (table : TableSchema) (originSequence : Nat) (operation : String) (row : BranchRowDiff)
    : DbResult SyncChangesetRecord := do
  let columns := table.columns.map (·.name)
  let primaryKey ← branchObject "branch diff primary-key width mismatch" table.primaryKeyColumns
    row.primaryKey
  let before ← branchImage columns row.before
  let after ← branchImage columns row.after
  .ok {
    recordVersion := 1
    table := table.name
    operation
    primaryKey
    originReplicaId := sourceReplicaId
    originSequence
    transactionLsn := originSequence
    schemaCookie := context.schemaCookie
    before
    after
  }

/-- The rows of a table diff with their operations, in the order of the records. -/
def BranchTableDiff.rows (diff : BranchTableDiff) : List (String × BranchRowDiff) :=
  diff.added.map (("insert", ·)) ++ diff.updated.map (("update", ·))
    ++ diff.deleted.map (("delete", ·))

/-- Numbers the rows of one table from the given sequence on. -/
def branchRowRecords (context : ChangesetContext) (sourceReplicaId : String) (table : TableSchema)
    : Nat → List (String × BranchRowDiff) → DbResult (List SyncChangesetRecord)
  | _, [] => .ok []
  | sequence, (operation, row) :: rest => do
    let record ←
      syncChangesetRecordFromBranchRow context sourceReplicaId table sequence operation row
    let others ← branchRowRecords context sourceReplicaId table (sequence + 1) rest
    .ok (record :: others)

def refuseTableDiff (diff : BranchTableDiff) : DbResult Unit :=
  if diff.unsupported then
    .error (.sql (s!"CHANGESET_UNSUPPORTED: branch/snapshot diff for table '{diff.table}' is "
      ++ "unsupported: " ++ diff.message.getD "unsupported row diff"))
  else if diff.schemaChanged then
    .error (.sql s!"SCHEMA_INCOMPATIBLE: changeset diff for table '{diff.table}' changes schema")
  else .ok ()

/-- The records of one table, or none if the table is not there. -/
def tableDiffRecords (sourceReplicaId : String)
    (tables : List TableSchema) (sequence : Nat) (diff : BranchTableDiff)
    : DbResult (List SyncChangesetRecord) := do
  refuseTableDiff diff
  match tables.find? fun table => table.name = diff.table with
  | none => .ok []
  | some table => branchRowRecords context sourceReplicaId table sequence diff.rows

def diffRecords (context : ChangesetContext) (sourceReplicaId : String)
    (tables : List TableSchema) (maxRecords : Nat)
    : List SyncChangesetRecord → List BranchTableDiff → DbResult (List SyncChangesetRecord)
  | records, [] => .ok records
  | records, diff :: rest => do
    let more ← tableDiffRecords context sourceReplicaId tables (records.length + 1) diff
    if maxRecords < (records ++ more).length then
      .error (.sql "BATCH_TOO_LARGE: changeset exceeds max_records")
    else diffRecords context sourceReplicaId tables maxRecords (records ++ more) rest

/-- The changeset of a branch or snapshot diff: its source is named after the two refs, and
its records are numbered from one.
-/
def syncCreateDiffChangeset (tables : List TableSchema)
    (baseKind fromRef toRef : String) (maxRecords : Nat) (diff : List BranchTableDiff)
    : DbResult SyncChangeset := do
  let sourceReplicaId := s!"{baseKind}:{fromRef}:{toRef}"
  let records ← diffRecords context sourceReplicaId tables maxRecords [] diff
  .ok (syncFinalizeChangeset (changesetOf context baseKind sourceReplicaId records
    (records.getLast?.map (·.originSequence))))

end

end Making

-- Checks

section Checks

variable [ChangesetPrimitives]

def validateRecordAt (index : Nat) (record : SyncChangesetRecord) : DbResult Unit :=
  if record.recordVersion ≠ 1 then
    .error (.sql s!"CHANGESET_UNSUPPORTED: record {index} uses version {record.recordVersion}")
  else if record.operation = "insert" ∨ record.operation = "update" then
    if record.after.isNone then
      .error (.sql (s!"CHANGESET_INVALID: record {index} operation '{record.operation}' requires "
        ++ "after image"))
    else .ok ()
  else if record.operation = "delete" then .ok ()
  else .error (.sql s!"CHANGESET_INVALID: unsupported record operation '{record.operation}'")

def validateRecordsFrom : Nat → List SyncChangesetRecord → DbResult Unit
  | _, [] => .ok ()
  | index, record :: rest => do
    validateRecordAt index record
    validateRecordsFrom (index + 1) rest

variable (changeset : SyncChangeset)

def syncValidateChangesetEnvelope : DbResult Unit :=
  if changeset.changesetVersion ≠ syncChangesetVersion then
    .error (.sql
      s!"CHANGESET_UNSUPPORTED: unsupported changeset version {changeset.changesetVersion}")
  else if changeset.syncContractVersion ≠ syncContractVersion then
    .error (.sql (s!"CHANGESET_UNSUPPORTED: unsupported sync contract version "
      ++ s!"{changeset.syncContractVersion}"))
  else if isBlankText changeset.changesetId then
    .error (.sql "CHANGESET_INVALID: changeset_id is required")
  else
    match changeset.integrityHash with
    | none => .error (.sql "CHANGESET_INVALID: integrity_hash is required")
    | some expected =>
      if expected ≠ ChangesetPrimitives.integrityHash { changeset with integrityHash := none } then
        .error (.sql "CHANGESET_INVALID: integrity_hash does not match payload")
      else validateRecordsFrom 0 changeset.records

def syncJournalRecordFromChangesetRecord (record : SyncChangesetRecord)
    : DbResult SyncJournalRecord := do
  let after ← changesetAfter
  .ok {
    schemaVersion := 1
    sequence := record.originSequence
    replicaId := record.originReplicaId
    transactionLsn := record.transactionLsn
    table := record.table
    operation := record.operation
    primaryKey := record.primaryKey
    after
    schemaCookie := record.schemaCookie
    committedAtMicros := 0
  }
where
  changesetAfter : DbResult (Option Json) :=
    if record.operation = "insert" ∨ record.operation = "update" then
      match record.after with
      | some after => .ok (some after)
      | none =>
        .error (.sql "CHANGESET_INVALID: insert/update changeset record missing after")
    else if record.operation = "delete" then .ok none
    else .error (.sql s!"CHANGESET_INVALID: unsupported operation '{record.operation}'")

/-- The inverse of one record. -/
def invertRecord (changesetId : String) (index : Nat) (record : SyncChangesetRecord)
    : DbResult SyncChangesetRecord := do
  let operation ← inverseOperation
  .ok {
    recordVersion := record.recordVersion
    table := record.table
    operation
    primaryKey := record.primaryKey
    originReplicaId := s!"inverse:{changesetId}"
    originSequence := index + 1
    transactionLsn := index + 1
    schemaCookie := record.schemaCookie
    before := record.after
    after := if operation = "delete" then none else record.before
  }
where
  inverseOperation : DbResult String :=
    if record.operation = "insert" then .ok "delete"
    else if record.operation = "delete" ∨ record.operation = "update" then
      if record.before.isSome then
        .ok (if record.operation = "delete" then "insert" else "update")
      else
        .error (.sql s!"CHANGESET_INVERSION_UNSUPPORTED: record {index} lacks before image")
    else .error (.sql s!"CHANGESET_INVALID: unsupported record operation '{record.operation}'")

def invertRecordsFrom (changesetId : String)
    : Nat → List SyncChangesetRecord → DbResult (List SyncChangesetRecord)
  | _, [] => .ok []
  | index, record :: rest => do
    let inverse ← invertRecord changesetId index record
    let others ← invertRecordsFrom changesetId (index + 1) rest
    .ok (inverse :: others)

/-- The records are inverted one by one and stay in their order. -/
def syncInvertChangeset (createdAtMicros : Int)
    : DbResult SyncChangeset := do
  syncValidateChangesetEnvelope changeset
  let records ← invertRecordsFrom changeset.changesetId 0 changeset.records
  let sourceReplicaId := s!"inverse:{changeset.sourceReplicaId}"
  let last := records.getLast?.map (·.originSequence)
  .ok (syncFinalizeChangeset { changeset with
    changesetVersion := syncChangesetVersion
    changesetId := ChangesetPrimitives.syncChangesetId "inverse" sourceReplicaId createdAtMicros
      records.length
    sourceReplicaId
    endCheckpoint := last
    sourceHighWatermark := last
    records
    createdAtMicros
    integrityHash := none })

end Checks

end DecentDb.Sync
