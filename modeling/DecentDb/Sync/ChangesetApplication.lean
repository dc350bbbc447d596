import DecentDb.Sync.Changesets
import DecentDb.Sync.Import

/-! The application of a changeset: who may apply it, what it has to agree with, and how it
is turned into an import.
-/

namespace DecentDb.Sync

open Sql (TableSchema)

/-- A database with its sync tables, as far as an application reads them. -/
structure SyncDatabase (Db : Type) where
  replica : Replica Db
  scopes : List SyncScope
  shapes : List SyncShape
  defaultPolicy : SyncConflictPolicy
  schemaFingerprint : String
  appliedChangesets : String → Option String

inductive SyncCompatibilityMode where
  | strict
  | inspectOnly
  deriving DecidableEq, Repr

structure ApplyChangesetOptions where
  principal : Option SyncPrincipal
  conflictPolicy : Option SyncConflictPolicy
  compatibilityMode : SyncCompatibilityMode
  atomic : Bool

inductive ApplyOutcome where
  | alreadyApplied
  | conflictRecorded
  | applied
  deriving DecidableEq, Repr

structure SyncChangesetApplyResult where
  outcome : ApplyOutcome
  changesetId : String
  rowsSeen : Nat
  rowsApplied : Nat
  rowsSkipped : Nat
  rowsConflicted : Nat
  checkpointAfter : Option Nat

/-- What the storage answers when the import commits, when the mark of the changeset is
written and when its history is.
-/
structure ApplyStorage where
  commit : DbResult Unit
  mark : DbResult Unit
  history : DbResult Unit

section Application

variable [ChangesetPrimitives] [JsonPrimitives] {Db : Type} [ReplicaDatabase Db]
  (options : ApplyChangesetOptions)

def refuseNonAtomic : DbResult Unit :=
  if options.atomic then .ok ()
  else .error (.sql "CHANGESET_UNSUPPORTED: non-atomic changeset apply is not supported")

def validatePrincipal : DbResult Unit :=
  match options.principal with
  | none => .ok ()
  | some principal => principal.validate

variable (changeset : SyncChangeset)

/-- A shape is authorized instead of its scope. -/
def authorizeChangeset (database : SyncDatabase Db) : DbResult Unit :=
  match changeset.shapeId, changeset.scopeName with
  | some shapeId, _ =>
    match database.shapes.find? fun shape => shape.shapeId = shapeId with
    | none => .error (.sql s!"SHAPE_NOT_FOUND: sync shape '{shapeId}' not found")
    | some shape => syncAuthorizeShape options.principal shape
  | none, some scopeName => syncAuthorizeScope options.principal scopeName
  | none, none => .ok ()

variable (changeset : SyncChangeset) (database : SyncDatabase Db)

def syncCheckChangesetCompatibility : DbResult Unit :=
  if database.schemaFingerprint ≠ changeset.schemaFingerprint then
    .error (.sql (s!"SCHEMA_INCOMPATIBLE: local schema fingerprint {database.schemaFingerprint} "
      ++ s!"does not match changeset {changeset.schemaFingerprint}"))
  else if database.replica.settings.schemaCookie ≠ changeset.schemaCookie then
    .error (.sql (s!"SCHEMA_INCOMPATIBLE: local schema_cookie "
      ++ s!"{database.replica.settings.schemaCookie} does not match changeset "
      ++ s!"{changeset.schemaCookie}"))
  else .ok ()

def checkCompatibility : DbResult Unit :=
  match options.compatibilityMode with
  | .strict => syncCheckChangesetCompatibility changeset database
  | .inspectOnly => .ok ()

def SyncChangeset.checkpoint : Option Nat :=
  changeset.sourceHighWatermark.or changeset.endCheckpoint

/-- The batch that is imported for the changeset. -/
def SyncChangeset.batch : DbResult SyncChangeBatch := do
  let records ← changeset.records.mapM syncJournalRecordFromChangesetRecord
  SyncChangeBatch.scopedFromRecords records (some changeset.sourceReplicaId) changeset.checkpoint

/-- Every record of the batch has to be in the scope. -/
def syncValidateBatchForScope (tables : List TableSchema) (scope : SyncScope)
    : List SyncJournalRecord → DbResult Unit
  | [] => .ok ()
  | record :: rest =>
    if !scope.includes record.table then
      .error (.sql (s!"sync batch contains table '{record.table}' which is outside scope "
        ++ s!"'{scope.name}'"))
    else do
      let inside ← syncScopeRecordMatches tables scope record
      if inside then syncValidateBatchForScope tables scope rest
      else .error (.sql (s!"sync batch contains record for table '{record.table}' that does not "
        ++ s!"match scope '{scope.name}'"))

/-- The text without white space at its ends. -/
def trimText (text : String) : String :=
  String.ofList ((text.toList.dropWhile Char.isWhitespace).reverse.dropWhile
    Char.isWhitespace).reverse

def syncScope (scopes : List SyncScope) (name : String) : DbResult (Option SyncScope) :=
  if isBlankText name then .error (.sql "sync scope name must not be empty")
  else .ok (scopes.find? fun scope => scope.name = trimText name)

variable (scopeName : Option String)

def validateForScope (batch : SyncChangeBatch)
    (database : SyncDatabase Db) : DbResult Unit :=
  match scopeName with
  | none => .ok ()
  | some scopeName => do
    match ← syncScope database.scopes scopeName with
    | none => .error (.sql s!"sync scope '{scopeName}' not found")
    | some scope =>
      syncValidateBatchForScope database.replica.settings.tables scope batch.records

def onReplica {Result : Type} (program : Stateful (Replica Db) DbError Result)
    : Stateful (SyncDatabase Db) DbError Result := fun database =>
  ({ database with replica := (program database.replica).1 }, (program database.replica).2)

/-- The import with the policy of the caller or else the one of the database. -/
def importChangeset (batch : SyncChangeBatch) (storage : ApplyStorage)
    : Stateful (SyncDatabase Db) DbError SyncImportSummary := do
  .lift batch.validate
  .readResult (validateForScope scopeName batch)
  let policy ← .read fun database => options.conflictPolicy.getD database.defaultPolicy
  onReplica (syncImportBatchWithPolicy policy batch storage.commit)

def alreadyApplied (integrityHash existing : String) : DbResult SyncChangesetApplyResult :=
  if existing ≠ integrityHash then
    .error (.sql (s!"CHANGESET_ID_COLLISION: changeset '{changeset.changesetId}' was already "
      ++ "applied with a different integrity hash"))
  else .ok {
    outcome := .alreadyApplied
    changesetId := changeset.changesetId
    rowsSeen := changeset.records.length
    rowsApplied := 0
    rowsSkipped := changeset.records.length
    rowsConflicted := 0
    checkpointAfter := changeset.checkpoint
  }

def markApplied (changesetId integrityHash : String) (database : SyncDatabase Db)
    : SyncDatabase Db :=
  { database with
    appliedChangesets := fun id =>
      if id = changesetId then some integrityHash else database.appliedChangesets id }

variable (integrityHash : String)

/-- Marks the changeset as applied and reports on it. -/
def finishApply (storage : ApplyStorage) (summary : SyncImportSummary)
    : Stateful (SyncDatabase Db) DbError SyncChangesetApplyResult := do
  .lift storage.mark
  .modify (markApplied changeset.changesetId integrityHash)
  .lift storage.history
  pure {
    outcome := if 0 < summary.conflicted then .conflictRecorded else .applied
    changesetId := changeset.changesetId
    rowsSeen := summary.seen
    rowsApplied := summary.applied
    rowsSkipped := summary.skipped
    rowsConflicted := summary.conflicted
    checkpointAfter := changeset.checkpoint
  }

def applyNew
    (storage : ApplyStorage) : Stateful (SyncDatabase Db) DbError SyncChangesetApplyResult := do
  let batch ← .lift changeset.batch
  let summary ← importChangeset options changeset.scopeName batch storage
  finishApply changeset integrityHash storage summary

def syncApplyChangeset
    (storage : ApplyStorage) : Stateful (SyncDatabase Db) DbError SyncChangesetApplyResult := do
  .lift (syncValidateChangesetEnvelope changeset)
  .lift (refuseNonAtomic options)
  .lift (validatePrincipal options)
  .readResult (authorizeChangeset options changeset)
  .readResult (checkCompatibility options changeset)
  let integrityHash := ChangesetPrimitives.integrityHash { changeset with integrityHash := none }
  let existing ← .read fun database => database.appliedChangesets changeset.changesetId
  match existing with
  | some existing => .lift (alreadyApplied changeset integrityHash existing)
  | none => applyNew options changeset integrityHash storage

end Application

end DecentDb.Sync
