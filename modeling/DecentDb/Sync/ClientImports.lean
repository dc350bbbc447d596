import DecentDb.Sync.ChangesetEffect

/-! What an application of a changeset does to a replica, whatever it returns: nothing, a
recorded conflict, or an import of the batch without conflicts.
-/

namespace DecentDb.Sync

open Stateful SyncChangeBatch KeyedUpdates
open Stateful (Follows lift_ok_bind)

variable {batch : SyncChangeBatch} {record : SyncJournalRecord} {conflict : SyncConflictRecordData}
  {policy : SyncConflictPolicy} {watermark : Option Nat} {result : RecordResult}
  {storage : DbResult Unit} {changeset : SyncChangeset}

section

variable [JsonPrimitives] {Db : Type} [ReplicaDatabase Db] {replica after before : Replica Db}
  {error : DbError}

-- Recorded conflicts

def RecordResult.recordsConflict (result : RecordResult) : Bool :=
  result = .conflicted || result = .resolved

omit [JsonPrimitives] [ReplicaDatabase Db] in
/-- A recorded conflict is stored. -/
theorem recordSyncConflictWithData_ok {conflictId : Nat}
    (ran : recordSyncConflictWithData batch record conflict replica = (after, .ok conflictId))
    : after.conflicts ≠ [] := by
  obtain ⟨_, id, _, later⟩ := Stateful.bind_eq_ok.mp ran
  obtain ⟨_, ⟨⟩, _, later⟩ := Stateful.bind_eq_ok.mp later
  obtain ⟨_, ⟨⟩, modified, done⟩ := Stateful.bind_eq_ok.mp later
  cases modified
  cases done
  simp

/-- Conflicts are never removed. -/
def KeepsConflicts (before after : Replica Db) : Prop := before.conflicts ≠ [] → after.conflicts ≠ []

instance : Std.Refl (@KeepsConflicts Db) := ⟨fun _ some => some⟩

instance : IsTrans (Replica Db) KeepsConflicts := ⟨fun _ _ _ first second => second ∘ first⟩

/-- A record that conflicts leaves a stored conflict. -/
theorem importRecord_conflict
    (ran : importRecord policy batch watermark record replica = (after, .ok result))
    (conflicting : result.recordsConflict)
    : after.conflicts ≠ [] := by
  obtain ⟨_, admitted, _, later⟩ := Stateful.bind_eq_ok.mp ran
  cases admitted with
  | none =>
    cases later
    cases conflicting
  | some table =>
    obtain ⟨_, settings, _, later⟩ := Stateful.bind_eq_ok.mp later
    obtain ⟨_, outcome, _, settled⟩ := Stateful.bind_eq_ok.mp later
    cases outcome with
    | applied =>
      cases settled
      cases conflicting
    | conflict conflict =>
      rw [settleOutcome] at settled
      split at settled
      · cases settled
      · obtain ⟨_, _, recorded, done⟩ := Stateful.bind_eq_ok.mp settled
        obtain ⟨rfl, -⟩ := Prod.mk.inj done
        exact recordSyncConflictWithData_ok (orFail_eq_ok recorded)
    | resolved conflict =>
      obtain ⟨_, _, _, later⟩ := Stateful.bind_eq_ok.mp settled
      obtain ⟨_, _, recorded, done⟩ := Stateful.bind_eq_ok.mp later
      obtain ⟨rfl, -⟩ := Prod.mk.inj done
      exact recordSyncConflictWithData_ok (orFail_eq_ok recorded)

/-- A conflict of any record stays recorded to the end of the batch. -/
theorem each_importRecord_conflict {records : List SyncJournalRecord} {results : List RecordResult}
    (ran : each (importRecord policy batch watermark) records replica = (after, .ok results))
    (member : result ∈ results) (conflicting : result.recordsConflict)
    : after.conflicts ≠ [] := by
  induction records generalizing replica results with
  | nil =>
    cases ran
    cases member
  | cons record rest ih =>
    obtain ⟨middle, first, others, ranFirst, ranRest, rfl⟩ := each_cons_eq_ok.mp ran
    rcases List.mem_cons.mp member with rfl | later
    · have kept : KeepsConflicts middle (each (importRecord policy batch watermark) rest middle).1 :=
        Follows.each rest (fun _ _ => importRecord_follows (fun _ _ => id) (fun _ => id)
          fun _ _ some => by simp) middle
      rw [ranRest] at kept
      exact kept (importRecord_conflict ranFirst conflicting)
    · exact ih ranRest later

/-- An import that counts a conflict leaves a stored one. -/
theorem import_conflict {summary : SyncImportSummary}
    (ran : syncImportBatchWithPolicy policy batch storage replica = (after, .ok summary))
    (conflicted : summary.conflicted ≠ 0)
    : after.conflicts ≠ [] := by
  obtain ⟨valid, allowed⟩ := syncImportBatchWithPolicy_admits ran
  rw [syncImportBatchWithPolicy_eq valid allowed rfl] at ran
  split at ran
  · cases ran
    exact absurd rfl conflicted
  obtain ⟨reached, results, looped, rfl, rfl⟩ := importTransaction_ok ran
  obtain ⟨result, member, conflicting⟩ := List.countP_pos_iff.mp (Nat.pos_of_ne_zero conflicted)
  have recorded := each_importRecord_conflict looped member conflicting
  have same := congrArg List.length (raiseWatermark_alike batch
    (batch.sourceReplicaId.bind replica.watermarks) reached).conflicts
  simp only [List.length_map] at same
  intro none
  rw [none] at same
  exact recorded (List.length_eq_zero_iff.mp same.symm)

omit [JsonPrimitives] [ReplicaDatabase Db] in
/-- A conflict that cannot be recorded changes nothing. -/
theorem recordSyncConflictWithData_failed
    (failed : recordSyncConflictWithData batch record conflict replica = (after, .error error))
    : after = replica := by
  rw [recordSyncConflictWithData, readResult_bind] at failed
  cases numbered : nextSyncConflictId replica.conflicts with
  | error _ =>
    rw [numbered] at failed
    exact (congrArg Prod.fst failed).symm
  | ok conflictId =>
    rw [numbered, lift_ok_bind] at failed
    split at failed
    · cases failed
    · exact (congrArg Prod.fst failed).symm

/-- A failed import leaves the replica as it was, or records the conflict that stopped it. -/
theorem import_failed
    (failed : syncImportBatchWithPolicy policy batch storage replica = (after, .error error))
    : after = replica ∨ after.conflicts ≠ [] := by
  rcases importTransaction_of_failed failed with same | ⟨current, failed⟩
  · exact .inl same
  unfold importTransaction at failed
  split at failed
  next =>
    split at failed
    · cases failed
    · exact .inl (congrArg Prod.fst failed).symm
  next => exact .inl (congrArg Prod.fst failed).symm
  split at failed
  next recorded =>
    obtain ⟨rfl, -⟩ := Prod.mk.inj failed
    exact .inr (recordSyncConflictWithData_ok recorded)
  next unrecorded =>
    obtain ⟨rfl, -⟩ := Prod.mk.inj failed
    exact .inl (recordSyncConflictWithData_failed unrecorded)

-- Applications

/-- An import of the batch of a changeset that raised no conflict. -/
def ImportedCleanly (changeset : SyncChangeset) (before after : Replica Db) : Prop :=
  ∃ batch policy storage summary, changeset.batch = .ok batch
    ∧ syncImportBatchWithPolicy policy batch storage before = (after, .ok summary)
    ∧ summary.conflicted = 0

/-- What an import does to the replica, be it successful or not. -/
theorem import_result (isBatch : changeset.batch = .ok batch) (policy : SyncConflictPolicy)
    (storage : DbResult Unit) (replica : Replica Db)
    : (syncImportBatchWithPolicy policy batch storage replica).1 = replica
      ∨ (syncImportBatchWithPolicy policy batch storage replica).1.conflicts ≠ []
      ∨ ImportedCleanly changeset replica
        (syncImportBatchWithPolicy policy batch storage replica).1 := by
  generalize ran : syncImportBatchWithPolicy policy batch storage replica = outcome
  obtain ⟨after, result⟩ := outcome
  cases result with
  | error error => exact (import_failed ran).imp_right .inl
  | ok summary =>
    by_cases clean : summary.conflicted = 0
    · exact .inr (.inr ⟨batch, policy, storage, summary, isBatch, ran, clean⟩)
    · exact .inr (.inl (import_conflict ran clean))

/-- What an import without conflicts makes of the rows, the watermark and the marks. -/
structure Imported (row : Db → RowName → Option (List Value)) (changeset : SyncChangeset)
    (before after : Replica Db) : Prop where
  settings : after.settings = before.settings
  rows : row after.db = replay (row before.db) (effects before.settings.tables
    (changeset.journalRecords.filter fun record =>
      !before.skips (before.watermarks changeset.source) record))
  raised : ∀ checkpoint, changeset.checkpoint = some checkpoint
    → after.watermarks changeset.source
      = some (max ((before.watermarks changeset.source).getD 0) checkpoint)
  kept : changeset.checkpoint = none → changeset.journalRecords = []
    → after.watermarks changeset.source = before.watermarks changeset.source
  marks : ∀ sequence, after.imported changeset.source sequence
    → before.imported changeset.source sequence
      ∨ ∃ record ∈ changeset.journalRecords, record.sequence = sequence
  bounded : ∀ checkpoint, changeset.checkpoint = some checkpoint
    → ∀ record ∈ changeset.journalRecords, record.sequence ≤ checkpoint

/-- An import without conflicts writes the image of every record that is not skipped. -/
theorem Imported.of_cleanly {row : Db → RowName → Option (List Value)}
    (laws : KeyedLaws before.settings.tables row) (declared : KeysDeclared before.settings.tables)
    (valid : changeset.Valid before.settings.tables)
    (cleanly : ImportedCleanly changeset before after)
    : Imported row changeset before after := by
  obtain ⟨batch, policy, storage, summary, isBatch, ran, clean⟩ := cleanly
  obtain ⟨records, source, coherent, increasing⟩ := SyncChangeset.batch_ok valid isBatch
  obtain ⟨batchValid, high, last⟩ := SyncChangeset.batch_watermark isBatch
  have rows := import_rows laws declared coherent increasing ran clean
  obtain ⟨settings, watermarks, marks⟩ := import_marks ran
  have bounds := validate_bounds batchValid increasing
  rw [records, source] at rows
  rw [source] at watermarks
  refine ⟨settings, rows, ?_, ?_, ?_, ?_⟩
  · intro checkpoint isCheckpoint
    have marked : batch.watermark = some checkpoint := by
      rw [watermark, high, isCheckpoint]
      rfl
    rw [watermarks, raiseWatermark, source, marked]
    simp
  · intro unset empty
    have unmarked : batch.watermark = none := by
      rw [watermark, high, unset, last, records, empty]
      rfl
    rw [watermarks, raiseWatermark, source, unmarked]
  · intro sequence marked
    refine (marks _ _ marked).imp_right ?_
    rintro ⟨record, member, -, same⟩
    exact ⟨record, records ▸ member, same⟩
  intro checkpoint isCheckpoint record member
  refine bounds record (records ▸ member) checkpoint ?_
  rw [watermark, high, isCheckpoint]
  rfl

variable [ChangesetPrimitives]

/-- The replica is the same before and after. -/
def SameReplica (before after : SyncDatabase Db) : Prop := after.replica = before.replica

instance : Std.Refl (@SameReplica Db) := ⟨fun _ => rfl⟩

instance : IsTrans (SyncDatabase Db) SameReplica := ⟨fun _ _ _ first second => second.trans first⟩

omit [JsonPrimitives] [ReplicaDatabase Db] [ChangesetPrimitives] in
/-- What an application does to the replica, be it successful or not. -/
def ReplicaOutcome (changeset : SyncChangeset) (before after : SyncDatabase Db) : Prop :=
  after.replica = before.replica ∨ after.replica.conflicts ≠ []
    ∨ ImportedCleanly changeset before.replica after.replica

instance replicaOutcome_refl : Std.Refl (@ReplicaOutcome _ Db _ changeset) := ⟨fun _ => .inl rfl⟩

variable (options : ApplyChangesetOptions)

variable (changeset : SyncChangeset)

omit [ChangesetPrimitives] in
/-- The steps after the import leave the replica to it. -/
theorem applyNew_replica (integrityHash : String) (storage : ApplyStorage)
    : Follows (@ReplicaOutcome _ Db _ changeset)
      (applyNew options changeset integrityHash storage) := by
  intro before
  rw [applyNew]
  cases isBatch : changeset.batch with
  | error _ => exact .inl rfl
  | ok batch =>
    rw [lift_ok_bind]
    have finished (summary : SyncImportSummary)
        : Follows (@SameReplica Db) (finishApply changeset integrityHash storage summary) :=
      .bind (.lift _) fun _ => .bind (.modify fun _ => rfl) fun _ => .bind (.lift _) fun _ => .pure _
    have same : SameReplica _ _ := Follows.after_first
      (importChangeset options changeset.scopeName batch storage) finished before
    have imported : Follows (@ReplicaOutcome _ Db _ changeset)
      (importChangeset options changeset.scopeName batch storage) := .readResult_then fun _ =>
      .readResult_then fun _ before => import_result isBatch _ _ before.replica
    rw [ReplicaOutcome, same]
    exact imported before

/-- Applying a changeset leaves the replica alone or imports its records. -/
theorem syncApplyChangeset_replica (storage : ApplyStorage)
    : Follows (@ReplicaOutcome _ Db _ changeset)
      (syncApplyChangeset options changeset storage) := by
  refine .readResult_then fun _ => .readResult_then fun _ => .readResult_then fun _ =>
    .readResult_then fun _ => .readResult_then fun _ => .readResult_then fun existing => ?_
  cases existing with
  | some _ => exact .lift _
  | none => exact applyNew_replica options changeset _ storage

end

end DecentDb.Sync
