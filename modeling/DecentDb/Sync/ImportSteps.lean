import DecentDb.Library.Agreement
import DecentDb.Sync.Import

/-! What an import does to a replica: how it ends, what it leaves alone, and that a record
does the same in whatever batch it comes.
-/

namespace DecentDb.Sync

open Stateful

open Stateful (Agree Follows FailsOnly)

-- Replicas that differ in the batches of their conflicts

/-- A recorded conflict without the batch that its record came in. -/
def SyncConflict.withoutBatch (conflict : SyncConflict) : SyncConflict :=
  { conflict with batchId := "" }

/-- The same rows, marks and conflicts; watermarks are compared on their own. -/
structure Alike {Db : Type} (left right : Replica Db) : Prop where
  settings : left.settings = right.settings
  db : left.db = right.db
  imported : left.imported = right.imported
  conflicts : left.conflicts.map (·.withoutBatch) = right.conflicts.map (·.withoutBatch)

variable {batch : SyncChangeBatch} {current watermark : Option Nat} {storage : DbResult Unit}
  {policy : SyncConflictPolicy} {summary : SyncImportSummary} {Db Value : Type}
  {left right middle replica : Replica Db}

section Replicas

/-- A replica is like itself. -/
theorem Alike.refl (replica : Replica Db) : Alike replica replica := ⟨rfl, rfl, rfl, rfl⟩

/-- Likeness is symmetric. -/
theorem Alike.symm (alike : Alike left right) : Alike right left :=
  ⟨alike.settings.symm, alike.db.symm, alike.imported.symm, alike.conflicts.symm⟩

/-- Likeness is transitive. -/
theorem Alike.trans (first : Alike left middle) (second : Alike middle right)
    : Alike left right :=
  ⟨first.settings.trans second.settings, first.db.trans second.db,
    first.imported.trans second.imported, first.conflicts.trans second.conflicts⟩

/-- Like replicas give the next conflict the same id. -/
theorem Alike.nextSyncConflictId (alike : Alike left right)
    : nextSyncConflictId left.conflicts = nextSyncConflictId right.conflicts := by
  have ids := congrArg (List.map SyncConflict.conflictId) alike.conflicts
  simp only [List.map_map, Function.comp_def, SyncConflict.withoutBatch] at ids
  simp [Sync.nextSyncConflictId, ids]

/-- The batch that a conflict came in makes no difference to like replicas. -/
theorem recordSyncConflictWithData_alike (batch other : SyncChangeBatch)
    (record : SyncJournalRecord) (conflict : SyncConflictRecordData)
    : Agree (@Alike Db) (recordSyncConflictWithData batch record conflict)
      (recordSyncConflictWithData other record conflict) := by
  refine .bind (.readResult fun _ _ alike => alike.nextSyncConflictId) fun conflictId => ?_
  refine .bind (.lift _) fun _ => .bind (.modify ?_) fun _ => .pure conflictId
  intro left right alike
  refine { alike with conflicts := ?_ }
  rw [List.map_append, List.map_append, alike.conflicts]
  rfl

/-- Turning a failure into an error keeps agreement. -/
theorem Agree.orFail {left right : Stateful (Replica Db) DbError Value}
    (agree : Agree Alike left right)
    : Agree Alike (orFail left) (orFail right) := by
  intro before view alike
  obtain ⟨same, kept⟩ := agree before view alike
  exact ⟨congrArg (Except.mapError ImportExit.failed) same, kept⟩

/-- Like replicas have the same database. -/
theorem onDatabase_alike (program : Stateful Db DbError Value)
    : Agree Alike (onDatabase program) (onDatabase program) := by
  intro before view alike
  simp only [onDatabase, alike.db, true_and]
  exact { alike with db := rfl }

/-- Settling an outcome does not depend on the batch. -/
theorem settleOutcome_alike (policy : SyncConflictPolicy) (batch other : SyncChangeBatch)
    (record : SyncJournalRecord) (outcome : SyncImportRecordOutcome)
    : Agree (@Alike Db) (settleOutcome policy batch record outcome)
      (settleOutcome policy other record outcome) := by
  have marked : Agree (@Alike Db)
    (.modify (markImported record) : Stateful _ ImportExit Unit) (.modify (markImported record)) :=
    .modify fun _ _ alike => { alike with imported := by simp [markImported, alike.imported] }
  have recorded (conflict : SyncConflictRecordData) :=
    Agree.orFail (@recordSyncConflictWithData_alike Db batch other record conflict)
  cases outcome with
  | applied => exact marked.bind fun _ => .pure _
  | conflict conflict =>
    by_cases stops : policy = .stop
    · rw [settleOutcome, settleOutcome, if_pos stops, if_pos stops]
      exact .lift _
    · rw [settleOutcome, settleOutcome, if_neg stops, if_neg stops]
      exact (recorded conflict).bind fun _ => .pure _
  | resolved conflict => exact marked.bind fun _ => (recorded conflict).bind fun _ => .pure _

-- What a record leaves alone

/-- A record changes neither the settings nor a watermark. -/
def Untouched (before after : Replica Db) : Prop :=
  after.settings = before.settings ∧ after.watermarks = before.watermarks

instance : Std.Refl (@Untouched Db) := ⟨fun _ => ⟨rfl, rfl⟩⟩

instance : IsTrans (Replica Db) Untouched :=
  ⟨fun _ _ _ first second => ⟨second.1.trans first.1, second.2.trans first.2⟩⟩

section Records

variable [JsonPrimitives] [ReplicaDatabase Db] {record : SyncJournalRecord}
  {replica after : Replica Db} {error : DbError}

/-- A record does the same to replicas that are alike, whatever batch it comes in. -/
theorem importRecord_alike (policy : SyncConflictPolicy) (batch other : SyncChangeBatch)
    (watermark : Option Nat) (record : SyncJournalRecord)
    : Agree (@Alike Db) (importRecord policy batch watermark record)
      (importRecord policy other watermark record) := by
  refine .bind ?_ fun admitted => ?_
  · refine Agree.orFail (.readResult fun _ _ alike => ?_)
    rw [admitRecord, admitRecord, alike.settings, alike.imported]
  cases admitted with
  | none => exact .pure _
  | some table =>
    refine .bind (.read fun _ _ alike => alike.settings) fun settings => ?_
    exact (Agree.orFail (onDatabase_alike _)).bind fun outcome =>
      settleOutcome_alike policy batch other record outcome

/-- What a record does to a replica besides its rows: it is marked, or a conflict is added. -/
theorem importRecord_follows {related : Replica Db → Replica Db → Prop} [Std.Refl related]
    [IsTrans (Replica Db) related] (written : ∀ replica db, related replica { replica with db })
    (marked : ∀ replica, related replica (markImported record replica))
    (recorded : ∀ replica conflict,
      related replica { replica with conflicts := replica.conflicts ++ [conflict] })
    : Follows related (importRecord policy batch watermark record) := by
  have marked : Follows related (.modify (markImported record) : Stateful _ ImportExit Unit) :=
    .modify marked
  have records (conflict : SyncConflictRecordData)
    : Follows related (orFail (recordSyncConflictWithData batch record conflict)) := by
    have follows : Follows related (recordSyncConflictWithData batch record conflict) :=
      .bind (.readResult _) fun _ => .bind (.lift _) fun _ =>
        .bind (.modify fun replica => recorded replica _) fun _ => .pure _
    exact follows
  refine .bind (.readResult _) fun admitted => ?_
  cases admitted with
  | none => exact .pure _
  | some table =>
    refine .bind (.read _) fun settings => .bind (fun replica => written replica _) fun outcome => ?_
    cases outcome with
    | applied => exact marked.bind fun _ => .pure _
    | conflict conflict =>
      rw [settleOutcome]
      split
      · exact .lift _
      · exact (records conflict).bind fun _ => .pure _
    | resolved conflict => exact marked.bind fun _ => (records conflict).bind fun _ => .pure _

/-- Importing records touches neither the settings nor the watermarks. -/
theorem importRecords_untouched (policy : SyncConflictPolicy) (batch : SyncChangeBatch)
    (watermark : Option Nat) (records : List SyncJournalRecord) (replica : Replica Db)
    : Untouched replica (each (importRecord policy batch watermark) records replica).1 :=
  Follows.each records (fun _ _ => importRecord_follows (fun _ _ => ⟨rfl, rfl⟩)
    (fun _ => ⟨rfl, rfl⟩) fun _ _ => ⟨rfl, rfl⟩) replica

/-- Only the policy that stops leaves the loop with a conflict. -/
theorem importRecord_fails (batch : SyncChangeBatch) (watermark : Option Nat)
    (record : SyncJournalRecord)
    : FailsOnly (fun exit => ∃ error, exit = .failed error)
      (importRecord .record batch watermark record : Stateful (Replica Db) _ _) := by
  have failing {Value : Type} (program : Stateful (Replica Db) DbError Value)
    : FailsOnly (fun exit => ∃ error, exit = .failed error) (orFail program) := by
    intro replica exit failed
    simp only [orFail] at failed
    cases outcome : (program replica).2 with
    | error error =>
      rw [outcome] at failed
      exact ⟨error, (Except.error.inj failed).symm⟩
    | ok value =>
      rw [outcome] at failed
      cases failed
  refine (failing _).bind fun admitted => ?_
  cases admitted with
  | none => exact .pure _
  | some table =>
    refine .bind (.read _) fun settings => (failing _).bind fun outcome => ?_
    cases outcome with
    | applied => exact .bind (.modify _) fun _ => .pure _
    | conflict conflict => exact (failing _).bind fun _ => .pure _
    | resolved conflict => exact .bind (.modify _) fun _ => (failing _).bind fun _ => .pure _

/-- A failed transaction is rolled back. -/
theorem importTransaction_failed
    (failed : importTransaction .record batch current storage replica = (after, .error error))
    : after = replica := by
  unfold importTransaction at failed
  split at failed
  next =>
    split at failed
    · cases failed
    · exact (congrArg Prod.fst failed).symm
  next => exact (congrArg Prod.fst failed).symm
  next stopped ran =>
    have exits := FailsOnly.each (importRecord_fails batch current) batch.records replica _
      (congrArg Prod.snd ran)
    obtain ⟨_, impossible⟩ := exits
    cases impossible

/-- A valid batch of another replica is known, or its records are imported. -/
theorem syncImportBatchWithPolicy_eq (valid : batch.validate = .ok ())
    (allowed : refuseOwnBatch batch replica = .ok ())
    (stored : batch.sourceReplicaId.bind replica.watermarks = current)
    : syncImportBatchWithPolicy policy batch storage replica = if batch.isKnown current then
        (raiseWatermark batch current replica, .ok {
          seen := batch.recordCount
          applied := 0
          skipped := batch.recordCount
          conflicted := 0
        })
        else importTransaction policy batch current storage replica := by
  rw [syncImportBatchWithPolicy, valid]
  simp only [lift_ok_bind, read_bind, readResult_bind, allowed, stored]
  split <;> rfl

/-- A failed import leaves the replica as it was, unless its transaction failed. -/
theorem importTransaction_of_failed
    (failed : syncImportBatchWithPolicy policy batch storage replica = (after, .error error))
    : after = replica ∨ ∃ current, importTransaction policy batch current storage replica
        = (after, .error error) := by
  cases valid : batch.validate with
  | error invalid =>
    rw [syncImportBatchWithPolicy, valid] at failed
    exact .inl (congrArg Prod.fst failed).symm
  | ok _ =>
    cases allowed : refuseOwnBatch batch replica with
    | error refused =>
      rw [syncImportBatchWithPolicy, valid] at failed
      simp only [lift_ok_bind, read_bind, readResult_bind, allowed, lift_error_bind] at failed
      exact .inl (congrArg Prod.fst failed).symm
    | ok _ =>
      rw [syncImportBatchWithPolicy_eq valid allowed rfl] at failed
      split at failed
      · cases failed
      · exact .inr ⟨_, failed⟩

/-- A failed import leaves the replica as it was. -/
theorem syncImportBatchWithPolicy_failed
    (failed : syncImportBatchWithPolicy .record batch storage replica = (after, .error error))
    : after = replica := by
  rcases importTransaction_of_failed failed with same | ⟨_, failed⟩
  · exact same
  · exact importTransaction_failed failed

/-- An import that succeeds was valid and not of the replica's own batch. -/
theorem syncImportBatchWithPolicy_admits
    (ran : syncImportBatchWithPolicy policy batch storage replica = (after, .ok summary))
    : batch.validate = .ok () ∧ refuseOwnBatch batch replica = .ok () := by
  obtain ⟨⟨⟩, valid, later⟩ := readResult_bind_eq_ok.mp ran
  obtain ⟨_, -, later⟩ := readResult_bind_eq_ok.mp later
  obtain ⟨⟨⟩, allowed, -⟩ := readResult_bind_eq_ok.mp later
  exact ⟨valid, allowed⟩

/-- A transaction that succeeds imports the records and raises the watermark. -/
theorem importTransaction_ok
    (ran : importTransaction policy batch current storage replica = (after, .ok summary))
    : ∃ reached results, each (importRecord policy batch current) batch.records replica
        = (reached, .ok results)
      ∧ after = raiseWatermark batch current reached ∧ summary = importSummary batch results := by
  unfold importTransaction at ran
  split at ran
  next reached results looped =>
    split at ran
    · obtain ⟨isAfter, isSummary⟩ := Prod.mk.inj ran
      exact ⟨reached, results, looped, isAfter.symm, (Except.ok.inj isSummary).symm⟩
    · cases ran
  next => cases ran
  split at ran <;> cases ran

/-- Records that the replica skips leave it as it is. -/
theorem each_skipped (policy : SyncConflictPolicy) (batch : SyncChangeBatch)
    {records : List SyncJournalRecord}
    (skipped : ∀ record ∈ records, admitRecord replica current record = .ok none)
    : ∃ results, Stateful.each (importRecord policy batch current) records replica
      = (replica, .ok results) := by
  induction records with
  | nil => exact ⟨[], rfl⟩
  | cons record rest ih =>
    obtain ⟨first, others⟩ := List.forall_mem_cons.mp skipped
    obtain ⟨results, ran⟩ := ih others
    refine ⟨.skipped :: results, Stateful.each_cons_eq_ok.mpr ⟨replica, .skipped, results, ?_, ran, rfl⟩⟩
    refine Stateful.bind_eq_ok.mpr ⟨replica, none, ?_, rfl⟩
    simp [orFail, Stateful.readResult, first, Except.mapError]

/-- The watermark is not consulted for records above it. -/
theorem importRecord_above (above : current.any (record.sequence ≤ ·) = false)
    : (importRecord policy batch current record : Stateful (Replica Db) _ _)
      = importRecord policy batch none record := by
  have same : (fun replica : Replica Db => admitRecord replica current record)
    = fun replica => admitRecord replica none record := by
    funext replica
    simp [admitRecord, above]
  rw [importRecord, importRecord, same]

end Records

-- Watermarks

/-- A watermark that is not above the stored one stays. -/
theorem raiseWatermark_known (stored : batch.sourceReplicaId.bind replica.watermarks = current)
    (known : batch.isKnown current)
    : raiseWatermark batch current replica = replica := by
  unfold raiseWatermark
  split
  next source watermark sourced marked =>
    have same : (fun replicaId => if replicaId = source then some (max (current.getD 0) watermark)
      else replica.watermarks replicaId) = replica.watermarks := by
      funext replicaId
      split
      next atSource =>
        rw [sourced, Option.bind_some] at stored
        cases current with
        | none => simp [SyncChangeBatch.isKnown] at known
        | some value =>
          have below : watermark ≤ value := by simpa [SyncChangeBatch.isKnown, marked] using known
          rw [atSource, stored, Option.getD_some, Nat.max_eq_left below]
      next => rfl
    rw [same]
  next => rfl

/-- A watermark above the stored one takes its place. -/
theorem raiseWatermark_above {source : String} {watermark : Nat}
    (sourced : batch.sourceReplicaId = some source) (marked : batch.watermark = some watermark)
    (above : current.any (watermark ≤ ·) = false) (replica : Replica Db)
    : (raiseWatermark batch current replica).watermarks = fun replicaId =>
      if replicaId = source then some watermark else replica.watermarks replicaId := by
  have raised : max (current.getD 0) watermark = watermark := by
    cases current with
    | none => simp
    | some value =>
      have below : value < watermark := by simpa using above
      exact Nat.max_eq_right (Nat.le_of_lt below)
  simp [raiseWatermark, sourced, marked, raised]

/-- Likeness does not look at watermarks. -/
theorem raiseWatermark_alike (batch : SyncChangeBatch) (current : Option Nat) (replica : Replica Db)
    : Alike (raiseWatermark batch current replica) replica := by
  unfold raiseWatermark
  split
  · exact ⟨rfl, rfl, rfl, rfl⟩
  · exact .refl replica

end Replicas

end DecentDb.Sync
