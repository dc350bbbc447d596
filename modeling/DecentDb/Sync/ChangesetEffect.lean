import DecentDb.Library.Evaluation
import DecentDb.Sync.ChangesetApplication
import DecentDb.Sync.ChangesetNumbering
import DecentDb.Sync.ImportRows

/-! An application that is reported to have succeeded took effect exactly if leaving out the
records that the import skips makes no difference.
-/

namespace DecentDb.Sync

open KeyedRows KeyedUpdates List Stateful
open Sql (TableSchema)

variable {changeset : SyncChangeset}

section

variable [JsonPrimitives] {Db : Type} [ReplicaDatabase Db] {batch : SyncChangeBatch}

-- What a changeset says about the rows

namespace SyncChangeset

/-- The sequence numbers increase, and an after image has the primary key of its record. -/
structure Valid (tables : List TableSchema) (changeset : SyncChangeset) : Prop where
  increasing : changeset.records.Pairwise fun earlier later =>
    earlier.originSequence < later.originSequence
  coherent : ∀ record ∈ changeset.records,
    ∀ table, catalogTable tables record.table = some table →
      ∀ after primaryKey, record.after.bind Json.asObject = some after →
        record.primaryKey.asObject = some primaryKey →
          ∀ name ∈ table.primaryKeyColumns, after.lookup name = primaryKey.lookup name

section

variable (changeset : SyncChangeset)

def journalRecords : List SyncJournalRecord :=
  changeset.records.filterMap fun record => (syncJournalRecordFromChangesetRecord record).toOption

/-- The replica whose watermark decides which records are skipped. -/
def source : String :=
  (changeset.records.head?.map (·.originReplicaId)).getD changeset.sourceReplicaId

/-- The records that an import into the database does not skip. -/
def unskipped (database : SyncDatabase Db) : List SyncJournalRecord :=
  changeset.journalRecords.filter fun record =>
    !database.replica.skips (database.replica.watermarks changeset.source) record

section

variable (tables : List TableSchema)

/-- Every row that the changeset names is the after image of the last record about it, or
absent if that record is a delete.
-/
def TookEffect (row : Db → RowName → Option (List Value)) (after : SyncDatabase Db) : Prop :=
  ∀ name image, lastImage (effects tables changeset.journalRecords) name = some image
    → row after.replica.db name = image

/-- For every row that the changeset names, the last record about it that is not skipped has
the image of the last one of all, or all are skipped and the row already has that image.
-/
def SkipsNothingNew (row : Db → RowName → Option (List Value)) (before : SyncDatabase Db) : Prop :=
  ∀ name image, lastImage (effects tables changeset.journalRecords) name = some image
    → (lastImage (effects tables (changeset.unskipped before)) name).getD
      (row before.replica.db name) = image

end

end

end SyncChangeset

omit [JsonPrimitives] in
/-- The parts of a journal record that are taken over. -/
theorem syncJournalRecordFromChangesetRecord_ok {record : SyncChangesetRecord}
    {journal : SyncJournalRecord} (ran : syncJournalRecordFromChangesetRecord record = .ok journal)
    : journal.sequence = record.originSequence ∧ journal.replicaId = record.originReplicaId
      ∧ journal.table = record.table ∧ journal.primaryKey = record.primaryKey
      ∧ (journal.after = none ∨ journal.after = record.after) := by
  obtain ⟨after, isAfter, done⟩ := bind_eq_ok.mp ran
  cases done
  refine ⟨rfl, rfl, rfl, rfl, ?_⟩
  unfold syncJournalRecordFromChangesetRecord.changesetAfter at isAfter
  split at isAfter
  next =>
    split at isAfter <;> cases isAfter
    next kept => exact .inr kept.symm
  next =>
    split at isAfter <;> cases isAfter
    next => exact .inl rfl

omit [JsonPrimitives] in
/-- The batch of a valid changeset has its records under its source. -/
theorem SyncChangeset.batch_ok {tables : List TableSchema}
    (valid : changeset.Valid tables) (ran : changeset.batch = .ok batch)
    : batch.records = changeset.journalRecords ∧ batch.sourceReplicaId = some changeset.source
      ∧ (∀ record ∈ batch.records, record.Coherent tables)
      ∧ batch.records.Pairwise fun earlier later => earlier.sequence < later.sequence := by
  obtain ⟨records, converted, later⟩ := bind_eq_ok.mp ran
  obtain ⟨plain, made, later⟩ := bind_eq_ok.mp later
  obtain ⟨⟨⟩, -, done⟩ := bind_eq_ok.mp later
  cases done
  have plainRecords := OfRecords.of_fromRecords made
  have pairs := Results.mapM_ok converted
  have sameRecords : plain.records = changeset.journalRecords :=
    plainRecords.records_eq.trans (Results.filterMap_of_mapM converted).symm
  refine ⟨sameRecords, ?_, ?_, ?_⟩
  · change plain.sourceReplicaId.or _ = _
    have origins : changeset.records.map (·.originReplicaId) = records.map (·.replicaId) :=
      pairs.map_eq fun record journal same =>
        (syncJournalRecordFromChangesetRecord_ok same).2.1.symm
    rw [plainRecords.source_eq, SyncChangeset.source, ← head?_map, ← origins, head?_map]
    cases changeset.records.head? <;> rfl
  · intro journal member
    rw [plainRecords.records_eq] at member
    obtain ⟨record, inside, same⟩ := pairs.flip.exists_of_mem member
    obtain ⟨-, -, table, primaryKey, after⟩ := syncJournalRecordFromChangesetRecord_ok same
    intro found isTable fields keys isAfter isKey
    rw [table] at isTable
    rw [primaryKey] at isKey
    rcases after with none | kept
    · rw [none] at isAfter
      cases isAfter
    · rw [kept] at isAfter
      exact valid.coherent record inside found isTable fields keys isAfter isKey
  have sequences : changeset.records.map (·.originSequence) = records.map (·.sequence) :=
  pairs.map_eq fun record journal same => (syncJournalRecordFromChangesetRecord_ok same).1.symm
  have increasing := pairwise_map.mpr valid.increasing
  rw [sequences] at increasing
  rw [plainRecords.records_eq]
  exact pairwise_map.mp increasing

omit [JsonPrimitives] [ReplicaDatabase Db] in
/-- The batch of a changeset is validated and carries its checkpoint and its last sequence. -/
theorem SyncChangeset.batch_watermark (ran : changeset.batch = .ok batch)
    : batch.validate = .ok () ∧ batch.sourceHighWatermark = changeset.checkpoint
      ∧ batch.lastSequence = batch.records.getLast?.map (·.sequence) := by
  obtain ⟨records, converted, later⟩ := bind_eq_ok.mp ran
  obtain ⟨plain, made, later⟩ := bind_eq_ok.mp later
  obtain ⟨⟨⟩, valid, done⟩ := bind_eq_ok.mp later
  cases done
  have plainRecords := OfRecords.of_fromRecords made
  refine ⟨valid, rfl, ?_⟩
  rw [plainRecords.lastSequence_eq, plainRecords.records_eq]

-- Application

section

variable [ChangesetPrimitives]

/-- An application that reports success imported the batch without a conflict. -/
theorem syncApplyChangeset_applied {options : ApplyChangesetOptions} {storage : ApplyStorage}
    {before after : SyncDatabase Db} {result : SyncChangesetApplyResult}
    (ran : syncApplyChangeset options changeset storage before = (after, .ok result))
    (applied : result.outcome = .applied)
    : ∃ batch policy summary, changeset.batch = .ok batch
      ∧ syncImportBatchWithPolicy policy batch storage.commit before.replica
        = (after.replica, .ok summary)
      ∧ summary.conflicted = 0 := by
  -- The checks before the import read only.
  obtain ⟨⟨⟩, -, later⟩ := readResult_bind_eq_ok.mp ran
  obtain ⟨⟨⟩, -, later⟩ := readResult_bind_eq_ok.mp later
  obtain ⟨⟨⟩, -, later⟩ := readResult_bind_eq_ok.mp later
  obtain ⟨⟨⟩, -, later⟩ := readResult_bind_eq_ok.mp later
  obtain ⟨⟨⟩, -, later⟩ := readResult_bind_eq_ok.mp later
  obtain ⟨existing, -, later⟩ := readResult_bind_eq_ok.mp later
  cases existing with
  | some existing =>
    have outcome := congrArg Prod.snd later
    simp only [Stateful.lift, alreadyApplied] at outcome
    split at outcome <;> cases outcome
    · cases applied
  | none =>
    obtain ⟨batch, isBatch, later⟩ := readResult_bind_eq_ok.mp later
    obtain ⟨reached, summary, imported, later⟩ := Stateful.bind_eq_ok.mp later
    obtain ⟨⟨⟩, -, later⟩ := readResult_bind_eq_ok.mp later
    obtain ⟨_, ⟨⟩, noted, later⟩ := Stateful.bind_eq_ok.mp later
    cases noted
    obtain ⟨⟨⟩, -, done⟩ := readResult_bind_eq_ok.mp later
    cases done
    obtain ⟨⟨⟩, -, later⟩ := readResult_bind_eq_ok.mp imported
    obtain ⟨⟨⟩, -, later⟩ := readResult_bind_eq_ok.mp later
    obtain ⟨policy, -, worked⟩ := readResult_bind_eq_ok.mp later
    obtain ⟨rfl, returned⟩ := Prod.mk.inj worked
    refine ⟨batch, policy, summary, isBatch, Prod.ext rfl returned, ?_⟩
    by_contra some
    rw [if_pos (Nat.pos_of_ne_zero some)] at applied
    cases applied

end

end

-- Diffs of the same two branches

/-- Digests that are readable, and branch values that are texts. -/
@[reducible]
def plainPrimitives : ChangesetPrimitives where
  integrityHash changeset := s!"hash of {changeset.changesetId}"
  syncChangesetId kind source createdAtMicros count :=
    s!"{kind}:{source}:{createdAtMicros}:{count}"
  jsonFromBranchValue := .string

/-- The difference is one added item. -/
def addedItem (id name : String) : BranchTableDiff where
  table := "items"
  unsupported := false
  schemaChanged := false
  added := [{ primaryKey := [id], before := none, after := some [id, name] }]
  updated := []
  deleted := []
  message := none

variable (createdAtMicros : Int)

def contextAt : ChangesetContext where
  scopeName := none
  shapeId := none
  schemaFingerprint := "items"
  schemaCookie := 1
  createdAtMicros

/-- The changeset from the branch `main` to the branch `dev` at some time. -/
def mainToDev (diff : BranchTableDiff) : DbResult SyncChangeset :=
  let _ := plainPrimitives
  syncCreateDiffChangeset (contextAt createdAtMicros) [itemsTable] "branch" "main" "dev" 10 [diff]

def emptyDatabase : SyncDatabase KeyedRows where
  replica := emptyReplica
  scopes := []
  shapes := []
  defaultPolicy := .record
  schemaFingerprint := "items"
  appliedChangesets := fun _ => none

def plainOptions : ApplyChangesetOptions where
  principal := none
  conflictPolicy := none
  compatibilityMode := .strict
  atomic := true

def storageOk : ApplyStorage where
  commit := .ok ()
  mark := .ok ()
  history := .ok ()

def applyPlain (changeset : SyncChangeset)
    : Stateful (SyncDatabase KeyedRows) DbError SyncChangesetApplyResult :=
  let _ := textJson
  let _ := plainPrimitives
  syncApplyChangeset plainOptions changeset storageOk

/-- The changeset of one added item has the item under its id. -/
theorem mainToDev_valid {id name : String} {createdAtMicros : Int}
    (made : mainToDev createdAtMicros (addedItem id name) = .ok changeset)
    : changeset.Valid [itemsTable] := by
  let _ := plainPrimitives
  have numbered : NumberedFrom 1 changeset.records := by
    obtain ⟨records, diffed, done⟩ := bind_eq_ok.mp made
    cases done
    exact diffRecords_numbered (rfl : NumberedFrom 1 []) diffed
  refine ⟨numbered.increasing, ?_⟩
  cases made
  intro record member table found after primaryKey isAfter isKey column inKey
  cases mem_singleton.mp member
  cases isAfter
  cases isKey
  have isTable : table = itemsTable := mem_singleton.mp (catalogTable_mem found)
  rw [isTable] at inKey
  cases mem_singleton.mp inKey
  rfl

/-- The key of the items is one of their columns. -/
theorem itemsKeys_declared : KeysDeclared [itemsTable] := by
  intro table member name inKey
  cases mem_singleton.mp member
  cases mem_singleton.mp inKey
  exact ⟨textColumn "id", mem_cons_self, rfl⟩

/-- Applies the diffs of `main` and `dev` at consecutive times. -/
def applyDiffs (first second : BranchTableDiff)
    : DbResult (SyncChangeset × SyncDatabase KeyedRows × List SyncChangesetApplyResult) := do
  let earlier ← mainToDev 1 first
  let later ← mainToDev 2 second
  let results ← (Stateful.each applyPlain [earlier, later] emptyDatabase).2
  .ok (later, (Stateful.each applyPlain [earlier, later] emptyDatabase).1, results)

def itemName (id : String) : RowName := ("items", [.text id])

end DecentDb.Sync
