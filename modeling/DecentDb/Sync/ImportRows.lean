import DecentDb.Sync.RowEffects

/-! An import without conflicts replays the records that it does not skip. -/

namespace DecentDb.Sync

open List Replica Stateful KeyedUpdates
open Sql (TableSchema)
open Stateful (Follows)

variable {record : SyncJournalRecord} {records : List SyncJournalRecord}
  {results : List RecordResult} {storage : DbResult Unit} {summary : SyncImportSummary}

section

variable [JsonPrimitives] {Db : Type} [ReplicaDatabase Db] {replica after : Replica Db}
  {watermark current : Option Nat} {row : Db → RowName → Option (List Value)}
  {policy : SyncConflictPolicy} {batch : SyncChangeBatch}

-- The records of a batch

/-- Whether an import with the stored watermark skips the record. -/
def Replica.skips (replica : Replica Db) (watermark : Option Nat) (record : SyncJournalRecord)
    : Bool :=
  watermark.any (record.sequence ≤ ·) || replica.imported record.replicaId record.sequence

omit [JsonPrimitives] [ReplicaDatabase Db] in
/-- A record is skipped, or its table is in the catalog. -/
theorem admitRecord_ok
    {admitted : Option TableSchema} (ran : admitRecord replica watermark record = .ok admitted)
    : match admitted with
      | none => replica.skips watermark record
      | some table => replica.skips watermark record = false
        ∧ catalogTable replica.settings.tables record.table = some table := by
  unfold admitRecord at ran
  split at ran
  next => cases ran
  split at ran
  next below =>
    cases ran
    simp [skips, below]
  next above =>
    split at ran
    next => cases ran
    split at ran
    next => cases ran
    split at ran
    next => cases ran
    next table found =>
      split at ran
      next => cases ran
      split at ran <;> cases ran
      next marked => simp [skips, marked]
      next unmarked =>
        refine ⟨?_, found⟩
        rw [skips, Bool.eq_false_iff.mpr above, Bool.eq_false_iff.mpr unmarked]
        rfl

omit [JsonPrimitives] [ReplicaDatabase Db] in
/-- A call that succeeds is the program itself. -/
theorem orFail_eq_ok {Value : Type} {program : Stateful (Replica Db) DbError Value}
    {value : Value} (ran : orFail program replica = (after, .ok value))
    : program replica = (after, .ok value) := by
  obtain ⟨first, second⟩ := Prod.mk.inj ran
  refine Prod.ext first ?_
  cases outcome : (program replica).2 with
  | error _ =>
    rw [outcome] at second
    cases second
  | ok _ =>
    rw [outcome] at second
    exact congrArg Except.ok (Except.ok.inj second)

section

variable (laws : KeyedLaws replica.settings.tables row)
  (declared : KeysDeclared replica.settings.tables)
include laws declared

/-- A record that raises no conflict is skipped or has its effect and is marked. -/
theorem importRecord_clean (coherent : record.Coherent replica.settings.tables)
    {result : RecordResult}
    (ran : importRecord policy batch watermark record replica = (after, .ok result))
    (clean : result = .applied ∨ result = .skipped)
    : (replica.skips watermark record ∧ after = replica)
      ∨ (replica.skips watermark record = false
        ∧ (∃ effect, recordEffect replica.settings.tables record = .ok effect
          ∧ row after.db = Function.update (row replica.db) effect.1 effect.2)
        ∧ after.settings = replica.settings
        ∧ after.imported = (markImported record replica).imported) := by
  obtain ⟨_, admitted, admits, later⟩ := Stateful.bind_eq_ok.mp ran
  replace admits := orFail_eq_ok admits
  obtain ⟨rfl, -⟩ := Prod.mk.inj admits
  have admission := admitRecord_ok (congrArg Prod.snd admits)
  cases admitted with
  | none =>
    cases later
    exact .inl ⟨admission, rfl⟩
  | some table =>
    obtain ⟨unskipped, found⟩ := admission
    obtain ⟨settings, read, later⟩ := readResult_bind_eq_ok.mp later
    obtain ⟨reached, outcome, worked, settled⟩ := Stateful.bind_eq_ok.mp later
    replace worked := orFail_eq_ok worked
    obtain ⟨rfl, isOutcome⟩ := Prod.mk.inj worked
    refine .inr ⟨unskipped, ?_⟩
    cases outcome with
    | applied =>
      cases settled
      obtain ⟨effect, isEffect, changed⟩ := syncApplyImportRecord_applied laws declared coherent
        found (Prod.ext rfl isOutcome)
      exact ⟨⟨effect, isEffect, changed⟩, rfl, rfl⟩
    | conflict conflict =>
      exfalso
      rw [settleOutcome] at settled
      split at settled
      · cases settled
      · obtain ⟨_, _, _, done⟩ := Stateful.bind_eq_ok.mp settled
        cases done
        rcases clean with clean | clean <;> cases clean
    | resolved conflict =>
      exfalso
      obtain ⟨_, _, _, later⟩ := Stateful.bind_eq_ok.mp settled
      obtain ⟨_, _, _, done⟩ := Stateful.bind_eq_ok.mp later
      cases done
      rcases clean with clean | clean <;> cases clean

section

variable (coherent : ∀ record ∈ records, record.Coherent replica.settings.tables)
include coherent

/-- By induction on the records: a mark is only for its own record, since the sequence numbers
increase.
-/
theorem each_importRecord_rows
    (increasing : records.Pairwise fun earlier later => earlier.sequence < later.sequence)
    (ran : each (importRecord policy batch watermark) records replica = (after, .ok results))
    (clean : ∀ result ∈ results, result = .applied ∨ result = .skipped)
    : row after.db = replay (row replica.db) (effects replica.settings.tables
        (records.filter fun record => !replica.skips watermark record)) := by
  induction records generalizing replica results with
  | nil =>
    cases ran
    rfl
  | cons record rest ih =>
    obtain ⟨middle, result, others, first, second, rfl⟩ := each_cons_eq_ok.mp ran
    obtain ⟨resultClean, othersClean⟩ := forall_mem_cons.mp clean
    obtain ⟨recordCoherent, restCoherent⟩ := forall_mem_cons.mp coherent
    obtain ⟨below, restIncreasing⟩ := pairwise_cons.mp increasing
    rcases importRecord_clean laws declared recordCoherent first resultClean with
      ⟨skipped, rfl⟩ | ⟨unskipped, ⟨effect, isEffect, changed⟩, settings, marked⟩
    · rw [ih laws declared restCoherent restIncreasing second othersClean,
        filter_cons_of_neg (by simp [skipped])]
    have sameSkips : ∀ other ∈ rest,
        middle.skips watermark other = replica.skips watermark other := by
      intro other member
      have different := Nat.ne_of_gt (below other member)
      rw [skips, skips, marked, markImported]
      simp [different]
    rw [← settings] at laws declared restCoherent
    rw [ih laws declared restCoherent restIncreasing second othersClean, settings, changed,
      filter_cons_of_pos (by simp [unskipped])]
    rw [filter_congr fun other member => by rw [sameSkips other member]]
    simp [effects, isEffect, Except.toOption, replay]

end

end

-- The rows after an import

omit [JsonPrimitives] in
/-- In a valid batch no record is above the watermark. -/
theorem validateRecords_watermark {source : String} {first last : Nat}
    (lastSequence : batch.lastSequence = some last)
    (valid : batch.validateRecords source first last = .ok ())
    : ∀ record, batch.records.getLast? = some record
      → ∀ watermark, batch.watermark = some watermark → record.sequence ≤ watermark := by
  intro record isLast watermark marked
  simp only [SyncChangeBatch.validateRecords] at valid
  split at valid
  next => cases valid
  split at valid
  next => cases valid
  split at valid
  next => cases valid
  next sameLast =>
    split at valid
    next => cases valid
    next covered =>
      have isSequence : record.sequence = last := by simpa [isLast] using sameLast
      cases high : batch.sourceHighWatermark with
      | none =>
        rw [SyncChangeBatch.watermark, high, lastSequence] at marked
        cases marked
        exact Nat.le_of_eq isSequence
      | some value =>
        rw [SyncChangeBatch.watermark, high] at marked
        cases marked
        have least : last ≤ watermark := by simpa [high] using covered
        exact isSequence ▸ least

section

variable (valid : batch.validate = .ok ())
include valid

omit [JsonPrimitives] in
/-- The last record of a valid batch is at or below its watermark. -/
theorem SyncChangeBatch.validate_watermark : ∀ record, batch.records.getLast? = some record
      → ∀ watermark, batch.watermark = some watermark → record.sequence ≤ watermark := by
  intro record isLast
  rw [validate] at valid
  split at valid
  next => cases valid
  split at valid
  next => cases valid
  split at valid
  next isEmpty =>
    rw [isEmpty_iff.mp isEmpty] at isLast
    cases isLast
  split at valid
  next => cases valid
  next => cases valid
  next => cases valid
  next sourced first last => exact validateRecords_watermark last valid record isLast

variable (increasing : batch.records.Pairwise fun earlier later => earlier.sequence < later.sequence)
include increasing

omit [JsonPrimitives] in
/-- So are the others, since their sequence numbers increase. -/
theorem SyncChangeBatch.validate_bounds
    : ∀ record ∈ batch.records, ∀ watermark, batch.watermark = some watermark
      → record.sequence ≤ watermark := by
  intro record member watermark marked
  obtain ⟨last, isLast⟩ : ∃ last, batch.records.getLast? = some last :=
    Option.isSome_iff_exists.mp (by simp [ne_nil_of_mem member])
  have below : record.sequence ≤ last.sequence := by
    obtain ⟨front, split⟩ := getLast?_eq_some_iff.mp isLast
    rw [split] at increasing member
    rcases mem_append.mp member with earlier | isLast
    · exact Nat.le_of_lt ((pairwise_append.mp increasing).2.2 record earlier last
      mem_cons_self)
    · exact Nat.le_of_eq (by rw [mem_singleton.mp isLast])
  exact Nat.le_trans below (validate_watermark valid last isLast watermark marked)

omit [JsonPrimitives] [ReplicaDatabase Db] in
/-- All records of a batch that is known are skipped. -/
theorem SyncChangeBatch.isKnown_skips (known : batch.isKnown current)
    : ∀ record ∈ batch.records, replica.skips current record := by
  intro record member
  obtain ⟨watermark, marked, known⟩ := Option.any_eq_true _ _ |>.mp known
  obtain ⟨stored, isStored, covered⟩ := Option.any_eq_true _ _ |>.mp known
  have below := validate_bounds valid increasing record member watermark marked
  have covers : record.sequence ≤ stored := Nat.le_trans below (of_decide_eq_true covered)
  rw [skips, isStored]
  simp [covers]

end

-- The marks of a batch

/-- Only the listed records get marks. -/
def MarksOnly (records : List SyncJournalRecord) (before after : Replica Db) : Prop :=
  ∀ replicaId sequence, after.imported replicaId sequence
    → before.imported replicaId sequence
      ∨ ∃ record ∈ records, record.replicaId = replicaId ∧ record.sequence = sequence

instance marksOnly_refl : Std.Refl (@MarksOnly Db records) := ⟨fun _ _ _ => .inl⟩

instance marksOnly_trans : IsTrans (Replica Db) (MarksOnly records) :=
  ⟨fun _ _ _ first second replicaId sequence marked =>
    (second replicaId sequence marked).elim (first replicaId sequence) .inr⟩

/-- An import marks only its own records as imported. -/
theorem importRecords_marks (policy : SyncConflictPolicy) (batch : SyncChangeBatch)
    (watermark : Option Nat) (records : List SyncJournalRecord) (replica : Replica Db)
    : MarksOnly records replica (each (importRecord policy batch watermark) records replica).1 := by
  refine Follows.each records (fun record member => importRecord_follows (fun _ _ _ _ => .inl) ?_
    fun _ _ _ _ => .inl) replica
  intro replica replicaId sequence marked
  rcases Bool.or_eq_true_iff.mp marked with new | old
  · obtain ⟨rfl, rfl⟩ : replicaId = record.replicaId ∧ sequence = record.sequence := by
      simpa using new
    exact .inr ⟨record, member, rfl, rfl⟩
  · exact .inl old

/-- The marks, the watermark and the settings after a batch. -/
theorem import_marks
    (ran : syncImportBatchWithPolicy policy batch storage replica = (after, .ok summary))
    : after.settings = replica.settings ∧ after.watermarks
        = (raiseWatermark batch (batch.sourceReplicaId.bind replica.watermarks) replica).watermarks
      ∧ ∀ replicaId sequence, after.imported replicaId sequence
        → replica.imported replicaId sequence
          ∨ ∃ record ∈ batch.records, record.replicaId = replicaId ∧ record.sequence = sequence := by
  obtain ⟨valid, allowed⟩ := syncImportBatchWithPolicy_admits ran
  rw [syncImportBatchWithPolicy_eq valid allowed rfl] at ran
  split at ran
  next known =>
    obtain ⟨rfl, -⟩ := Prod.mk.inj ran
    have alike := raiseWatermark_alike batch (batch.sourceReplicaId.bind replica.watermarks) replica
    refine ⟨alike.settings, rfl, fun _ _ marked => .inl ?_⟩
    rw [alike.imported] at marked
    exact marked
  next =>
    obtain ⟨reached, results, looped, rfl, rfl⟩ := importTransaction_ok ran
    have alike := raiseWatermark_alike batch (batch.sourceReplicaId.bind replica.watermarks) reached
    have untouched := importRecords_untouched policy batch
      (batch.sourceReplicaId.bind replica.watermarks) batch.records replica
    rw [looped] at untouched
    refine ⟨alike.settings.trans untouched.1, ?_, ?_⟩
    · have kept : reached.watermarks = replica.watermarks := untouched.2
      unfold raiseWatermark
      split
      · simp [kept]
      · exact kept
    · rw [alike.imported]
      have marks := importRecords_marks policy batch
        (batch.sourceReplicaId.bind replica.watermarks) batch.records replica
      rwa [looped] at marks

variable (laws : KeyedLaws replica.settings.tables row)
  (declared : KeysDeclared replica.settings.tables)
  (coherent : ∀ record ∈ batch.records, record.Coherent replica.settings.tables)
include laws declared coherent

/-- A batch without conflicts replays the records that the replica does not skip. -/
theorem import_rows
    (increasing : batch.records.Pairwise fun earlier later => earlier.sequence < later.sequence)
    (ran : syncImportBatchWithPolicy policy batch storage replica = (after, .ok summary))
    (clean : summary.conflicted = 0)
    : row after.db = replay (row replica.db) (effects replica.settings.tables
      (batch.records.filter fun record =>
        !replica.skips (batch.sourceReplicaId.bind replica.watermarks) record)) := by
  obtain ⟨valid, allowed⟩ := syncImportBatchWithPolicy_admits ran
  rw [syncImportBatchWithPolicy_eq valid allowed rfl] at ran
  split at ran
  next known =>
    obtain ⟨rfl, -⟩ := Prod.mk.inj ran
    have none : (batch.records.filter fun record =>
      !replica.skips (batch.sourceReplicaId.bind replica.watermarks) record) = [] := by
      simpa using SyncChangeBatch.isKnown_skips valid increasing known
    rw [raiseWatermark_known rfl known, none]
    rfl
  next =>
    obtain ⟨reached, results, looped, rfl, rfl⟩ := importTransaction_ok ran
    have allClean : ∀ result ∈ results, result = .applied ∨ result = .skipped := by
      intro result member
      have none := countP_eq_zero.mp clean result member
      cases result <;> simp at none ⊢
    rw [(raiseWatermark_alike batch _ reached).db]
    exact each_importRecord_rows laws declared coherent increasing looped allClean

end

end DecentDb.Sync
