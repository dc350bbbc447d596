import DecentDb.Sync.Batches

/-! What the exporter puts into a batch of consecutive journal records of one source. -/

namespace DecentDb.Sync

open List SyncChangeBatch

open Sql (TableSchema)

variable [JsonPrimitives] {tables : List TableSchema} {scope : Option SyncScope}
  {records filtered : List SyncJournalRecord} {batch : SyncChangeBatch} {source : String}

/-- Whether a batch for the scope carries the record. -/
def inScope (tables : List TableSchema) (scope : Option SyncScope) (record : SyncJournalRecord)
    : Bool :=
  match scope with
  | none => true
  | some scope =>
    match syncScopeRecordMatches tables scope record with
    | .ok matching => matching
    | .error _ => false

/-- Filtering for a scope, where it succeeds, keeps the records in the scope. -/
theorem syncFilterRecordsForScope_eq {scope : SyncScope}
    (ran : syncFilterRecordsForScope tables scope records = .ok filtered)
    : filtered = records.filter (inScope tables (some scope)) := by
  induction records generalizing filtered with
  | nil => exact (Except.ok.inj ran).symm
  | cons record rest ih =>
    obtain ⟨kept, matching, later⟩ := bind_eq_ok.mp ran
    obtain ⟨others, restRan, done⟩ := bind_eq_ok.mp later
    cases done
    have decided : inScope tables (some scope) record = kept := by simp [inScope, matching]
    rw [filter_cons, decided, ih restRan]

/-- The parts of a batch without a scope. -/
structure OfRecords (records : List SyncJournalRecord) (batch : SyncChangeBatch) : Prop where
  valid : batch.validate = .ok ()
  records_eq : batch.records = records
  source_eq : batch.sourceReplicaId = records.head?.map (·.replicaId)
  lastSequence_eq : batch.lastSequence = records.getLast?.map (·.sequence)
  highWatermark_eq : batch.sourceHighWatermark = none

omit [JsonPrimitives] in
/-- A batch carries its records with their first and last sequence. -/
theorem OfRecords.of_fromRecords (ran : SyncChangeBatch.fromRecords records = .ok batch)
    : OfRecords records batch := by
  cases records with
  | nil =>
    cases ran
    exact ⟨rfl, rfl, rfl, rfl, rfl⟩
  | cons first rest =>
    obtain ⟨⟨⟩, valid, done⟩ := bind_eq_ok.mp ran
    cases done
    exact ⟨valid, rfl, rfl, by simp [ofRecords, getLast?_cons], rfl⟩

/-- What a batch of some journal records tells the importer. -/
structure Exports (tables : List TableSchema) (scope : Option SyncScope)
    (records : List SyncJournalRecord) (source : String) (batch : SyncChangeBatch) : Prop where
  valid : batch.validate = .ok ()
  records_eq : batch.records = records.filter (inScope tables scope)
  watermark_eq : batch.watermark = records.getLast?.map (·.sequence)
  source_eq : batch.sourceReplicaId = records.head?.map fun _ => source

variable (oneSource : ∀ record ∈ records, record.replicaId = source)
include oneSource

omit [JsonPrimitives] in
/-- All records of one journal name its replica. -/
theorem head_source : records.head?.map (·.replicaId) = records.head?.map fun _ => source := by
  cases records with
  | nil => rfl
  | cons first rest => simp [oneSource first mem_cons_self]

/-- An exported batch has the records in the scope and the watermark of all of them. -/
theorem Exports.of_export (exported : syncExportBatch tables scope records = .ok batch)
    : Exports tables scope records source batch := by
  cases scope with
  | none =>
    have plain := OfRecords.of_fromRecords exported
    refine ⟨plain.valid, ?_, ?_, ?_⟩
    · rw [plain.records_eq]
      exact (filter_eq_self.mpr fun _ _ => rfl).symm
    · rw [watermark, plain.highWatermark_eq, plain.lastSequence_eq, Option.none_or]
    · rw [plain.source_eq, head_source oneSource]
  | some scope =>
    obtain ⟨filtered, kept, later⟩ := bind_eq_ok.mp exported
    have same := syncFilterRecordsForScope_eq kept
    obtain ⟨narrow, ran, later⟩ := bind_eq_ok.mp later
    obtain ⟨⟨⟩, valid, done⟩ := bind_eq_ok.mp later
    cases done
    have plain := OfRecords.of_fromRecords ran
    refine ⟨valid, plain.records_eq.trans same, ?_, ?_⟩
    · cases records with
      | nil =>
        subst same
        simpa [watermark] using plain.lastSequence_eq
      | cons first rest => simp [watermark, getLast?_cons]
    have oneSourceKept : ∀ record ∈ filtered, record.replicaId = source := fun record member =>
    oneSource record (mem_of_mem_filter (same ▸ member))
    change narrow.sourceReplicaId.or _ = _
    rw [plain.source_eq, head_source oneSourceKept, head_source oneSource]
    cases records with
    | nil => subst same; rfl
    | cons first rest => cases filtered <;> rfl

end DecentDb.Sync
