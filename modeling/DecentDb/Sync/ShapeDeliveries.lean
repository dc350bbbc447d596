import DecentDb.Sync.ShapeSnapshots

/-! What a delivery of a shape carries: a snapshot the rows in the scope, and the changes
since a checkpoint the journal records in the scope, both under the last sequence of the log.
-/

namespace DecentDb.Sync

open List KeyedUpdates
open Sql (TableSchema)

variable {record : SyncJournalRecord} {shapeId : String} {shape : SyncShape}
  {principal : Option SyncPrincipal} {createdAtMicros : Int} {delivery : SyncShapeDelivery}

section

variable {server : ShapeServer} [JsonPrimitives] {tables : List TableSchema}
  {source fallback : String} {scope : SyncScope} {pruned checkpoint since : Nat}

-- The log of the server

/-- The record of a row that fits, as the server writes it. -/
structure IsLogged (tables : List TableSchema) (source : String) (record : SyncJournalRecord)
    : Prop where
  isRow : ∃ operation, ∃ table ∈ tables, ∃ values,
    RowFits table values ∧ IsRowRecord operation table values record
  isSource : record.replicaId = source
  version : record.schemaVersion = 1
  committed : record.committedAtMicros = 0

/-- The log is numbered from one, and the journal is its part after the pruned records. The
newest record is never pruned.
-/
structure ServerSound (tables : List TableSchema) (source : String) (pruned : Nat)
    (server : ShapeServer) : Prop where
  tables_eq : server.tables = tables
  replicaId_eq : server.replicaId = some source
  fit : server.rows.Fit tables
  numbered : server.log.map (·.sequence) = range' 1 server.log.length
  next_eq : server.nextSequence = server.log.length + 1
  logged : ∀ record ∈ server.log, IsLogged tables source record
  journal_eq : server.journal = server.log.filter fun record => pruned < record.sequence
  kept : pruned = 0 ∨ pruned < server.log.length

namespace ServerSound

variable (sound : ServerSound tables source pruned server)
include sound

/-- The log is numbered in order. -/
theorem increasing
    : server.log.Pairwise fun earlier later => earlier.sequence < later.sequence := by
  refine pairwise_map.mp ?_
  rw [sound.numbered]
  exact pairwise_lt_range'

/-- The sequences of the log are its positions. -/
theorem bounded (member : record ∈ server.log)
    : 0 < record.sequence ∧ record.sequence ≤ server.log.length := by
  have inside := mem_map_of_mem (f := (·.sequence)) member
  rw [sound.numbered, mem_range'_1] at inside
  omega

/-- The journal is a part of the log. -/
theorem mem_log (member : record ∈ server.journal) : record ∈ server.log := by
  rw [sound.journal_eq] at member
  exact mem_of_mem_filter member

/-- The journal is numbered in order, too. -/
theorem journal_increasing
    : server.journal.Pairwise fun earlier later => earlier.sequence < later.sequence := by
  rw [sound.journal_eq]
  exact sound.increasing.filter _

/-- The last sequence of the journal is that of the log. -/
theorem lastSequence : (server.log = [] ∧ server.journal = [] ∧ server.lastSequence = none)
      ∨ server.lastSequence = some server.log.length := by
  rcases eq_nil_or_concat server.log with empty | ⟨front, last, split⟩
  · have none : server.journal = [] := by rw [sound.journal_eq, empty]; rfl
    exact .inl ⟨empty, none, by rw [ShapeServer.lastSequence, none]; rfl⟩
  rw [concat_eq_append] at split
  have isLast : last.sequence = server.log.length := by
    have same := congrArg getLast? sound.numbered
    rw [split] at same ⊢
    simpa [getLast?_range'] using same
  have unpruned : pruned < last.sequence := by
    have nonempty : 0 < server.log.length := by rw [split]; simp
    have := sound.kept
    omega
  refine .inr ?_
  have newest : server.journal.getLast? = some last := by
    rw [sound.journal_eq, split, filter_append,
      filter_cons_of_pos (by simpa using unpruned), filter_nil, getLast?_concat]
  rw [ShapeServer.lastSequence, newest, Option.map_some, isLast]

end ServerSound

-- Deliveries

/-- Records that were logged make a valid changeset that has them again. -/
theorem valid_of_logged (sound : TablesSound tables) {changeset : SyncChangeset}
    {records : List SyncJournalRecord} (logged : ∀ record ∈ records, IsLogged tables source record)
    (increasing : records.Pairwise fun earlier later => earlier.sequence < later.sequence)
    (isRecords : changeset.records = records.map syncChangesetRecordFromJournalRecord)
    : changeset.Valid tables ∧ changeset.journalRecords = records := by
  refine ⟨⟨?_, ?_⟩, ?_⟩
  · rw [isRecords]
    exact pairwise_map.mpr increasing
  · intro record member
    rw [isRecords] at member
    obtain ⟨journal, inside, rfl⟩ := mem_map.mp member
    obtain ⟨operation, table, inTables, values, -, isRow⟩ := (logged journal inside).isRow
    exact isRow.coherent sound inTables
  rw [SyncChangeset.journalRecords, isRecords, filterMap_map]
  refine (filterMap_congr fun record member => ?_).trans filterMap_some
  obtain ⟨⟨operation, table, -, values, -, isTable, isOperation, isKey, isAfter⟩, -, version,
    committed⟩ := logged record member
  cases record
  cases isTable
  cases isOperation
  cases isKey
  cases isAfter
  cases version
  cases committed
  cases operation <;> rfl

variable [ChangesetPrimitives]

/-- A snapshot has the scoped row of every name in the tables of the shape. -/
structure SnapshotDelivery (tables : List TableSchema) (source : String) (scope : SyncScope)
    (server : ShapeServer) (delivery : SyncShapeDelivery) : Prop where
  valid : delivery.changeset.Valid tables
  source_eq : delivery.changeset.source = source
  checkpoint_eq : delivery.changeset.checkpoint = some server.log.length
  highWatermark_eq : delivery.sourceHighWatermark = server.log.length
  sources : ∀ record ∈ delivery.changeset.journalRecords, record.replicaId = source
  images : ∀ name : RowName, scope.includes name.1
    → (lastImage (effects tables delivery.changeset.journalRecords) name).getD none
      = server.scopedRow scope name

/-- A snapshot that is made contains exactly the rows in the scope. -/
theorem SnapshotDelivery.of_snapshot (tablesSound : TablesSound tables)
    (sound : ServerSound tables source pruned server)
    (isShape : server.syncShape shapeId = .ok shape) (isScope : server.shapeScope shape = .ok scope)
    (ran : syncShapeSnapshot server shapeId principal createdAtMicros = .ok delivery)
    : SnapshotDelivery tables source scope server delivery := by
  have last : server.lastSequence.getD 0 = server.log.length := by
    rcases sound.lastSequence with ⟨empty, -, none⟩ | some
    · rw [none, empty]
      rfl
    · rw [some]
      rfl
  have isSource : server.replicaId.getD "snapshot" = source := by rw [sound.replicaId_eq]; rfl
  have fit := sound.fit
  rw [← sound.tables_eq] at tablesSound fit ⊢
  obtain ⟨_, found, later⟩ := bind_eq_ok.mp ran
  cases isShape.symm.trans found
  obtain ⟨⟨⟩, -, later⟩ := bind_eq_ok.mp later
  obtain ⟨_, found, later⟩ := bind_eq_ok.mp later
  cases isScope.symm.trans found
  obtain ⟨changeset, made, done⟩ := bind_eq_ok.mp later
  obtain ⟨records, listed, finished⟩ := bind_eq_ok.mp made
  rw [isSource] at listed
  have empty : NumberedFrom 1 [] := rfl
  obtain ⟨numbered, -, all, -⟩ := snapshotRecords_spec empty listed
  have onlyRows : ∀ record ∈ records, IsSnapshotOf server source scope scope.includeTables record :=
    fun record member => (all record member).resolve_left nofun
  cases finished
  cases done
  refine ⟨⟨numbered.increasing, ?_⟩, ?_, congrArg some last, last, ?_, ?_⟩
  · intro record member
    obtain ⟨table, ⟨_, _, found⟩, values, -, -, sequence, rfl⟩ := onlyRows record member
    obtain ⟨journal, same, isRow, -⟩ :=
      snapshotRecord_journal source server.schemaCookie sequence table values
    rw [same]
    exact isRow.coherent tablesSound (catalogTable_mem found)
  · cases records with
    | nil => exact isSource
    | cons first rest =>
      obtain ⟨_, -, _, -, -, _, rfl⟩ := onlyRows first mem_cons_self
      rfl
  · intro journal member
    obtain ⟨record, inside, converted⟩ := mem_filterMap.mp member
    obtain ⟨table, -, values, -, -, sequence, rfl⟩ := onlyRows record inside
    exact (syncJournalRecordFromChangesetRecord_ok (eq_ok_of_toOption converted)).2.1
  · intro name included
    exact snapshot_images tablesSound fit listed included

/-- The changes since a checkpoint are the records of the journal in the scope. -/
structure ChangesDelivery (tables : List TableSchema) (source : String) (scope : SyncScope)
    (server : ShapeServer) (since : Nat) (delivery : SyncShapeDelivery) : Prop where
  records_eq : delivery.changeset.records = (server.journal.filter fun record =>
    decide (since < record.sequence) && inScope tables (some scope) record).map
      syncChangesetRecordFromJournalRecord
  source_eq : delivery.changeset.source = source
  checkpoint_eq : delivery.changeset.checkpoint = server.lastSequence
  highWatermark_eq : delivery.sourceHighWatermark = server.lastSequence.getD since

/-- Changes that are delivered contain every record in the scope after the checkpoint. -/
theorem ChangesDelivery.of_changes (sound : ServerSound tables source pruned server)
    (isShape : server.syncShape shapeId = .ok shape) (isScope : server.shapeScope shape = .ok scope)
    (short : (server.journal.filter fun record => since < record.sequence).length
      ≤ shape.maxRecords)
    (ran : syncShapeChanges server shapeId since principal createdAtMicros = .ok delivery)
    : ChangesDelivery tables source scope server since delivery := by
  obtain ⟨_, found, later⟩ := bind_eq_ok.mp ran
  cases isShape.symm.trans found
  obtain ⟨⟨⟩, -, later⟩ := bind_eq_ok.mp later
  obtain ⟨⟨⟩, -, later⟩ := bind_eq_ok.mp later
  obtain ⟨⟨⟩, -, later⟩ := bind_eq_ok.mp later
  obtain ⟨_, found, later⟩ := bind_eq_ok.mp later
  cases isScope.symm.trans found
  obtain ⟨batch, exported, done⟩ := bind_eq_ok.mp later
  rw [syncPendingChanges, take_of_length_le short, sound.tables_eq] at exported
  generalize isPending : (server.journal.filter fun record => since < record.sequence) = pending
    at exported
  have oneSource : ∀ record ∈ pending, record.replicaId = source := by
    intro record member
    rw [← isPending] at member
    exact (sound.logged record (sound.mem_log (mem_of_mem_filter member))).isSource
  have exports : Exports tables (some scope) pending source batch := .of_export oneSource exported
  have isMarked : (batch.sourceHighWatermark.or batch.lastSequence).or server.lastSequence
      = server.lastSequence := by
    rw [show batch.sourceHighWatermark.or batch.lastSequence = _ from exports.watermark_eq,
      ← isPending]
    exact getLast?_filter_lt_or _ sound.journal_increasing since
  have isRecords : batch.records = server.journal.filter fun record =>
      decide (since < record.sequence) && inScope tables (some scope) record := by
    rw [exports.records_eq, ← isPending, filter_filter]
    exact filter_congr fun record _ => Bool.and_comm _ _
  have isCheckpoint : server.lastSequence.or ((batch.records.map
      syncChangesetRecordFromJournalRecord).getLast?.map (·.originSequence))
      = server.lastSequence := by
    rcases sound.lastSequence with ⟨-, empty, none⟩ | some
    · rw [none, isRecords, empty]
      rfl
    · rw [some]
      rfl
  cases done
  refine ⟨?_, ?_, ?_, ?_⟩
  · change batch.records.map _ = _
    rw [isRecords]
  · change ((batch.records.map _).head?.map _).getD
      ((batch.sourceReplicaId.or server.replicaId).getD "unknown") = source
    cases listed : batch.records with
    | nil =>
      rw [exports.source_eq, sound.replicaId_eq]
      cases pending.head? <;> rfl
    | cons first rest =>
      refine oneSource first (mem_of_mem_filter (p := inScope tables (some scope)) ?_)
      rw [← exports.records_eq, listed]
      exact mem_cons_self
  · change ((batch.sourceHighWatermark.or batch.lastSequence).or server.lastSequence).or _ = _
    rw [isMarked]
    exact isCheckpoint
  change ((batch.sourceHighWatermark.or batch.lastSequence).or server.lastSequence).getD
    ((((batch.sourceHighWatermark.or batch.lastSequence).or server.lastSequence).or _).getD _) = _
  rw [isMarked]
  cases marked : server.lastSequence with
  | some last => rfl
  | none =>
    rw [marked] at isCheckpoint
    exact congrArg (·.getD since) isCheckpoint

end

end DecentDb.Sync
