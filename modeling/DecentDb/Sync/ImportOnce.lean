import DecentDb.Library.TransitionSystem
import DecentDb.Sync.ExportedBatches
import DecentDb.Sync.ImportSteps
import DecentDb.Sync.KeyedRows

/-! A journal that reaches a replica in overlapping and repeated batches is imported as by
one batch: the watermark tells the importer which records were applied before.
-/

namespace DecentDb.Sync

open List Option SyncChangeBatch

open Sql (TableSchema)
open Stateful (Agree each)
open TransitionSystem (System)

-- Deliveries

/-- A batch of consecutive records of the journal, and what the storage answers when the
transaction of its import commits.
-/
structure Delivery where
  start : Nat
  count : Nat
  storage : DbResult Unit

def Delivery.records (journal : List SyncJournalRecord) (delivery : Delivery)
    : List SyncJournalRecord :=
  (journal.drop delivery.start).take delivery.count

/-- A replica and how many records of the journal lie up to the end of the furthest batch
that it imported.
-/
structure ImportRun (Db : Type) where
  replica : Replica Db
  delivered : Nat

variable {count : Nat} {record : SyncJournalRecord} {summary : SyncImportSummary}
  {results : List RecordResult}

section Deliveries

variable [JsonPrimitives] {Db : Type} [ReplicaDatabase Db] {tables : List TableSchema}
  {scope : Option SyncScope} {journal covered : List SyncJournalRecord} {source : String}
  {delivery : Delivery} {whole batch : SyncChangeBatch} {initial reached : Replica Db}
  {run following : ImportRun Db}

/-- Repeated and overlapping batches, some of whose imports fail. -/
def deliveries (Db : Type) [ReplicaDatabase Db] (tables : List TableSchema)
    (scope : Option SyncScope) (journal : List SyncJournalRecord)
    : System (ImportRun Db) Delivery where
  next run delivery :=
    match syncExportBatch tables scope (delivery.records journal) with
    | .error _ => none
    | .ok batch =>
      match syncImportBatchWithPolicy .record batch delivery.storage run.replica with
      | (replica, .ok _) => some {
        replica
        delivered := max run.delivered (min (delivery.start + delivery.count) journal.length)
        }
      | (replica, .error _) => some { run with replica }

/-- The batch starts at most one past what was imported so far. -/
def NeverSkipsAhead (run : ImportRun Db) (delivery : Delivery) : Prop :=
  delivery.start ≤ run.delivered

instance (run : ImportRun Db) (delivery : Delivery) : Decidable (NeverSkipsAhead run delivery) :=
  inferInstanceAs (Decidable (_ ≤ _))

/-- The watermark of the first records of the journal. -/
def watermarkOf (records : List SyncJournalRecord) : Option Nat :=
  records.getLast?.map (·.sequence)

section

variable (increasing : journal.Pairwise (·.sequence < ·.sequence))
include increasing

omit [JsonPrimitives] in
/-- The watermark of delivered records covers each of them. -/
theorem watermarkOf_covers (member : record ∈ journal.take count)
    : (watermarkOf (journal.take count)).any (record.sequence ≤ ·) := by
  have nonempty := ne_nil_of_mem member
  have ordered := increasing.sublist (take_sublist count journal)
  rw [watermarkOf, getLast?_eq_some_getLast nonempty, map_some, any_some, decide_eq_true_iff]
  rw [← dropLast_append_getLast nonempty] at member ordered
  rcases mem_append.mp member with earlier | last
  · exact Nat.le_of_lt ((pairwise_append.mp ordered).2.2 record earlier _ mem_cons_self)
  · exact Nat.le_of_eq (congrArg SyncJournalRecord.sequence (mem_singleton.mp last))

omit [JsonPrimitives] in
/-- The records behind the delivered ones are above the watermark. -/
theorem watermarkOf_below (member : record ∈ journal.drop count)
    : (watermarkOf (journal.take count)).any (record.sequence ≤ ·) = false := by
  rw [watermarkOf]
  cases found : (journal.take count).getLast? with
  | none => rfl
  | some last =>
    have ordered := take_append_drop count journal ▸ increasing
    have below := (pairwise_append.mp ordered).2.2 last (mem_of_getLast? found) record
      member
    simpa using below

end

/-- The records of a batch behind the first `count` of the journal. -/
def Delivery.fresh (journal : List SyncJournalRecord) (delivery : Delivery) (count : Nat)
    : List SyncJournalRecord :=
  (journal.drop count).take (delivery.start + delivery.count - count)

omit [JsonPrimitives] in
/-- A batch that starts behind a position and reaches past it splits there. -/
theorem Delivery.records_split (inside : count ≤ journal.length)
    (behind : delivery.start ≤ count) (past : count ≤ delivery.start + delivery.count)
    : delivery.records journal = (journal.take count).drop delivery.start
        ++ delivery.fresh journal count := by
  have whole : delivery.records journal
    = (journal.take (delivery.start + delivery.count)).drop delivery.start := by
    rw [Delivery.records, drop_take, Nat.add_sub_cancel_left]
  obtain ⟨rest, total⟩ := Nat.exists_eq_add_of_le past
  have reaches : delivery.start ≤ (journal.take count).length := by
    rw [length_take]
    omega
  rw [whole, Delivery.fresh, total, Nat.add_sub_cancel_left, take_add,
    drop_append_of_le_length reaches]

omit [JsonPrimitives] in
/-- A delivery that ends before the delivered records brings nothing new. -/
theorem Delivery.records_stale
    (stops : min (delivery.start + delivery.count) journal.length ≤ count)
    : delivery.records journal ⊆ journal.take count := by
  have whole : delivery.records journal
    = (journal.take (min (delivery.start + delivery.count) journal.length)).drop
      delivery.start := by
    rw [Delivery.records, ← take_eq_take_min, drop_take, Nat.add_sub_cancel_left]
  rw [whole]
  exact List.Subset.trans (drop_subset _ _) (take_subset_take_left journal stops)

-- The invariant

/-- The replica is what one batch of all the records delivered so far makes of it. -/
structure Through (tables : List TableSchema) (scope : Option SyncScope)
    (journal : List SyncJournalRecord) (source : String) (whole : SyncChangeBatch)
    (initial : Replica Db) (run : ImportRun Db) : Prop where
  inside : run.delivered ≤ journal.length
  applied : ∃ reached results,
    each (importRecord .record whole none)
      ((journal.take run.delivered).filter (inScope tables scope)) initial
      = (reached, .ok results)
      ∧ Alike run.replica reached
  watermarks : run.replica.watermarks = fun replicaId =>
    if replicaId = source then watermarkOf (journal.take run.delivered)
    else initial.watermarks replicaId
  settings : run.replica.settings = initial.settings
  foreign : 0 < run.delivered → initial.settings.replicaId ≠ some source

/-- Before the first delivery nothing has been imported. -/
theorem Through.start (fresh : initial.watermarks source = none)
    : Through tables scope journal source whole initial { replica := initial, delivered := 0 } := by
  refine ⟨Nat.zero_le _, ⟨initial, [], by simp [each]; rfl, .refl initial⟩, ?_, rfl, nofun⟩
  funext replicaId
  by_cases same : replicaId = source
  · simp [same, fresh, watermarkOf]
  · simp [same]

namespace Through

variable (through : Through tables scope journal source whole initial run)
include through

/-- The replica's watermark is that of the records delivered so far. -/
theorem stored (exports : Exports tables scope (delivery.records journal) source batch)
    (nonempty : delivery.records journal ≠ [])
    : batch.sourceReplicaId.bind run.replica.watermarks
      = watermarkOf (journal.take run.delivered) := by
  rw [exports.source_eq, head?_eq_some_head nonempty, through.watermarks]
  simp

variable (increasing : journal.Pairwise (·.sequence < ·.sequence)) {after : Replica Db}
include increasing

/-- A batch of records that were all delivered before changes nothing. -/
theorem behind (exports : Exports tables scope (delivery.records journal) source batch)
    (stale : delivery.records journal ⊆ journal.take run.delivered)
    (ran : syncImportBatchWithPolicy .record batch delivery.storage run.replica
      = (after, .ok summary))
    : after = run.replica := by
  have allowed := (syncImportBatchWithPolicy_admits ran).2
  by_cases empty : delivery.records journal = []
  · -- nothing is applied and no watermark is raised
    have unmarked : batch.watermark = none := by simp [exports.watermark_eq, empty]
    have unknown : ¬batch.isKnown (batch.sourceReplicaId.bind run.replica.watermarks) := by
      simp [isKnown, unmarked]
    rw [syncImportBatchWithPolicy_eq exports.valid allowed rfl, if_neg unknown] at ran
    obtain ⟨reached, results, looped, rfl, -⟩ := importTransaction_ok ran
    rw [exports.records_eq, empty] at looped
    cases looped
    simp [raiseWatermark, exports.source_eq, empty]
  have stored := through.stored exports empty
  have known : batch.isKnown (watermarkOf (journal.take run.delivered)) := by
    rw [isKnown, exports.watermark_eq, getLast?_eq_some_getLast empty]
    exact watermarkOf_covers increasing (stale (getLast_mem empty))
  rw [syncImportBatchWithPolicy_eq exports.valid allowed stored, if_pos known] at ran
  obtain ⟨rfl, -⟩ := Prod.mk.inj ran
  exact raiseWatermark_known stored known

section

variable (oneSource : ∀ record ∈ journal, record.replicaId = source)
include oneSource

/-- The records that were delivered before are skipped. -/
theorem skips (member : record ∈ journal.take run.delivered)
    : admitRecord run.replica (watermarkOf (journal.take run.delivered)) record = .ok none := by
  have started : 0 < run.delivered := by
    by_contra none
    simp [Nat.eq_zero_of_not_pos none] at member
  have foreign : run.replica.settings.replicaId ≠ some record.replicaId := by
    rw [through.settings, oneSource record (mem_of_mem_take member)]
    exact through.foreign started
  rw [admitRecord, if_neg foreign, if_pos (watermarkOf_covers increasing member)]

/-- The loop over a batch that starts behind the end of what was delivered applies the
records behind that end, as one batch of everything would.
-/
theorem applies
    {fresh : List SyncJournalRecord} (behindEnd : fresh ⊆ journal.drop run.delivered)
    (beforeEnd : covered ⊆ journal.take run.delivered)
    (looped : each (importRecord .record batch (watermarkOf (journal.take run.delivered)))
      ((covered ++ fresh).filter (inScope tables scope)) run.replica = (after, .ok results))
    : ∃ reached results, each (importRecord .record whole none)
        ((journal.take run.delivered ++ fresh).filter (inScope tables scope)) initial
        = (reached, .ok results)
      ∧ Alike after reached := by
  rw [filter_append, Stateful.each_append_eq_ok] at looped
  obtain ⟨middle, _, back, skipped, applied, -⟩ := looped
  have unchanged : middle = run.replica := by
    obtain ⟨_, same⟩ := each_skipped .record batch
      fun record (member : record ∈ covered.filter (inScope tables scope)) =>
        through.skips increasing oneSource (beforeEnd (mem_of_mem_filter member))
    rw [same] at skipped
    exact (congrArg Prod.fst skipped).symm
  subst unchanged
  rw [Stateful.each_congr fun record member =>
    importRecord_above (watermarkOf_below increasing
      (behindEnd (mem_of_mem_filter member)))] at applied
  obtain ⟨reached, front, ran, alike⟩ := through.applied
  obtain ⟨same, kept⟩ := Agree.each (importRecord_alike .record batch whole none)
    (fresh.filter (inScope tables scope)) _ _ alike
  rw [applied] at same kept
  refine ⟨_, front ++ back, ?_, kept⟩
  rw [filter_append, Stateful.each_append_eq_ok]
  exact ⟨reached, front, back, ran, Prod.ext rfl same.symm, rfl⟩

/-- A batch that reaches past the records delivered so far applies the rest of them. -/
theorem ahead
    (exports : Exports tables scope (delivery.records journal) source batch)
    (contiguous : delivery.start ≤ run.delivered)
    (past : run.delivered < min (delivery.start + delivery.count) journal.length)
    (ran : syncImportBatchWithPolicy .record batch delivery.storage run.replica
      = (after, .ok summary))
    : Through tables scope journal source whole initial {
        replica := after
        delivered := min (delivery.start + delivery.count) journal.length
      } := by
  have allowed := (syncImportBatchWithPolicy_admits ran).2
  have reaches : run.delivered ≤ delivery.start + delivery.count := by omega
  have split := Delivery.records_split through.inside contiguous reaches
  have stop : journal.take (min (delivery.start + delivery.count) journal.length)
      = journal.take run.delivered ++ delivery.fresh journal run.delivered := by
    obtain ⟨rest, total⟩ := Nat.exists_eq_add_of_le reaches
    rw [← take_eq_take_min, Delivery.fresh, total, Nat.add_sub_cancel_left, take_add]
  have fresh : delivery.fresh journal run.delivered ≠ [] := by
    refine ne_nil_of_length_pos ?_
    rw [Delivery.fresh, length_take, length_drop]
    omega
  have nonempty : delivery.records journal ≠ [] := by
    rw [split]
    exact append_ne_nil_of_right_ne_nil _ fresh
  have behindEnd : delivery.fresh journal run.delivered ⊆ journal.drop run.delivered :=
    take_subset _ _
  have stored := through.stored exports nonempty
  have sourced : batch.sourceReplicaId = some source := by
    rw [exports.source_eq, head?_eq_some_head nonempty, map_some]
  have marked : batch.watermark
      = some ((delivery.fresh journal run.delivered).getLast fresh).sequence := by
    rw [exports.watermark_eq, split, getLast?_append_of_ne_nil _ fresh,
      getLast?_eq_some_getLast fresh, map_some]
  have above := watermarkOf_below increasing (behindEnd (getLast_mem fresh))
  have unknown : ¬batch.isKnown (watermarkOf (journal.take run.delivered)) := by
    simp [isKnown, marked, above]
  rw [syncImportBatchWithPolicy_eq exports.valid allowed stored, if_neg unknown] at ran
  obtain ⟨reached, results, looped, rfl, -⟩ := importTransaction_ok ran
  have untouched := importRecords_untouched .record batch
    (watermarkOf (journal.take run.delivered)) batch.records run.replica
  rw [looped] at untouched
  refine ⟨Nat.min_le_right _ _, ?_, ?_, ?_, ?_⟩
  · rw [exports.records_eq, split] at looped
    obtain ⟨final, all, ranAll, alike⟩ := through.applies increasing oneSource behindEnd
      (drop_subset _ _) looped
    exact ⟨final, all, stop ▸ ranAll, (raiseWatermark_alike _ _ _).trans alike⟩
  · have whole : watermarkOf (journal.take (min (delivery.start + delivery.count) journal.length))
        = batch.watermark := by
      rw [stop, watermarkOf, exports.watermark_eq, split, getLast?_append_of_ne_nil _ fresh,
        getLast?_append_of_ne_nil _ fresh]
    rw [raiseWatermark_above sourced marked above, untouched.2, through.watermarks, whole, marked]
    funext replicaId
    by_cases atSource : replicaId = source <;> simp [atSource]
  · rw [(raiseWatermark_alike _ _ _).settings, untouched.1, through.settings]
  · intro _ own
    rw [refuseOwnBatch, through.settings, own, sourced] at allowed
    simp at allowed

/-- A delivery that skips nothing ahead imports exactly the records that are new in it. -/
theorem step (contiguous : NeverSkipsAhead run delivery)
    (delivered : (deliveries Db tables scope journal).next run delivery = some following)
    : Through tables scope journal source whole initial following := by
  simp only [deliveries] at delivered
  split at delivered
  next => cases delivered
  next batch exported =>
    have oneSourceHere : ∀ record ∈ delivery.records journal, record.replicaId = source :=
      fun record member => oneSource record (drop_subset _ _ (take_subset _ _ member))
    have exports := Exports.of_export oneSourceHere exported
    split at delivered <;> cases delivered
    next after summary ran =>
      by_cases past : run.delivered < min (delivery.start + delivery.count) journal.length
      · rw [Nat.max_eq_right (Nat.le_of_lt past)]
        exact through.ahead increasing oneSource exports contiguous past ran
      · rw [Nat.max_eq_left (Nat.le_of_not_lt past)]
        rw [through.behind increasing exports (Delivery.records_stale (Nat.le_of_not_lt past)) ran]
        exact through
    next after error ran =>
      rw [syncImportBatchWithPolicy_failed ran]
      exact through

end

end Through

/-- One batch of a journal that the replica has seen nothing of applies all its records. -/
theorem import_whole (oneSource : ∀ record ∈ journal, record.replicaId = source)
    (fresh : initial.watermarks source = none)
    (foreign : journal ≠ [] → initial.settings.replicaId ≠ some source)
    (exported : syncExportBatch tables scope journal = .ok whole)
    (looped : each (importRecord .record whole none)
      (journal.filter (inScope tables scope)) initial = (reached, .ok results))
    : syncImportBatchWithPolicy .record whole (.ok ()) initial
      = (raiseWatermark whole none reached, .ok (importSummary whole results))
      ∧ (raiseWatermark whole none reached).watermarks = fun replicaId =>
        if replicaId = source then watermarkOf journal else initial.watermarks replicaId := by
  have exports := Exports.of_export oneSource exported
  have untouched := importRecords_untouched .record whole none
    (journal.filter (inScope tables scope)) initial
  rw [looped] at untouched
  have unknown : ¬whole.isKnown none := by simp [isKnown]
  have transaction : importTransaction .record whole none (.ok ()) initial
    = (raiseWatermark whole none reached, .ok (importSummary whole results)) := by
    rw [importTransaction, exports.records_eq, looped]
  cases journal with
  | nil =>
    have unsourced : whole.sourceReplicaId = none := exports.source_eq
    have allowed : refuseOwnBatch whole initial = .ok () := by
      rw [refuseOwnBatch, unsourced]
      split <;> simp
    have stored : whole.sourceReplicaId.bind initial.watermarks = none := by rw [unsourced]; rfl
    refine ⟨?_, ?_⟩
    · rw [syncImportBatchWithPolicy_eq exports.valid allowed stored, if_neg unknown, transaction]
    rw [raiseWatermark, unsourced]
    funext replicaId
    have kept : reached.watermarks = initial.watermarks := untouched.2
    by_cases atSource : replicaId = source <;> simp [atSource, kept, fresh, watermarkOf]
  | cons first rest =>
    have sourced : whole.sourceReplicaId = some source := exports.source_eq
    have marked : whole.watermark = some ((first :: rest).getLast (cons_ne_nil _ _)).sequence := by
      rw [exports.watermark_eq, getLast?_eq_some_getLast (cons_ne_nil _ _), map_some]
    have allowed : refuseOwnBatch whole initial = .ok () := by
      rw [refuseOwnBatch, sourced]
      split
      next replicaId own => rw [if_neg fun same => foreign (cons_ne_nil _ _) (own.trans same.symm)]
      next => rfl
    have stored : whole.sourceReplicaId.bind initial.watermarks = none := by
      rw [sourced, bind_some, fresh]
    refine ⟨?_, ?_⟩
    · rw [syncImportBatchWithPolicy_eq exports.valid allowed stored, if_neg unknown, transaction]
    · rw [raiseWatermark_above sourced marked rfl, untouched.2, ← marked, exports.watermark_eq]
      rfl

/-- However a journal is divided, repeated and retried, the replica ends as after importing
the whole journal at once, up to the batches that its conflicts name.
-/
theorem import_exactly_once {final : ImportRun Db} {calls : List Delivery}
    (increasing : journal.Pairwise (·.sequence < ·.sequence))
    (oneSource : ∀ record ∈ journal, record.replicaId = source)
    (fresh : initial.watermarks source = none)
    (exported : syncExportBatch tables scope journal = .ok whole)
    (contiguous : (deliveries Db tables scope journal).Meets NeverSkipsAhead
      { replica := initial, delivered := 0 } calls)
    (ran : (deliveries Db tables scope journal).run { replica := initial, delivered := 0 } calls
      = some final)
    (complete : final.delivered = journal.length)
    : ∃ single summary,
      syncImportBatchWithPolicy .record whole (.ok ()) initial = (single, .ok summary)
      ∧ final.replica.db = single.db
      ∧ final.replica.conflicts.map (·.withoutBatch) = single.conflicts.map (·.withoutBatch)
      ∧ final.replica.watermarks = single.watermarks := by
  have through : Through tables scope journal source whole initial final :=
    System.run_preserves _ (Through tables scope journal source whole initial)
      (fun _ _ _ holds guard taken => holds.step increasing oneSource guard taken)
      (.start fresh) contiguous ran
  obtain ⟨-, ⟨reached, results, looped, alike⟩, watermarks, -, foreign⟩ := through
  rw [complete] at watermarks foreign
  rw [complete, take_length] at looped
  obtain ⟨imported, raised⟩ := import_whole oneSource fresh
    (fun nonempty => foreign (length_pos_iff.mpr nonempty)) exported looped
  have same := alike.trans (raiseWatermark_alike whole none reached).symm
  refine ⟨_, _, imported, same.db, same.conflicts, ?_⟩
  rw [raised, watermarks, take_length]

end Deliveries

/-- An insertion, a second one under the same key, and an update. -/
def itemJournal : List SyncJournalRecord :=
  [itemRecord 1 "insert" "a" "first", itemRecord 2 "insert" "a" "second",
    itemRecord 3 "update" "a" "third"]

/-- Two overlapping batches, the second of which is retried after a failure. -/
theorem import_exactly_once_overlapping : letI := textJson
      let calls : List Delivery :=
        [⟨0, 2, .ok ()⟩, ⟨1, 2, .error (.io "write")⟩, ⟨0, 1, .ok ()⟩, ⟨1, 2, .ok ()⟩]
      ∃ whole single summary final, syncExportBatch [itemsTable] none itemJournal = .ok whole
        ∧ (deliveries KeyedRows [itemsTable] none itemJournal).run
          { replica := emptyReplica, delivered := 0 } calls = some final
        ∧ syncImportBatchWithPolicy .record whole (.ok ()) emptyReplica = (single, .ok summary)
        ∧ final.replica.db = single.db
        ∧ final.replica.conflicts.map (·.withoutBatch) = single.conflicts.map (·.withoutBatch)
        ∧ final.replica.watermarks = single.watermarks := by
  let _ := textJson
  intro calls
  have exported : syncExportBatch [itemsTable] none itemJournal = .ok _ := rfl
  have reached : ((deliveries KeyedRows [itemsTable] none itemJournal).run
    { replica := emptyReplica, delivered := 0 } calls).map (·.delivered) = some 3 := by
    decide +kernel
  have contiguous : (deliveries KeyedRows [itemsTable] none itemJournal).Meets NeverSkipsAhead
    { replica := emptyReplica, delivered := 0 } calls := by
    decide +kernel
  obtain ⟨final, ran, complete⟩ := map_eq_some_iff.mp reached
  have oneSource : ∀ record ∈ itemJournal, record.replicaId = "remote" := by decide
  obtain ⟨single, summary, imported, same⟩ := import_exactly_once (by decide) oneSource rfl
    exported contiguous ran complete
  exact ⟨_, single, summary, final, exported, ran, imported, same⟩

/-- The conflict of the second record names the batch that brought it. -/
theorem import_conflict_batch_counterexample : letI := textJson
      let journal := itemJournal.take 2
      (((deliveries KeyedRows [itemsTable] none journal).run
        { replica := emptyReplica, delivered := 0 } [⟨0, 1, .ok ()⟩, ⟨1, 1, .ok ()⟩]).map
        fun final => (final.delivered, final.replica.conflicts.map (·.batchId)))
        = some (2, ["sync-batch:v1:remote:2:2:1"])
      ∧ ∃ whole, syncExportBatch [itemsTable] none journal = .ok whole
        ∧ (syncImportBatchWithPolicy .record whole (.ok ()) emptyReplica).1.conflicts.map
          (·.batchId) = ["sync-batch:v1:remote:1:2:2"] := by
  let _ := textJson
  exact ⟨by decide +kernel, _, rfl, by decide +kernel⟩

end DecentDb.Sync
