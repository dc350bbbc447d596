import DecentDb.Sync.ClientImports
import DecentDb.Sync.ShapeDeliveries

/-! The invariant of a server and a client of one of its shapes: the records that the client
has not seen make the rows of the scope out of those that it has.
-/

namespace DecentDb.Sync

open KeyedUpdates List ShapeServer
open Sql (TableSchema)

variable {delivery : SyncShapeDelivery}

section

variable [JsonPrimitives] {Db : Type} [ReplicaDatabase Db] {tables : List TableSchema}
  {row : Db → RowName → Option (List Value)} {source : String} {scope : SyncScope}
  {server : ShapeServer} {pruned checkpoint : Nat}

-- Invariants

/-- The journal records in the scope that a client at the watermark has not seen. -/
def ShapeServer.pendingAfter (server : ShapeServer) (scope : SyncScope) (watermark : Nat)
    : List SyncJournalRecord :=
  server.journal.filter fun record =>
    decide (watermark < record.sequence) && inScope server.tables (some scope) record

/-- The checkpoints that the client knows of. -/
def ShapeRun.checkpoints (run : ShapeRun Db) : List Nat :=
  [run.received, run.acknowledged].filterMap id

omit [JsonPrimitives] [ReplicaDatabase Db] in
/-- A client has the checkpoint that it received and the one that it acknowledged. -/
theorem ShapeRun.mem_checkpoints {run : ShapeRun Db} : checkpoint ∈ run.checkpoints
      ↔ run.received = some checkpoint ∨ run.acknowledged = some checkpoint := by
  simp [checkpoints, @eq_comm _ (some checkpoint)]

/-- The pending records make the scope rows of the server out of those of the client. -/
structure Behind (row : Db → RowName → Option (List Value)) (scope : SyncScope) (source : String)
    (server : ShapeServer) (replica : Replica Db) (watermark : Nat) : Prop where
  reached : watermark ≤ server.log.length
  unmarked : ∀ sequence, watermark < sequence → replica.imported source sequence = false
  rows : ∀ name : RowName, scope.includes name.1
    → server.scopedRow scope name
      = replay (row replica.db) (effects server.tables (server.pendingAfter scope watermark)) name

/-- A client without a watermark has nothing yet, and one with a watermark is behind. -/
structure ClientSound (row : Db → RowName → Option (List Value)) (scope : SyncScope)
    (source : String) (server : ShapeServer) (replica : Replica Db) (checkpoints : List Nat)
    : Prop where
  tables_eq : replica.settings.tables = server.tables
  unstarted : replica.watermarks source = none
    → (∀ name : RowName, scope.includes name.1 → row replica.db name = none)
      ∧ (∀ sequence, replica.imported source sequence = false) ∧ checkpoints = []
  behind : ∀ watermark, replica.watermarks source = some watermark
    → Behind row scope source server replica watermark
      ∧ ∀ checkpoint ∈ checkpoints, checkpoint ≤ watermark

/-- The client has the rows of the scope. -/
structure CaughtUp (row : Db → RowName → Option (List Value)) (scope : SyncScope)
    (source : String) (server : ShapeServer) (replica : Replica Db) : Prop where
  tables_eq : replica.settings.tables = server.tables
  watermark_eq : replica.watermarks source = some server.log.length
  unmarked : ∀ sequence, server.log.length < sequence → replica.imported source sequence = false
  rows : ∀ name : RowName, scope.includes name.1
    → row replica.db name = server.scopedRow scope name

variable {checkpoints fewer : List Nat} {replica : Replica Db} {through since watermark : Nat}

section

variable (client : ClientSound row scope source server replica checkpoints)
include client

omit [ReplicaDatabase Db] in
/-- No checkpoint of a client is ahead of the log. -/
theorem ClientSound.checkpoints_le
    : ∀ checkpoint ∈ checkpoints, checkpoint ≤ server.log.length := by
  intro checkpoint member
  cases marked : replica.watermarks source with
  | none =>
    rw [(client.unstarted marked).2.2] at member
    cases member
  | some watermark =>
    obtain ⟨behind, below⟩ := client.behind watermark marked
    exact le_trans (below checkpoint member) behind.reached

omit [ReplicaDatabase Db] in
/-- Fewer checkpoints are sound, too. -/
theorem ClientSound.of_subset (subset : fewer ⊆ checkpoints)
    : ClientSound row scope source server replica fewer := by
  refine ⟨client.tables_eq, fun unset => ?_, fun watermark marked => ?_⟩
  · obtain ⟨rows, marks, empty⟩ := client.unstarted unset
    exact ⟨rows, marks, subset_nil.mp (empty ▸ subset)⟩
  · obtain ⟨behind, below⟩ := client.behind watermark marked
    exact ⟨behind, fun checkpoint member => below checkpoint (subset member)⟩

end

omit [ReplicaDatabase Db] in
/-- A client that has caught up is sound with any checkpoints of the past. -/
theorem CaughtUp.clientSound (sound : ServerSound tables source pruned server)
    (caughtUp : CaughtUp row scope source server replica)
    (below : ∀ checkpoint ∈ checkpoints, checkpoint ≤ server.log.length)
    : ClientSound row scope source server replica checkpoints := by
  refine ⟨caughtUp.tables_eq, fun unset => ?_, fun watermark marked => ?_⟩
  · rw [caughtUp.watermark_eq] at unset
    cases unset
  rw [caughtUp.watermark_eq] at marked
  cases marked
  refine ⟨⟨le_rfl, caughtUp.unmarked, fun name included => ?_⟩, below⟩
  have none : server.pendingAfter scope server.log.length = [] := by
    refine filter_eq_nil_iff.mpr fun record member => ?_
    have := (sound.bounded (sound.mem_log member)).2
    simp [not_lt.mpr this]
  rw [none]
  exact (caughtUp.rows name included).symm

-- Steps of the server

/-- A write is journaled as the record of its row. -/
theorem ServerWrite.isRow (write : ServerWrite) (server : ShapeServer)
    : IsRowRecord write.operation write.table write.values (write.record server) := by
  refine ⟨rfl, rfl, rfl, ?_⟩
  rw [record]
  cases write.operation <;> rfl

/-- A write adds the record of the row to what is pending, if the row is in the scope. -/
theorem ShapeServer.scopedRow_write (tablesSound : TablesSound tables)
    (isTables : server.tables = tables) (fit : server.rows.Fit tables)
    (onKeys : FiltersOnKeys tables scope) {write : ServerWrite} (member : write.table ∈ tables)
    (fits : RowFits write.table write.values) {name : RowName} (included : scope.includes name.1)
    : (server.write write).scopedRow scope name = replay (server.scopedRow scope)
        (effects tables ([write.record server].filter (inScope tables (some scope)))) name := by
  have isRow := write.isRow server
  have effect := isRow.effect tablesSound member fits
  have isIn := isRow.inScope_iff tablesSound member fits onKeys
  have changed : (server.write write).rows.row = Function.update server.rows.row
      (rowName write.table write.values) (write.operation.image write.values) :=
    ServerRows.row_set _ _ _
  have listed : effects tables ([write.record server].filter (inScope tables (some scope)))
      = if inScope tables (some scope) (write.record server)
        then [(rowName write.table write.values, write.operation.image write.values)] else [] := by
    by_cases inside : inScope tables (some scope) (write.record server)
    · simp [inside, effects, effect, Except.toOption]
    · simp [inside, effects]
  rw [listed]
  by_cases same : name = rowName write.table write.values
  · subst same
    have isTable : catalogTable server.tables write.table.name = some write.table := by
      rw [isTables, tablesSound.catalogTable_self member]
    have narrowed : (server.write write).scopedRow scope (rowName write.table write.values)
        = (write.operation.image write.values).filter (scope.keeps write.table) := by
      rw [scopedRow, changed, Function.update_self]
      change Option.filter (fun values =>
        (catalogTable server.tables write.table.name).any (scope.keeps · values)) _ = _
      rw [isTable]
      rfl
    by_cases kept : scope.keeps write.table write.values
    · rw [if_pos (isIn.mpr ⟨included, SyncScope.keeps_iff.mp kept⟩), narrowed, replay, replay,
        Function.update_self]
      cases write.operation <;> simp [SyncOperation.image, kept]
    rw [if_neg fun inside => kept (SyncScope.keeps_iff.mpr (isIn.mp inside).2), narrowed, replay]
    have before : server.scopedRow scope (rowName write.table write.values) = none := by
      cases old : server.rows.row (rowName write.table write.values) with
      | none => rw [scopedRow, old]; rfl
      | some values =>
        obtain ⟨oldFits, sameKey⟩ := fit.of_row tablesSound member old
        have tableSound := tablesSound.sound write.table member
        have sameKeys : rowKey write.table write.values = rowKey write.table values := by
          rw [rowKey_eq tableSound fits, rowKey_eq tableSound oldFits, sameKey]
        have alike := rowSatisfies_of_key tableSound member included onKeys sameKeys
        have unkept : scope.keeps write.table values = false := by
          rw [SyncScope.keeps, ← alike]
          exact Bool.eq_false_iff.mpr kept
        rw [scopedRow, old, rowName, isTable, Option.filter_some, Option.any_some, unkept]
        rfl
    rw [before]
    cases write.operation <;> simp [SyncOperation.image, kept]
  have unchanged : (server.write write).scopedRow scope name = server.scopedRow scope name := by
    rw [scopedRow, changed, Function.update_of_ne same]
    rfl
  rw [unchanged, replay_eq]
  split
  · simp [lastImage, Ne.symm same]
  · rfl

section

variable (sound : ServerSound tables source pruned server)
include sound

/-- A write keeps the server sound. -/
theorem ServerSound.write {write : ServerWrite}
    (member : write.table ∈ tables) (fits : RowFits write.table write.values)
    : ServerSound tables source pruned (server.write write) := by
  have isRow := write.isRow server
  have isNext : (write.record server).sequence = server.log.length + 1 := sound.next_eq
  have length : (server.write write).log.length = server.log.length + 1 := by
    simp [ShapeServer.write]
  refine ⟨sound.tables_eq, sound.replicaId_eq, sound.fit.set member fits _, ?_, ?_, ?_, ?_, ?_⟩
  · rw [length, List.range'_1_concat, ← sound.numbered, ShapeServer.write, List.map_append,
      List.map_singleton, isNext, add_comm]
  · rw [length, ← sound.next_eq]
    rfl
  · intro record inside
    rcases List.mem_append.mp inside with old | new
    · exact sound.logged record old
    cases List.mem_singleton.mp new
    refine ⟨⟨write.operation, write.table, member, write.values, fits, isRow⟩, ?_, rfl, rfl⟩
    rw [ServerWrite.record, sound.replicaId_eq]
    rfl
  · have unpruned : pruned < (write.record server).sequence := by
      have := sound.kept
      omega
    rw [ShapeServer.write, sound.journal_eq, List.filter_append]
    simp [unpruned]
  · rw [length]
    have := sound.kept
    omega

/-- The journal after a prune starts later, or is empty as it was. -/
theorem ServerSound.prune (newestKept : ∀ last ∈ server.lastSequence, through < last)
    : ∃ later, ServerSound tables source later (server.prune through)
      ∧ (later = pruned ∨ later = max pruned through) := by
  rcases sound.lastSequence with ⟨noLog, empty, -⟩ | isLast
  · refine ⟨pruned, { sound with journal_eq := ?_ }, .inl rfl⟩
    change server.journal.filter _ = server.log.filter _
    rw [empty, noLog]
    rfl
  have below : through < server.log.length := newestKept _ isLast
  refine ⟨max pruned through, { sound with journal_eq := ?_, kept := ?_ }, .inr rfl⟩
  · change server.journal.filter _ = server.log.filter _
    rw [sound.journal_eq, filter_filter]
    refine filter_congr fun record _ => ?_
    rw [← Bool.decide_and, decide_eq_decide, and_comm]
    exact Nat.max_lt.symm
  · change _ ∨ max pruned through < server.log.length
    have := sound.kept
    omega

end

omit [ReplicaDatabase Db] in
/-- A write makes the client miss one record and no more. -/
theorem ClientSound.write {write : ServerWrite} (tablesSound : TablesSound tables)
    (sound : ServerSound tables source pruned server) (onKeys : FiltersOnKeys tables scope)
    (client : ClientSound row scope source server replica checkpoints)
    (member : write.table ∈ tables) (fits : RowFits write.table write.values)
    : ClientSound row scope source (server.write write) replica checkpoints := by
  refine { client with behind := fun watermark marked => ?_ }
  obtain ⟨behind, below⟩ := client.behind watermark marked
  have length : (server.write write).log.length = server.log.length + 1 := by
    simp [ShapeServer.write]
  have isPending : (server.write write).pendingAfter scope watermark
    = server.pendingAfter scope watermark
      ++ [write.record server].filter (inScope tables (some scope)) := by
    have above : watermark < (write.record server).sequence :=
      lt_of_le_of_lt behind.reached (by rw [ServerWrite.record, sound.next_eq]; exact Nat.lt_succ_self _)
    rw [ShapeServer.pendingAfter, ShapeServer.pendingAfter, ShapeServer.write, List.filter_append,
      ← sound.tables_eq]
    congr 1
    exact List.filter_congr fun record isRecord => by
      rw [List.mem_singleton.mp isRecord, decide_eq_true above, Bool.true_and]
  refine ⟨⟨le_trans behind.reached (by rw [length]; exact Nat.le_succ _), behind.unmarked,
    fun name included => ?_⟩, below⟩
  rw [ShapeServer.scopedRow_write tablesSound sound.tables_eq sound.fit onKeys member fits included,
    replay_eq, behind.rows name included, isPending,
    show effects _ (_ ++ _) = effects _ _ ++ effects _ _ from List.filterMap_append, replay_append,
    ← sound.tables_eq]
  exact (replay_eq _ _ _).symm

omit [ReplicaDatabase Db] in
/-- A prune of what the client has seen does not matter to it. -/
theorem ClientSound.prune (client : ClientSound row scope source server replica checkpoints)
    (seen : ∀ watermark, replica.watermarks source = some watermark → through ≤ watermark)
    : ClientSound row scope source (server.prune through) replica checkpoints := by
  refine { client with behind := fun watermark marked => ?_ }
  obtain ⟨behind, below⟩ := client.behind watermark marked
  have isPending : (server.prune through).pendingAfter scope watermark
    = server.pendingAfter scope watermark := by
    rw [ShapeServer.pendingAfter, ShapeServer.pendingAfter, ShapeServer.prune, List.filter_filter]
    refine List.filter_congr fun record _ => ?_
    by_cases after : watermark < record.sequence
    · simp [lt_of_le_of_lt (seen watermark marked) after]
    · simp [after]
  refine ⟨{ behind with rows := fun name included => ?_ }, below⟩
  rw [isPending]
  exact behind.rows name included

-- Imports of the client

omit [JsonPrimitives] in
/-- Sound tables declare their key columns. -/
theorem TablesSound.keysDeclared (tablesSound : TablesSound tables) : KeysDeclared tables :=
  fun table member => (tablesSound.sound table member).declared

variable {before after : Replica Db} (tablesSound : TablesSound tables)
  (laws : KeyedLaws tables row)
include tablesSound laws

/-- A snapshot that a new client imports gives it the rows of the scope. -/
theorem SnapshotDelivery.caughtUp (isTables : server.tables = tables)
    (snapshot : SnapshotDelivery tables source scope server delivery)
    (client : ClientSound row scope source server before checkpoints)
    (unset : before.watermarks source = none)
    (cleanly : ImportedCleanly delivery.changeset before after)
    : CaughtUp row scope source server after := by
  obtain ⟨noRows, noMarks, -⟩ := client.unstarted unset
  have ownTables : before.settings.tables = tables := client.tables_eq.trans isTables
  have imported : Imported row delivery.changeset before after := by
    subst ownTables
    exact .of_cleanly laws tablesSound.keysDeclared snapshot.valid cleanly
  have raised := imported.raised _ snapshot.checkpoint_eq
  rw [snapshot.source_eq, unset] at raised
  refine ⟨by rw [imported.settings, client.tables_eq], by simpa using raised, ?_, ?_⟩
  · intro sequence above
    refine Bool.eq_false_iff.mpr fun marked => ?_
    rcases imported.marks sequence (by rw [snapshot.source_eq]; exact marked) with old | new
    · rw [snapshot.source_eq, noMarks sequence] at old
      cases old
    · obtain ⟨record, member, rfl⟩ := new
      exact absurd (imported.bounded _ snapshot.checkpoint_eq record member) (not_le.mpr above)
  intro name included
  have unskipped : (delivery.changeset.journalRecords.filter fun record =>
    !before.skips (before.watermarks delivery.changeset.source) record)
    = delivery.changeset.journalRecords := by
    refine filter_eq_self.mpr fun record member => ?_
    rw [snapshot.source_eq, unset, Replica.skips, snapshot.sources record member,
      noMarks record.sequence]
    rfl
  rw [imported.rows, unskipped, replay_eq, noRows name included, ownTables]
  exact snapshot.images name included

/-- The changes that a client imports from a checkpoint that it has passed do so as well. -/
theorem ChangesDelivery.caughtUp (sound : ServerSound tables source pruned server)
    (changes : ChangesDelivery tables source scope server since delivery)
    (client : ClientSound row scope source server before checkpoints)
    (marked : before.watermarks source = some watermark) (passed : since ≤ watermark)
    (cleanly : ImportedCleanly delivery.changeset before after)
    : CaughtUp row scope source server after := by
  obtain ⟨behind, -⟩ := client.behind watermark marked
  have ownTables : before.settings.tables = tables := client.tables_eq.trans sound.tables_eq
  have logged : ∀ record ∈ server.journal, IsLogged tables source record :=
    fun record member => sound.logged record (sound.mem_log member)
  obtain ⟨valid, isJournal⟩ := valid_of_logged tablesSound
    (fun record member => logged record (mem_of_mem_filter member))
    (sound.journal_increasing.filter _) changes.records_eq
  have imported : Imported row delivery.changeset before after := by
    subst ownTables
    exact .of_cleanly laws tablesSound.keysDeclared valid cleanly
  refine ⟨by rw [imported.settings, client.tables_eq], ?_, ?_, ?_⟩
  · have reached := behind.reached
    rcases sound.lastSequence with ⟨noLog, empty, none⟩ | isLast
    · have kept := imported.kept (changes.checkpoint_eq.trans none) (by rw [isJournal, empty]; rfl)
      rw [changes.source_eq, marked] at kept
      rw [noLog] at reached ⊢
      rw [kept, Nat.le_zero.mp reached]
      rfl
    · have raised := imported.raised _ (changes.checkpoint_eq.trans isLast)
      rw [changes.source_eq, marked, Option.getD_some, max_eq_right reached] at raised
      exact raised
  · intro sequence above
    refine Bool.eq_false_iff.mpr fun isMarked => ?_
    rcases imported.marks sequence (by rw [changes.source_eq]; exact isMarked) with old | new
    · rw [changes.source_eq, behind.unmarked sequence (lt_of_le_of_lt behind.reached above)] at old
      cases old
    obtain ⟨record, member, rfl⟩ := new
    rw [isJournal] at member
    have := (sound.bounded (sound.mem_log (mem_of_mem_filter member))).2
    omega
  intro name included
  have unskipped : (delivery.changeset.journalRecords.filter fun record =>
    !before.skips (before.watermarks delivery.changeset.source) record)
    = server.pendingAfter scope watermark := by
    rw [isJournal, changes.source_eq, marked, filter_filter, pendingAfter, sound.tables_eq]
    refine filter_congr fun record member => ?_
    rw [Replica.skips, (logged record member).isSource]
    by_cases after : watermark < record.sequence
    · simp [after, behind.unmarked record.sequence after, lt_of_le_of_lt passed after]
    · simp [not_lt.mp after]
  rw [imported.rows, unskipped, client.tables_eq]
  exact (behind.rows name included).symm

end

end DecentDb.Sync
