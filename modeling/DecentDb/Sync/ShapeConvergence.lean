import DecentDb.Sync.ShapeInvariant

/-! A client of a shape has the rows of the scope after each delivery that it applied, as long
as the row filter reads key columns only, the server keeps what the client still needs, and the
client takes one snapshot.
-/

namespace DecentDb.Sync

open List Option ShapeRun

open Sql (TableSchema)
open KeyedRows (row)

section

variable [JsonPrimitives] {Db : Type} [ReplicaDatabase Db] {tables : List TableSchema}
  {row : Db → RowName → Option (List Value)} {source shapeId : String} {scope : SyncScope}
  {shape : SyncShape} {pruned : Nat}

/-- The row fits the table, which is one of the schema. -/
def ShapeAction.Fits (tables : List TableSchema) : ShapeAction → Prop
  | .write change => change.table ∈ tables ∧ RowFits change.table change.values
  | _ => True

/-- Every write is captured; a prune keeps the newest record and those that the client has not
seen or acknowledged; a snapshot is the first import of a client; the changes fit into one
delivery; and there is no conflict that the client still has to resolve.
-/
def Careful (source : String) (shape : SyncShape) (run : ShapeRun Db) : ShapeAction → Prop
  | .write _ | .acknowledge => True
  | .writeUncaptured _ => False
  | .prune through =>
    (∀ last ∈ run.server.lastSequence, through < last)
    ∧ (∀ watermark ∈ run.client.replica.watermarks source, through ≤ watermark)
    ∧ ∀ checkpoint ∈ run.checkpoints, through ≤ checkpoint
  | .snapshot _ _ _ =>
    run.client.replica.conflicts = [] ∧ run.client.replica.watermarks source = none
  | .changes _ _ _ =>
    run.client.replica.conflicts = []
    ∧ ∀ since ∈ run.acknowledged,
      (run.server.journal.filter fun record => since < record.sequence).length ≤ shape.maxRecords

instance (source : String) (shape : SyncShape) (run : ShapeRun Db)
    : ∀ action, Decidable (Careful source shape run action)
  | .write _ | .acknowledge => .isTrue trivial
  | .writeUncaptured _ => .isFalse id
  | .prune through => inferInstanceAs (Decidable ((∀ last ∈ run.server.lastSequence, through < last)
    ∧ (∀ watermark ∈ run.client.replica.watermarks source, through ≤ watermark)
    ∧ ∀ checkpoint ∈ run.checkpoints, through ≤ checkpoint))
  | .snapshot _ _ _ => inferInstanceAs (Decidable (run.client.replica.conflicts = []
    ∧ run.client.replica.watermarks source = none))
  | .changes _ _ _ => inferInstanceAs (Decidable (run.client.replica.conflicts = []
    ∧ ∀ since ∈ run.acknowledged, (run.server.journal.filter fun record =>
      since < record.sequence).length ≤ shape.maxRecords))

/-- What holds between the steps. -/
structure Followed (tables : List TableSchema) (row : Db → RowName → Option (List Value))
    (source shapeId : String) (shape : SyncShape) (scope : SyncScope) (pruned : Nat)
    (run : ShapeRun Db) : Prop where
  server : ServerSound tables source pruned run.server
  isShape : run.server.syncShape shapeId = .ok shape
  isScope : run.server.shapeScope shape = .ok scope
  unpruned : ∀ checkpoint ∈ run.checkpoints, pruned ≤ checkpoint
  client : run.client.replica.conflicts = []
    → ClientSound row scope source run.server run.client.replica run.checkpoints
  applied : run.applied → CaughtUp row scope source run.server run.client.replica

variable [ChangesetPrimitives] {run following : ShapeRun Db}

/-- What an application leaves of the run, by the outcome that the client sees. -/
theorem ShapeRun.apply_cases (run : ShapeRun Db) (options : ApplyChangesetOptions)
    (storage : ApplyStorage) (delivery : SyncShapeDelivery)
    : (run.apply options storage delivery).server = run.server
      ∧ (run.apply options storage delivery).acknowledged = run.acknowledged
      ∧ (((run.apply options storage delivery).applied
        ∧ (run.apply options storage delivery).received = some delivery.sourceHighWatermark
        ∧ ImportedCleanly delivery.changeset run.client.replica
          (run.apply options storage delivery).client.replica)
        ∨ ((run.apply options storage delivery).applied = false
          ∧ (run.apply options storage delivery).received = run.received
          ∧ ((run.apply options storage delivery).client.replica = run.client.replica
            ∨ (run.apply options storage delivery).client.replica.conflicts ≠ []
            ∨ ImportedCleanly delivery.changeset run.client.replica
              (run.apply options storage delivery).client.replica))) := by
  have result := syncApplyChangeset_replica options delivery.changeset storage run.client
  generalize ran : syncApplyChangeset options delivery.changeset storage run.client = outcome at result
  obtain ⟨after, returned⟩ := outcome
  rw [apply, ran]
  cases returned with
  | error _ => exact ⟨rfl, rfl, .inr ⟨rfl, rfl, result⟩⟩
  | ok report =>
    dsimp only
    split
    next succeeded =>
      obtain ⟨batch, policy, summary, isBatch, imported, clean⟩ :=
        syncApplyChangeset_applied ran succeeded
      exact ⟨rfl, rfl, .inl ⟨rfl, rfl, batch, policy, _, summary, isBatch, imported, clean⟩⟩
    next => exact ⟨rfl, rfl, .inr ⟨rfl, rfl, result⟩⟩

section

variable (followed : Followed tables row source shapeId shape scope pruned run)
  (noConflicts : run.client.replica.conflicts = [])
include followed noConflicts

/-- An application keeps the invariant if an import of the delivery brings the client up. -/
theorem Followed.apply {delivery : SyncShapeDelivery}
    (caughtUp : ∀ after, ImportedCleanly delivery.changeset run.client.replica after
      → CaughtUp row scope source run.server after)
    (newest : delivery.sourceHighWatermark = run.server.log.length)
    (options : ApplyChangesetOptions) (storage : ApplyStorage)
    : Followed tables row source shapeId shape scope pruned (run.apply options storage delivery) := by
  have client := followed.client noConflicts
  have covered : pruned ≤ run.server.log.length := by
    have := followed.server.kept
    omega
  obtain ⟨server, acknowledged, result⟩ := run.apply_cases options storage delivery
  generalize run.apply options storage delivery = next at server acknowledged result
  obtain ⟨isApplied, received, cleanly⟩ | ⟨unapplied, received, result⟩ := result
  · have isCaughtUp := caughtUp _ cleanly
    have isCheckpoint : ∀ checkpoint ∈ next.checkpoints,
        checkpoint = run.server.log.length ∨ checkpoint ∈ run.checkpoints := by
      intro checkpoint member
      rw [mem_checkpoints, received, acknowledged, newest] at member
      rcases member with new | old
      · exact .inl (some.inj new).symm
      · exact .inr (mem_checkpoints.mpr (.inr old))
    refine ⟨server ▸ followed.server, server ▸ followed.isShape, server ▸ followed.isScope, ?_, ?_,
      fun _ => server ▸ isCaughtUp⟩
    · intro checkpoint member
      rcases isCheckpoint checkpoint member with rfl | old
      · exact covered
      · exact followed.unpruned checkpoint old
    intro _
    rw [server]
    refine isCaughtUp.clientSound followed.server fun checkpoint member => ?_
    rcases isCheckpoint checkpoint member with rfl | old
    · exact le_rfl
    · exact client.checkpoints_le checkpoint old
  have sameCheckpoints : next.checkpoints = run.checkpoints := by
    rw [checkpoints, received, acknowledged]
    rfl
  refine ⟨server ▸ followed.server, server ▸ followed.isShape, server ▸ followed.isScope, ?_, ?_,
    fun isApplied => ?_⟩
  · rw [sameCheckpoints]
    exact followed.unpruned
  · intro stillNone
    rw [server, sameCheckpoints]
    obtain same | conflicting | cleanly := result
    · exact same ▸ client
    · exact absurd stillNone conflicting
    · exact (caughtUp _ cleanly).clientSound followed.server client.checkpoints_le
  · rw [unapplied] at isApplied
    cases isApplied

/-- A request that is refused keeps the invariant, and so does one that is answered and
applied.
-/
theorem Followed.deliver {answer : DbResult SyncShapeDelivery}
    (answered : ∀ delivery, answer = .ok delivery
      → delivery.sourceHighWatermark = run.server.log.length
      ∧ ∀ after, ImportedCleanly delivery.changeset run.client.replica after
      → CaughtUp row scope source run.server after) (options : ApplyChangesetOptions)
    (storage : ApplyStorage)
    : Followed tables row source shapeId shape scope pruned (run.deliver options storage answer) := by
  cases answer with
  | error _ => exact { followed with applied := nofun }
  | ok delivery =>
    obtain ⟨newest, caughtUp⟩ := answered delivery rfl
    exact followed.apply noConflicts caughtUp newest options storage

end

/-- One step, by cases on the action. -/
theorem Followed.step (tablesSound : TablesSound tables) (laws : KeyedLaws tables row)
    (onKeys : FiltersOnKeys tables scope) {principal : Option SyncPrincipal} {action : ShapeAction}
    (followed : Followed tables row source shapeId shape scope pruned run)
    (careful : Careful source shape run action) (fits : action.Fits tables)
    (taken : (shapeSystem Db shapeId principal).next run action = some following)
    : ∃ later, Followed tables row source shapeId shape scope later following := by
  cases action with
  | write change =>
    obtain ⟨member, rowFits⟩ := fits
    simp only [shapeSystem] at taken
    split at taken <;> cases taken
    next =>
      exact ⟨pruned, followed.server.write member rowFits, followed.isShape, followed.isScope,
        followed.unpruned, fun noConflicts => (followed.client noConflicts).write tablesSound
          followed.server onKeys member rowFits, nofun⟩
  | writeUncaptured => exact careful.elim
  | prune through =>
    cases taken
    obtain ⟨newestKept, seen, unacknowledged⟩ := careful
    obtain ⟨later, server, isLater⟩ := followed.server.prune newestKept
    refine ⟨later, server, followed.isShape, followed.isScope, fun checkpoint member => ?_,
      fun noConflicts => (followed.client noConflicts).prune seen, nofun⟩
    have covered := followed.unpruned checkpoint member
    have kept := unacknowledged checkpoint member
    omega
  | snapshot createdAtMicros options storage =>
    cases taken
    obtain ⟨noConflicts, unset⟩ := careful
    refine ⟨pruned, followed.deliver noConflicts (fun delivery made => ?_) options storage⟩
    have snapshot : SnapshotDelivery tables source scope run.server delivery :=
      .of_snapshot tablesSound followed.server followed.isShape followed.isScope made
    exact ⟨snapshot.highWatermark_eq, fun after cleanly => snapshot.caughtUp tablesSound laws
      followed.server.tables_eq (followed.client noConflicts) unset cleanly⟩
  | changes createdAtMicros options storage =>
    obtain ⟨since, acknowledged, rfl⟩ := map_eq_some_iff.mp taken
    obtain ⟨noConflicts, short⟩ := careful
    have client := followed.client noConflicts
    have known := mem_checkpoints.mpr (.inr acknowledged)
    refine ⟨pruned, followed.deliver noConflicts (fun delivery made => ?_) options storage⟩
    have changes : ChangesDelivery tables source scope run.server since delivery :=
      .of_changes followed.server followed.isShape followed.isScope (short since acknowledged) made
    cases marked : run.client.replica.watermarks source with
    | none =>
      rw [(client.unstarted marked).2.2] at known
      cases known
    | some watermark =>
      refine ⟨?_, fun after cleanly => changes.caughtUp tablesSound laws followed.server client
        marked ((client.behind watermark marked).2 since known) cleanly⟩
      rw [changes.highWatermark_eq]
      rcases followed.server.lastSequence with ⟨noLog, -, none⟩ | isLast
      · have := client.checkpoints_le since known
        rw [none, getD_none]
        rw [noLog] at this ⊢
        exact Nat.le_zero.mp this
      · rw [isLast]
        rfl
  | acknowledge =>
    obtain ⟨checkpoint, received, rfl⟩ := map_eq_some_iff.mp taken
    have subset : (checkpoints { run with acknowledged := some checkpoint, applied := false })
      ⊆ run.checkpoints := by
      intro other member
      rcases mem_checkpoints.mp member with old | new
      · exact mem_checkpoints.mpr (.inl old)
      · exact mem_checkpoints.mpr (.inl (received.trans new))
    exact ⟨pruned, followed.server, followed.isShape, followed.isScope,
      fun other member => followed.unpruned other (subset member),
      fun noConflicts => (followed.client noConflicts).of_subset subset, nofun⟩

omit [ChangesetPrimitives] in
/-- The journal starts empty, and the client has none of the tables of the shape. -/
structure ShapeRun.Fresh (tables : List TableSchema) (row : Db → RowName → Option (List Value))
    (source shapeId : String) (shape : SyncShape) (scope : SyncScope) (run : ShapeRun Db)
    : Prop where
  tables_eq : run.server.tables = tables
  isSource : run.server.replicaId = some source
  fit : run.server.rows.Fit tables
  empty : run.server.log = [] ∧ run.server.journal = [] ∧ run.server.nextSequence = 1
  isShape : run.server.syncShape shapeId = .ok shape
  isScope : run.server.shapeScope shape = .ok scope
  ownTables : run.client.replica.settings.tables = tables
  unmarked : run.client.replica.watermarks source = none
    ∧ ∀ sequence, run.client.replica.imported source sequence = false
  noRows : ∀ name : RowName, scope.includes name.1 → row run.client.replica.db name = none
  unstarted : run.received = none ∧ run.acknowledged = none ∧ run.applied = false

omit [ReplicaDatabase Db] [ChangesetPrimitives] in
/-- The invariant holds before the first step. -/
theorem Followed.of_fresh (fresh : run.Fresh tables row source shapeId shape scope)
    : Followed tables row source shapeId shape scope 0 run := by
  obtain ⟨noLog, noJournal, isNext⟩ := fresh.empty
  obtain ⟨unset, noMarks⟩ := fresh.unmarked
  obtain ⟨unreceived, unacknowledged, unapplied⟩ := fresh.unstarted
  have noCheckpoints : run.checkpoints = [] := by
    rw [checkpoints, unreceived, unacknowledged]
    rfl
  refine ⟨⟨fresh.tables_eq, fresh.isSource, fresh.fit, ?_, ?_, ?_, ?_, .inl rfl⟩, fresh.isShape,
    fresh.isScope, fun _ _ => Nat.zero_le _, fun _ => ⟨?_, ?_, ?_⟩, ?_⟩
  · rw [noLog]
    rfl
  · rw [noLog, isNext]
    rfl
  · rw [noLog]
    simp
  · rw [noJournal, noLog]
    rfl
  · rw [fresh.ownTables, fresh.tables_eq]
  · exact fun _ => ⟨fresh.noRows, noMarks, noCheckpoints⟩
  · intro watermark marked
    rw [unset] at marked
    cases marked
  · intro isApplied
    rw [unapplied] at isApplied
    cases isApplied

end

-- A shape over the items

/-- The items whose column satisfies the test. -/
def itemsWhere (column : String) (test : Value → Bool) : SyncScope where
  name := "items"
  includeTables := ["items"]
  rowFilter := some fun values => .ok (values.all test)
  filterColumns := [column]

def itemsShape : SyncShape where
  shapeId := "items"
  scopeName := "items"
  tenantId := "tenant"
  allowedRoles := []
  allowedSubjects := []
  maxRecords := 10

/-- A server without items, and a client that knows the shape. -/
def itemsRun (scope : SyncScope) : ShapeRun KeyedRows where
  server := {
    tables := [itemsTable]
    schemaCookie := 1
    schemaFingerprint := "items"
    replicaId := some "remote"
    scopes := [scope]
    shapes := [itemsShape]
    rows := ⟨[], nodup_nil⟩
    journal := []
    nextSequence := 1
    log := []
  }
  client := { emptyDatabase with scopes := [scope], shapes := [itemsShape] }
  received := none
  acknowledged := none
  applied := false

def writeItem (operation : SyncOperation) (id name : String) : ShapeAction :=
  .write { operation, table := itemsTable, values := [.text id, .text name] }

/-- Item 1 changes its name after the snapshot, and the client asks for the changes. -/
def renameActions : List ShapeAction :=
  [writeItem .insert "1" "apple", .snapshot 1 plainOptions storageOk, .acknowledge,
    writeItem .update "1" "pear", .changes 2 plainOptions storageOk]

def runItems (scope : SyncScope) (actions : List ShapeAction) : Option (ShapeRun KeyedRows) :=
  let _ := textJson
  let _ := plainPrimitives
  (shapeSystem KeyedRows "items" none).run (itemsRun scope) actions

/-- The items of the example fit their table. -/
theorem writeItem_fits (operation : SyncOperation) (id name : String) : letI := textJson
      (writeItem operation id name).Fits [itemsTable] := by
  refine ⟨mem_cons_self, rfl, ?_⟩
  exact forall_mem_cons.mpr ⟨rfl, forall_mem_singleton.mpr rfl⟩

/-- The catalog of the example is sound. -/
theorem itemsTables_sound : TablesSound [itemsTable] := by
  refine ⟨fun table member => ?_, by decide⟩
  cases mem_singleton.mp member
  refine ⟨by decide, fun name inKey => ?_⟩
  cases mem_singleton.mp inKey
  exact ⟨textColumn "id", mem_cons_self, rfl⟩

/-- The run of the example starts fresh. -/
theorem itemsRun_fresh (column : String) (test : Value → Bool) : letI := textJson
      (itemsRun (itemsWhere column test)).Fresh [itemsTable] (row [itemsTable]) "remote"
        "items" itemsShape (itemsWhere column test) := by
  let _ := textJson
  have noRows : ∀ name, row [itemsTable] { rows := [] } name = none := by
    intro name
    rw [row, bind_eq_none_iff]
    exact fun _ _ => rfl
  exact ⟨rfl, rfl, by rintro _ ⟨⟩, ⟨rfl, rfl, rfl⟩, rfl, rfl, rfl, ⟨rfl, fun _ => rfl⟩,
    fun name _ => noRows name, ⟨rfl, rfl, rfl⟩⟩

/-- Item 1 changes its name twice after the snapshot, the first record is pruned, and the client,
which is told to, starts over with a new snapshot.
-/
def resyncActions : List ShapeAction :=
  [writeItem .insert "1" "apple", .snapshot 1 plainOptions storageOk, .acknowledge,
    writeItem .update "1" "pear", writeItem .update "1" "plum", .prune 2,
    .changes 2 plainOptions storageOk, .snapshot 3 plainOptions storageOk]

end DecentDb.Sync
