import DecentDb.Exec.MarkFunctions

/-! When mutation tracking is sound: each executor step keeps the delta's description of
the rows as long as tracked updates start from a recorded original and inserts do not reuse
a hidden slot.
-/

namespace DecentDb

open EngineRuntime List Option RowStep TableData Untouched

open Std (ExtTreeMap ExtTreeSet)

variable {persisted before : List StoredRow} {runtime changed following : EngineRuntime}
  {tableName other : String} {data updated : TableData} {rowId : Int64}
  {values original : List Value} {row first second : StoredRow}

-- One step, and every run

/-- The step condition. An insert does not reuse a hidden slot unless the delta already
records deletes, and a tracked update meets `OriginalRecorded`; both are free for temporary
and for wholly dirty tables.
-/
def RowStep.Trackable (runtime : EngineRuntime) : RowStep → Prop
  | .insert tableName row =>
    runtime.visibleTableIsTemporary tableName ∨ runtime.WhollyDirty tableName
    ∨ (runtime.pagedMutations.getD tableName .empty).deletedRows.isEmpty = false
    ∨ ∀ data ∈ runtime.tableData tableName, row.rowId ∉ data.tombstonedRowIds
  | .updateTracked tableName rowId values =>
    runtime.visibleTableIsTemporary tableName ∨ runtime.WhollyDirty tableName
    ∨ ∀ data ∈ runtime.tableData tableName, ∀ row ∈ data.rowById rowId,
      OriginalRecorded (runtime.pagedMutations.getD tableName .empty) rowId
        row.values values
  | _ => True

instance (runtime : EngineRuntime) : (step : RowStep) → Decidable (step.Trackable runtime)
  | .insert _ _ => inferInstanceAs (Decidable (_ ∨ _ ∨ _ ∨ ∀ data ∈ _, _))
  | .updateTracked _ _ _ => inferInstanceAs (Decidable (_ ∨ _ ∨ ∀ data ∈ _, ∀ row ∈ _, _))
  | .update _ _ _ | .delete _ _ | .deleteSet _ _ | .rewrite _ _ => isTrue trivial

/-- The invariant: well-formed resident rows in a consistent state of tracking. -/
def Tracked (persisted : List StoredRow) (tableName : String) (runtime : EngineRuntime) : Prop :=
  ∃ data, runtime.tables[tableName]? = some data ∧ data.WellFormed
    ∧ TracksRows persisted runtime tableName data.visibleRows

/-- A table stays tracked while another one changes. -/
theorem Tracked.of_untouched (tracked : Tracked persisted tableName runtime)
    (untouched : Untouched tableName runtime changed)
    : Tracked persisted tableName changed := by
  obtain ⟨data, resident, wellFormed, tracks⟩ := tracked
  refine ⟨data, untouched.tables.trans resident, wellFormed, ?_⟩
  unfold TracksRows at tracks ⊢
  rw [untouched.pagedMutations, untouched.dirtyTables]
  exact tracks

/-- A table in which a step takes place: its rows were written and are still to be marked.
-/
structure Written (persisted : List StoredRow) (tableName : String)
    (before : List StoredRow) (data : TableData) (written : EngineRuntime) : Prop where
  resident : written.tables[tableName]? = some data
  wellFormed : data.WellFormed
  resolves : ResolvesToCatalog written tableName
  tracks : TracksRows persisted written tableName before

/-- Writing the rows of a catalog table leaves its tracking as it was. -/
theorem Written.setTableData (wellFormed : data.WellFormed)
    (permanent : runtime.visibleTableIsTemporary tableName = false)
    (tracks : TracksRows persisted runtime tableName before)
    : Written persisted tableName before data (runtime.setTableData tableName data) := by
  have written : runtime.setTableData tableName data
    = { runtime with tables := runtime.tables.insert tableName data } := by
    simp [EngineRuntime.setTableData, permanent]
  rw [written]
  exact {
    resident := by simp
    wellFormed := wellFormed
    resolves := ⟨permanent, by simp [EngineRuntime.canonicalCatalogTableName]⟩
    tracks := tracks
  }

/-- A mark touches only the tracking, so the written rows stay. -/
theorem Written.marked {written marked : EngineRuntime}
    (state : Written persisted tableName before data written)
    (sameTables : marked.tables = written.tables)
    (tracks : TracksRows persisted marked tableName data.visibleRows)
    : Tracked persisted tableName marked :=
  ⟨data, by rw [sameTables, state.resident], state.wellFormed, tracks⟩

namespace EngineRuntime

variable (runtime) (tableName)

/-- Replacing rows marks nothing by itself. -/
@[simp]
theorem setTableData_dirtyTables (data : TableData)
    : (runtime.setTableData tableName data).dirtyTables = runtime.dirtyTables := by
  unfold setTableData
  split <;> rfl

/-- Replacing rows records nothing by itself. -/
@[simp]
theorem setTableData_pagedMutations (data : TableData)
    : (runtime.setTableData tableName data).pagedMutations = runtime.pagedMutations := by
  unfold setTableData
  split <;> rfl

/-- Tracking leaves the rows alone. -/
@[simp]
theorem trackRows_tables (change : PagedMutationDelta → PagedMutationDelta)
    : (runtime.trackRows tableName change).tables = runtime.tables := by
  unfold trackRows
  repeat' split
  all_goals rfl

/-- Marking a table leaves its rows alone. -/
@[simp]
theorem markTableDirty_tables : (runtime.markTableDirty tableName).tables = runtime.tables := by
  unfold markTableDirty
  repeat' split
  all_goals rfl

/-- Marking deleted rows leaves the rows alone. -/
@[simp]
theorem markTableRowsDeleted_tables (rowIds : ExtTreeSet Int64)
    : (runtime.markTableRowsDeleted tableName rowIds).tables = runtime.tables := by
  unfold markTableRowsDeleted
  split
  · rfl
  · exact trackRows_tables _ _ _

/-- Marking an appended row leaves the rows alone. -/
@[simp]
theorem markTableRowAppended_tables
    : (runtime.markTableRowAppended tableName).tables = runtime.tables := by
  unfold markTableRowAppended
  repeat' split
  all_goals rfl

/-- Taking an update back leaves the rows alone. -/
@[simp]
theorem cancelUpdate_tables (rowId : Int64)
    : (runtime.cancelUpdate tableName rowId).tables = runtime.tables := by
  unfold cancelUpdate
  split
  · rfl
  · dsimp only
    split <;> rfl

/-- Marking a changed row leaves the rows alone. -/
@[simp]
theorem markTableRowDirtyWithOriginalValues_tables
    (rowId : Int64) (originalValues values : List Value)
    : (runtime.markTableRowDirtyWithOriginalValues tableName rowId originalValues
      values).tables = runtime.tables := by
  unfold markTableRowDirtyWithOriginalValues
  repeat' split
  all_goals first | rfl | exact cancelUpdate_tables _ _ _

end EngineRuntime

/-- The rows that a step on the table itself reads are the tracked ones. -/
theorem Tracked.here (tracked : Tracked persisted tableName runtime)
    (permanent : runtime.visibleTableIsTemporary tableName = false)
    (known : runtime.tableData tableName = some data)
    : data.WellFormed ∧ TracksRows persisted runtime tableName data.visibleRows := by
  obtain ⟨tracked, resident, wellFormed, tracks⟩ := tracked
  have same : tracked = data := by simpa [tableData, permanent, resident] using known
  exact same ▸ ⟨wellFormed, tracks⟩

section

variable (tracked : Tracked persisted tableName runtime)
  {mark : EngineRuntime → EngineRuntime} (frame : ∀ {written : EngineRuntime},
    other ≠ tableName ∨ written.visibleTableIsTemporary other
    → Untouched tableName written (mark written))
include tracked frame

/-- Writing and marking another table, or a temporary one, keeps the invariant here. -/
theorem Tracked.write_elsewhere
    (elsewhere : other ≠ tableName ∨ runtime.visibleTableIsTemporary other) (data : TableData)
    : Tracked persisted tableName (mark (runtime.setTableData other data)) := by
  refine tracked.of_untouched ((Untouched.setTableData elsewhere data).trans (frame ?_))
  rcases elsewhere with different | temporary
  · exact .inl different
  right
  have shadowed : other ∈ runtime.tempTables := by
    simpa [EngineRuntime.visibleTableIsTemporary] using temporary
  simp [EngineRuntime.setTableData, EngineRuntime.visibleTableIsTemporary, shadowed]

/-- What a step writes and marks keeps the invariant of every table, if it does so on the
table itself.
-/
theorem Tracked.write (known : runtime.tableData other = some data)
    (sameTables : ∀ written, (mark written).tables = written.tables)
    (wellFormed : data.WellFormed → updated.WellFormed)
    (marks : data.WellFormed → runtime.visibleTableIsTemporary other = false
      → Written persisted other data.visibleRows updated (runtime.setTableData other updated)
      → TracksRows persisted (mark (runtime.setTableData other updated)) other
        updated.visibleRows)
    : Tracked persisted tableName (mark (runtime.setTableData other updated)) := by
  by_cases elsewhere : other ≠ tableName ∨ runtime.visibleTableIsTemporary other
  · exact tracked.write_elsewhere frame elsewhere updated
  simp only [ne_eq, not_or, not_not, Bool.not_eq_true] at elsewhere
  obtain ⟨rfl, permanent⟩ := elsewhere
  obtain ⟨kept, tracks⟩ := tracked.here permanent known
  have written := Written.setTableData (wellFormed kept) permanent tracks
  exact written.marked (sameTables _) (marks kept permanent written)

end

/-- A replacement finds the slot of the row and returns its old values. -/
theorem RowStep.replaceRow_eq_some : replaceRow data rowId values = some (original, updated)
      ↔ ∃ index row, data.rowIndexById rowId = some index ∧ data.rows[index]? = some row
        ∧ data.replaceRowValues index values = some updated ∧ original = row.values := by
  simp only [replaceRow, Option.bind_eq_bind, Option.bind_eq_some_iff, Option.pure_def,
    Option.some.injEq, Prod.mk.injEq]
  constructor
  · rintro ⟨index, found, row, slot, _, replaced, rfl, rfl⟩
    exact ⟨index, row, found, slot, replaced, rfl⟩
  · rintro ⟨index, row, found, slot, replaced, rfl⟩
    exact ⟨index, found, row, slot, updated, replaced, rfl, rfl⟩

section

variable (tracked : Tracked persisted tableName runtime)
include tracked

/-- Inserting a visible row appends it, unless a hidden slot is reused while the delta
records deletes; then both kinds of change are in the delta and it owes nothing.
-/
theorem Tracked.insert (trackable : (insert other row).Trackable runtime)
    (taken : (insert other row).next runtime = some following)
    : Tracked persisted tableName following := by
  simp only [RowStep.next, bind_eq_bind, bind_eq_some_iff] at taken
  obtain ⟨data, known, taken⟩ := taken
  split at taken
  · cases taken
  rename_i absent
  cases taken
  have missing : data.rowIndexById row.rowId = none := by simpa using absent
  refine tracked.write markTableRowAppended known (by simp)
    (·.pushRow (rowIndexById_none missing)) fun wellFormed permanent written => ?_
  refine written.tracks.markTableRowAppended written.resolves ?_
  simp only [WhollyDirty, setTableData_dirtyTables, setTableData_pagedMutations]
  rintro notWhollyDirty delta rfl accounts pure
  have noDeletes := pure.resolve_left (Nat.succ_ne_zero _)
  rcases trackable with temporary | whollyDirty | deletes | live
  · simp [permanent] at temporary
  · exact absurd whollyDirty notWhollyDirty
  · rw [noDeletes] at deletes
    cases deletes
  · rw [visibleRows_pushRow (live data known)]
    exact (accounts (.inr noDeletes)).append row

/-- An update marks the row that it changes. -/
theorem Tracked.update (taken : (update other rowId values).next runtime = some following)
    : Tracked persisted tableName following := by
  simp only [RowStep.next, bind_eq_bind, bind_eq_some_iff, Option.pure_def, some.injEq] at taken
  obtain ⟨data, known, ⟨original, updated⟩, replacedRow, rfl⟩ := taken
  obtain ⟨index, row, found, slot, replaced, -⟩ := replaceRow_eq_some.mp replacedRow
  refine tracked.write (trackRows · _) known
    (fun _ => trackRows_tables _ _ _) (·.replaceRowValues replaced)
    fun wellFormed _ written => written.tracks.trackRows written.resolves ?_
  intro delta accounts pure
  rw [visibleRows_replaceRowValues wellFormed found replaced]
  exact (accounts pure).update rowId values

end

/-- Two visible rows of one id are the same row. -/
theorem TableData.WellFormed.eq_of_rowId (wellFormed : data.WellFormed)
    (one : first ∈ data.visibleRows) (two : second ∈ data.visibleRows)
    (same : first.rowId = second.rowId)
    : first = second :=
  inj_on_of_nodup_map wellFormed.unique (mem_visibleRows.mp one).1 (mem_visibleRows.mp two).1 same

/-- The row that a tracked update reads is the only visible row of its id. -/
theorem TableData.WellFormed.values_eq (wellFormed : data.WellFormed) {index : Nat}
    (found : data.rowIndexById rowId = some index) (slot : data.rows[index]? = some row)
    : ∀ visible ∈ data.visibleRows, visible.rowId = rowId → visible.values = row.values := by
  obtain ⟨live, holder, slot', rfl⟩ := rowIndexById_sound found
  obtain rfl : holder = row := some.inj (slot'.symm.trans slot)
  intro visible member same
  have held : holder ∈ data.visibleRows := mem_visibleRows.mpr ⟨mem_of_getElem? slot, live⟩
  rw [wellFormed.eq_of_rowId member held same]

section

variable (tracked : Tracked persisted tableName runtime)
include tracked

/-- An update with recorded originals is tracked where its condition holds. -/
theorem Tracked.updateTracked (trackable : (updateTracked other rowId values).Trackable runtime)
    (taken : (updateTracked other rowId values).next runtime = some following)
    : Tracked persisted tableName following := by
  simp only [RowStep.next, bind_eq_bind, bind_eq_some_iff, Option.pure_def, some.injEq] at taken
  obtain ⟨data, known, ⟨original, updated⟩, replacedRow, rfl⟩ := taken
  obtain ⟨index, row, found, slot, replaced, rfl⟩ := replaceRow_eq_some.mp replacedRow
  refine tracked.write (markTableRowDirtyWithOriginalValues · _ _ _) known (by simp)
    (·.replaceRowValues replaced) fun wellFormed permanent written => ?_
  rw [visibleRows_replaceRowValues wellFormed found replaced]
  refine written.tracks.markTableRowDirtyWithOriginalValues written.resolves
    (wellFormed.values_eq found slot) ?_
  simp only [EngineRuntime.WhollyDirty, setTableData_dirtyTables, setTableData_pagedMutations]
  intro notWhollyDirty
  rcases trackable with temporary | whollyDirty | recorded
  · simp [permanent] at temporary
  · exact absurd whollyDirty notWhollyDirty
  · exact recorded data known row (by simp [rowById, found, slot])

/-- A delete marks the row that it hides. -/
theorem Tracked.delete (taken : (delete other rowId).next runtime = some following)
    : Tracked persisted tableName following := by
  simp only [RowStep.next, bind_eq_bind, bind_eq_some_iff] at taken
  obtain ⟨data, known, taken⟩ := taken
  split at taken <;> cases taken
  refine tracked.write (trackRows · _) known
    (fun _ => trackRows_tables _ _ _) (·.markRowDeleted rowId)
    fun _ _ written => written.tracks.trackRows written.resolves ?_
  intro delta accounts
  change Accounts persisted _ (data.markRowDeleted rowId).visibleRows
  rw [visibleRows_markRowDeleted]
  exact accounts.delete (· = rowId) (fun id => by grind) ⟨rowId, rfl⟩

/-- A delete of several rows marks all of them. -/
theorem Tracked.deleteSet {rowIds : ExtTreeSet Int64}
    (taken : (deleteSet other rowIds).next runtime = some following)
    : Tracked persisted tableName following := by
  simp only [RowStep.next, bind_eq_bind, bind_eq_some_iff, Option.pure_def, some.injEq] at taken
  obtain ⟨data, known, rfl⟩ := taken
  refine tracked.write (Untouched.markTableRowsDeleted · _) known (by simp)
    (·.markExistingRowSetDeleted rowIds) fun _ _ written => ?_
  rw [TableData.visibleRows_markExistingRowSetDeleted]
  unfold EngineRuntime.markTableRowsDeleted
  split
  · rename_i none
    rw [ExtTreeSet.isEmpty_iff] at none
    simpa [none] using written.tracks
  rename_i some
  obtain ⟨rowId, member⟩ : ∃ rowId, rowId ∈ rowIds := by
    by_contra none
    refine some (ExtTreeSet.isEmpty_iff.mpr ?_)
    exact ExtTreeSet.eq_empty_iff_forall_not_mem.mpr fun id member => none ⟨id, member⟩
  refine written.tracks.trackRows written.resolves fun delta accounts => ?_
  refine accounts.delete (· ∈ rowIds) (fun id => ?_) ⟨rowId, member⟩
  split <;> simp_all

/-- A rewritten table is dirty as a whole. -/
theorem Tracked.rewrite {rows : { data : TableData // data.WellFormed }}
    (taken : (rewrite other rows).next runtime = some following)
    : Tracked persisted tableName following := by
  simp only [RowStep.next, bind_eq_bind, bind_eq_some_iff, Option.pure_def, some.injEq] at taken
  obtain ⟨data, known, rfl⟩ := taken
  exact tracked.write markTableDirty known (by simp) (fun _ => rows.property)
    fun _ _ written => .markTableDirty written.resolves

/-- One step keeps the invariant if it meets the step condition. -/
theorem Tracked.step {step : RowStep} (trackable : step.Trackable runtime)
    (taken : step.next runtime = some following)
    : Tracked persisted tableName following := by
  cases step with
  | insert other row => exact tracked.insert trackable taken
  | update other rowId values => exact tracked.update taken
  | updateTracked other rowId values => exact tracked.updateTracked trackable taken
  | delete other rowId => exact tracked.delete taken
  | deleteSet other rowIds => exact tracked.deleteSet taken
  | rewrite other rows => exact tracked.rewrite taken

/-- The invariant implies the reading that persistence relies on. -/
theorem Tracked.sound : ∃ data, TrackingSound persisted runtime tableName data := by
  obtain ⟨data, resident, wellFormed, tracks⟩ := tracked
  have described : ∀ delta, runtime.pagedMutations[tableName]? = some delta
    → Accounts persisted delta data.visibleRows := by
    intro delta found
    rw [TracksRows, found] at tracks
    exact tracks.2
  refine ⟨data, resident, ?_, ?_, ?_, ?_⟩
  · intro clean
    unfold TracksRows at tracks
    split at tracks
    · exact tracks clean
    · exact absurd tracks.1 clean
  · rintro delta found ⟨appends, deletes, -⟩
    obtain ⟨kept, added, visible, count, known⟩ := described delta found (.inl appends)
    obtain rfl : added = [] := eq_nil_of_length_eq_zero (count.trans appends)
    rw [append_nil] at visible
    simp only [deletes, ExtTreeSet.not_mem_empty, not_false_eq_true, decide_true,
      filter_true] at known
    refine ⟨?_, ?_⟩
    · rw [visible]
      exact (known.map_eq fun old row tracked => tracked.sameId.symm).symm
    intro old persistedRow row member same different
    obtain ⟨partner, paired, tracked⟩ := known.exists_of_mem persistedRow
    have one : row = partner := wellFormed.eq_of_rowId member (visible ▸ paired)
      (same.trans tracked.sameId.symm)
    by_contra absent
    exact different (one ▸ tracked.untouched (same ▸ absent))
  · rintro delta found ⟨appends, -, updates⟩
    obtain ⟨added, visible, count⟩ := (described delta found (.inl appends)).of_noUpdates updates
    rw [visible, eq_nil_of_length_eq_zero (count.trans appends), append_nil]
  · rintro delta found ⟨-, deletes, updates⟩
    obtain ⟨added, visible, count⟩ := (described delta found (.inr deletes)).of_noUpdates updates
    exact ⟨added, by simpa [deletes] using visible, count⟩

end

/-- A table with no recorded change, as after a load or a persist. -/
structure StartsClean (runtime : EngineRuntime) (tableName : String) (data : TableData)
    : Prop where
  resident : runtime.tables[tableName]? = some data
  wellFormed : data.WellFormed
  notDirty : tableName ∉ runtime.dirtyTables
  noDelta : runtime.pagedMutations[tableName]? = none

/-- From a table whose resident rows are the persisted ones, every run whose steps meet
the step condition leaves a sound record of what changed.
-/
theorem mutationTracking_sound {start final : EngineRuntime} {tableName : String}
    {data : TableData} (steps : List RowStep) (clean : StartsClean start tableName data)
    (trackable : mutationSystem.Meets (fun runtime step => step.Trackable runtime) start steps)
    (ran : mutationSystem.run start steps = some final)
    : ∃ current, TrackingSound data.visibleRows final tableName current := by
  have initial : Tracked data.visibleRows tableName start := by
    refine ⟨data, clean.resident, clean.wellFormed, ?_⟩
    rw [TracksRows, clean.noDelta]
    exact fun _ => rfl
  have reached := mutationSystem.run_preserves _
    (fun _ _ _ tracked trackable taken => Tracked.step tracked trackable taken)
    initial trackable ran
  exact reached.sound

/-- A clean table of one row with the single value 1. -/
def moviesRuntime : EngineRuntime :=
  {
    tables := (∅ : ExtTreeMap String TableData).insert "movies" (.fromRows [⟨1, [.int64 1]⟩])
    tempTables := ∅
    dirtyTables := ∅
    pagedMutations := ∅
  }

/-- The table of the example starts with nothing to track. -/
theorem moviesRuntime_startsClean
    : StartsClean moviesRuntime "movies" (.fromRows [⟨1, [.int64 1]⟩]) :=
  ⟨rfl, ⟨by decide⟩, by decide, rfl⟩

/-- A tracked update and its revert: the first step records the row's original, so the
second may cancel the update.
-/
theorem mutationTracking_sound_of_revert : ∃ final, mutationSystem.run moviesRuntime
      [.updateTracked "movies" 1 [.int64 6], .updateTracked "movies" 1 [.int64 1]] = some final
      ∧ ∃ current, TrackingSound [⟨1, [.int64 1]⟩] final "movies" current :=
  ⟨_, rfl, mutationTracking_sound
    [.updateTracked "movies" 1 [.int64 6], .updateTracked "movies" 1 [.int64 1]]
    moviesRuntime_startsClean (by decide) rfl⟩

/-- An update recorded without its original, then a tracked update and its revert: the
values in between count as the original, and the dirty flag is cleared.
-/
theorem mutationTracking_unsound_after_untracked_update
    : StartsClean moviesRuntime "movies" (.fromRows [⟨1, [.int64 1]⟩])
      ∧ ∃ final, mutationSystem.run moviesRuntime
        [.update "movies" 1 [.int64 5], .updateTracked "movies" 1 [.int64 6],
          .updateTracked "movies" 1 [.int64 5]] = some final
        ∧ ¬∃ current, TrackingSound [⟨1, [.int64 1]⟩] final "movies" current := by
  refine ⟨moviesRuntime_startsClean, _, rfl, ?_⟩
  rintro ⟨current, sound⟩
  have visible : current.visibleRows = [⟨1, [.int64 5]⟩] := by
    cases sound.resident
    decide
  have persisted := sound.clean (by decide)
  rw [visible] at persisted
  exact absurd persisted (by decide)

end DecentDb
