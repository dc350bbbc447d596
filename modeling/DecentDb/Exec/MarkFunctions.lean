import DecentDb.Exec.DeltaDescription

/-! The mark functions keep the state of tracking of the table they are called for, and
leave every other table alone.
-/

namespace DecentDb

open Std (ExtTreeMap ExtTreeSet)

variable {persisted before after : List StoredRow} {runtime first second third : EngineRuntime}
  {tableName other : String} {rowId : Int64}

-- The mark functions keep the description

/-- The state of tracking for one table: clean, described by a delta, or wholly dirty. -/
def TracksRows (persisted : List StoredRow) (runtime : EngineRuntime) (tableName : String)
    (visible : List StoredRow) : Prop :=
  match runtime.pagedMutations[tableName]? with
  | none => tableName ∉ runtime.dirtyTables → visible = persisted
  | some delta => tableName ∈ runtime.dirtyTables ∧ Accounts persisted delta visible

/-- The table is a catalog table that no temporary table shadows. -/
structure ResolvesToCatalog (runtime : EngineRuntime) (tableName : String) : Prop where
  permanent : runtime.visibleTableIsTemporary tableName = false
  canonical : runtime.canonicalCatalogTableName tableName = some tableName

/-- A clean table is described by the empty delta, and a tracked one by its delta. -/
theorem TracksRows.accounts (tracks : TracksRows persisted runtime tableName before)
    (notWhollyDirty : ¬runtime.WhollyDirty tableName)
    : Accounts persisted (runtime.pagedMutations.getD tableName .empty) before := by
  unfold TracksRows at tracks
  cases found : runtime.pagedMutations[tableName]? with
  | none =>
    have absent : tableName ∉ runtime.pagedMutations := by simpa using found
    have clean : tableName ∉ runtime.dirtyTables := fun dirty => notWhollyDirty ⟨dirty, absent⟩
    rw [found] at tracks
    obtain rfl := tracks clean
    intro _
    simpa [ExtTreeMap.getD_eq_getD_getElem?, found] using Described.empty before
  | some delta =>
    rw [found] at tracks
    simpa [ExtTreeMap.getD_eq_getD_getElem?, found] using tracks.2

/-- A wholly dirty table owes nothing. -/
theorem TracksRows.of_whollyDirty (whollyDirty : runtime.WhollyDirty tableName)
    : TracksRows persisted runtime tableName after := by
  unfold TracksRows
  rw [ExtTreeMap.getElem?_eq_none whollyDirty.2]
  exact fun clean => absurd whollyDirty.1 clean

/-- The row marks keep the tracking state if they account for the change in the current
delta; in a wholly dirty table they do nothing and nothing is owed.
-/
theorem TracksRows.trackRows (tracks : TracksRows persisted runtime tableName before)
    (resolves : ResolvesToCatalog runtime tableName)
    {change : PagedMutationDelta → PagedMutationDelta}
    (accounts : ∀ delta, Accounts persisted delta before → Accounts persisted (change delta) after)
    : TracksRows persisted (runtime.trackRows tableName change) tableName after := by
  simp only [EngineRuntime.trackRows, resolves.permanent, resolves.canonical]
  split
  · rename_i impossible
    cases impossible
  split
  · rename_i whollyDirty
    exact .of_whollyDirty whollyDirty
  · rename_i notWhollyDirty
    simp only [TracksRows, ExtTreeMap.getElem?_insert_self]
    exact ⟨by simp, accounts _ (tracks.accounts notWhollyDirty)⟩

/-- A table that is dirty as a whole tracks any rows. -/
theorem TracksRows.markTableDirty (resolves : ResolvesToCatalog runtime tableName)
    : TracksRows persisted (runtime.markTableDirty tableName) tableName after := by
  simp only [EngineRuntime.markTableDirty, resolves.permanent, resolves.canonical]
  exact .of_whollyDirty ⟨by simp, by simp⟩

/-- An append is recorded in the current delta or in a new one. -/
theorem TracksRows.markTableRowAppended (tracks : TracksRows persisted runtime tableName before)
    (resolves : ResolvesToCatalog runtime tableName) (accounts : ¬runtime.WhollyDirty tableName
      → ∀ delta, delta = runtime.pagedMutations.getD tableName .empty
      → Accounts persisted delta before
      → Accounts persisted { delta with appendCount := delta.appendCount + 1 } after)
    : TracksRows persisted (runtime.markTableRowAppended tableName) tableName after := by
  simp only [EngineRuntime.markTableRowAppended, resolves.permanent, Bool.false_eq_true, if_false]
  cases found : runtime.pagedMutations[tableName]? with
  | some delta =>
    have present : tableName ∈ runtime.pagedMutations := by
      simp [ExtTreeMap.mem_iff_isSome_getElem?, found]
    have current : runtime.pagedMutations.getD tableName .empty = delta := by
      simp [ExtTreeMap.getD_eq_getD_getElem?, found]
    have notWhollyDirty : ¬runtime.WhollyDirty tableName := fun whollyDirty => whollyDirty.2 present
    have described := tracks.accounts notWhollyDirty
    unfold TracksRows at tracks
    rw [found] at tracks
    simp only [TracksRows, ExtTreeMap.getElem?_insert_self]
    rw [current] at described
    exact ⟨tracks.1, accounts notWhollyDirty delta current.symm described⟩
  | none =>
    have absent : tableName ∉ runtime.pagedMutations := by simpa using found
    dsimp only
    split
    · rename_i dirty
      exact .of_whollyDirty ⟨dirty, absent⟩
    rename_i clean
    have notWhollyDirty : ¬runtime.WhollyDirty tableName := fun whollyDirty => clean whollyDirty.1
    have current : runtime.pagedMutations.getD tableName .empty = .empty := by
      simp [ExtTreeMap.getD_eq_getD_getElem?, found]
    have described := tracks.accounts notWhollyDirty
    rw [current] at described
    simp only [resolves.canonical, TracksRows, ExtTreeMap.getElem?_insert_self]
    exact ⟨by simp, accounts notWhollyDirty .empty current.symm described⟩

/-- The lookup of a recorded original does not depend on whether a delta exists. -/
theorem restoresOriginal_eq (runtime : EngineRuntime) (tableName : String) (rowId : Int64)
    (values : List Value)
    : runtime.restoresOriginal tableName rowId values
      = ((runtime.pagedMutations.getD tableName .empty).originalRows[rowId]?).any
        (fun original => valuesEq original values) := by
  unfold EngineRuntime.restoresOriginal
  rw [ExtTreeMap.getD_eq_getD_getElem?]
  cases runtime.pagedMutations[tableName]? with
  | none => simp [PagedMutationDelta.empty]
  | some delta => simp

section

variable (tracks : TracksRows persisted runtime tableName before)
include tracks

/-- Cancelling an update of a row that is back at its persisted values, whether or not it
empties the delta.
-/
theorem TracksRows.cancelUpdate
    (notWhollyDirty : ¬runtime.WhollyDirty tableName) {values : List Value}
    (restored : ∀ old row, old.rowId = rowId → row ∈ before
      → RowTracked (runtime.pagedMutations.getD tableName .empty) old row → values = old.values)
    : TracksRows persisted (runtime.cancelUpdate tableName rowId) tableName
      (before.map (TableData.setValues rowId values)) := by
  have accounts := tracks.accounts notWhollyDirty
  unfold EngineRuntime.cancelUpdate
  cases found : runtime.pagedMutations[tableName]? with
  | none =>
    have current : runtime.pagedMutations.getD tableName .empty = .empty := by
      simp [ExtTreeMap.getD_eq_getD_getElem?, found]
    have clean : tableName ∉ runtime.dirtyTables := fun dirty =>
      notWhollyDirty ⟨dirty, by simpa using found⟩
    rw [current] at accounts restored
    have cancelled := (accounts (.inl rfl)).cancel restored
    simp only [TracksRows, found]
    exact fun _ => cancelled.eq_of_nothing rfl rfl (by simp [PagedMutationDelta.empty])
  | some delta =>
    have current : runtime.pagedMutations.getD tableName .empty = delta := by
      simp [ExtTreeMap.getD_eq_getD_getElem?, found]
    rw [current] at accounts restored
    have dirty : tableName ∈ runtime.dirtyTables := by
      unfold TracksRows at tracks
      rw [found] at tracks
      exact tracks.1
    dsimp only
    split
    · rename_i nothing
      simp only [Bool.and_eq_true, ExtTreeMap.isEmpty_iff, ExtTreeSet.isEmpty_iff,
        decide_eq_true_eq] at nothing
      have cancelled := (accounts (.inl nothing.2)).cancel restored
      simp only [TracksRows, ExtTreeMap.getElem?_erase_self]
      exact fun _ => cancelled.eq_of_nothing nothing.2 nothing.1.2 nothing.1.1
    · simp only [TracksRows, ExtTreeMap.getElem?_insert_self]
      exact ⟨dirty, fun pure => (accounts pure).cancel restored⟩

/-- A changed row is tracked if its original values are recorded with it. -/
theorem TracksRows.markTableRowDirtyWithOriginalValues
    (resolves : ResolvesToCatalog runtime tableName) {current values : List Value}
    (currentValues : ∀ row ∈ before, row.rowId = rowId → row.values = current)
    (condition : ¬runtime.WhollyDirty tableName
      → OriginalRecorded (runtime.pagedMutations.getD tableName .empty) rowId current values)
    : TracksRows persisted
      (runtime.markTableRowDirtyWithOriginalValues tableName rowId current values)
      tableName (before.map (TableData.setValues rowId values)) := by
  simp only [EngineRuntime.markTableRowDirtyWithOriginalValues, resolves.permanent,
    resolves.canonical, Bool.false_eq_true, if_false]
  split
  · rename_i whollyDirty
    exact .of_whollyDirty whollyDirty
  rename_i notWhollyDirty
  specialize condition notWhollyDirty
  split
  · rename_i cancels
    refine tracks.cancelUpdate notWhollyDirty fun old row same member known => ?_
    refine condition.values_eq ?_ same known (currentValues row member (known.sameId.trans same))
    simpa only [Bool.or_eq_true, restoresOriginal_eq] using cancels
  · simp only [TracksRows, ExtTreeMap.getElem?_insert_self]
    exact ⟨by simp, fun pure => (tracks.accounts notWhollyDirty pure).updateTracked
      currentValues condition.recorded⟩

end

-- Steps on other tables change nothing here

/-- The table's rows and its tracking are the same in both runtimes. -/
structure Untouched (tableName : String) (runtime changed : EngineRuntime) : Prop where
  tables : changed.tables[tableName]? = runtime.tables[tableName]?
  dirtyTables : tableName ∈ changed.dirtyTables ↔ tableName ∈ runtime.dirtyTables
  pagedMutations : changed.pagedMutations[tableName]? = runtime.pagedMutations[tableName]?

namespace Untouched

/-- Nothing is touched by doing nothing. -/
theorem refl (tableName : String) (runtime : EngineRuntime) : Untouched tableName runtime runtime :=
  ⟨rfl, .rfl, rfl⟩

/-- Two changes that do not touch a table do not touch it together. -/
theorem trans (left : Untouched tableName first second) (right : Untouched tableName second third)
    : Untouched tableName first third :=
  ⟨right.tables.trans left.tables, right.dirtyTables.trans left.dirtyTables,
    right.pagedMutations.trans left.pagedMutations⟩

section

variable (elsewhere : other ≠ tableName ∨ runtime.visibleTableIsTemporary other)
include elsewhere

/-- A mark that acts only on a resolved catalog table leaves every other table alone, and
every table alone if its name is a temporary one.
-/
theorem of_resolved {mark : String → EngineRuntime}
    (marked : other ≠ tableName → Untouched tableName runtime (mark other))
    : Untouched tableName runtime (if runtime.visibleTableIsTemporary other then runtime
      else match runtime.canonicalCatalogTableName other with
        | none => runtime
        | some name => mark name) := by
  unfold EngineRuntime.canonicalCatalogTableName
  split
  · exact refl tableName runtime
  next permanent =>
    by_cases known : other ∈ runtime.tables
    · simpa [known] using marked (elsewhere.resolve_right permanent)
    · simpa [known] using refl tableName runtime

/-- Tracking rows touches their own table only. -/
theorem trackRows (change : PagedMutationDelta → PagedMutationDelta)
    : Untouched tableName runtime (runtime.trackRows other change) := by
  refine of_resolved elsewhere fun different => ?_
  split
  · exact refl tableName runtime
  · exact ⟨rfl, by simp [different], by simp [ExtTreeMap.getElem?_insert, different]⟩

/-- Marking a table touches that table only. -/
theorem markTableDirty : Untouched tableName runtime (runtime.markTableDirty other) :=
  of_resolved elsewhere fun different =>
    ⟨rfl, by simp [different], by simp [ExtTreeMap.getElem?_erase, different]⟩

/-- Marking deleted rows touches their table only. -/
theorem markTableRowsDeleted (rowIds : ExtTreeSet Int64)
    : Untouched tableName runtime (runtime.markTableRowsDeleted other rowIds) := by
  unfold EngineRuntime.markTableRowsDeleted
  split
  · exact refl tableName runtime
  · exact trackRows elsewhere _

/-- Marking an appended row touches its table only. -/
theorem markTableRowAppended
    : Untouched tableName runtime (runtime.markTableRowAppended other) := by
  unfold EngineRuntime.markTableRowAppended EngineRuntime.canonicalCatalogTableName
  rcases elsewhere with different | temporary
  · split
    · exact refl tableName runtime
    split
    · exact ⟨rfl, .rfl, by simp [ExtTreeMap.getElem?_insert, different]⟩
    split
    · exact refl tableName runtime
    split
    · exact refl tableName runtime
    · rename_i resolved
      split at resolved <;> cases resolved
      exact ⟨rfl, by simp [different], by simp [ExtTreeMap.getElem?_insert, different]⟩
  · simpa only [temporary, if_true] using refl tableName runtime

end

/-- Taking an update back touches its table only. -/
theorem cancelUpdate (different : other ≠ tableName) (rowId : Int64)
    : Untouched tableName runtime (runtime.cancelUpdate other rowId) := by
  unfold EngineRuntime.cancelUpdate
  split
  · exact refl tableName runtime
  dsimp only
  split
  · exact ⟨rfl, by simp [different], by simp [ExtTreeMap.getElem?_erase, different]⟩
  · exact ⟨rfl, .rfl, by simp [ExtTreeMap.getElem?_insert, different]⟩

section

variable (elsewhere : other ≠ tableName ∨ runtime.visibleTableIsTemporary other)
include elsewhere

/-- Marking a changed row touches its table only. -/
theorem markTableRowDirtyWithOriginalValues (rowId : Int64) (originalValues values : List Value)
    : Untouched tableName runtime
      (runtime.markTableRowDirtyWithOriginalValues other rowId originalValues values) := by
  refine of_resolved elsewhere fun different => ?_
  split
  · exact refl tableName runtime
  split
  · exact cancelUpdate different rowId
  · exact ⟨rfl, by simp [different], by simp [ExtTreeMap.getElem?_insert, different]⟩

/-- Replacing the rows of a table touches that table only. -/
theorem setTableData (data : TableData)
    : Untouched tableName runtime (runtime.setTableData other data) := by
  unfold EngineRuntime.setTableData
  split
  · exact ⟨rfl, .rfl, rfl⟩
  · rename_i permanent
    have different := elsewhere.resolve_right permanent
    exact ⟨by simp [ExtTreeMap.getElem?_insert, different], .rfl, rfl⟩

end

end Untouched

end DecentDb
