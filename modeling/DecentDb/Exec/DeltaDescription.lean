import DecentDb.Library.Lists
import DecentDb.Exec.MutationTracking

/-! How a `PagedMutationDelta` describes the visible rows in terms of the persisted ones,
and what each kind of recorded change does to that description.
-/

namespace DecentDb

open List TableData
open Std (ExtTreeMap ExtTreeSet)

-- A delta describes the visible rows

/-- What a delta knows about a persisted row and the resident row of the same id. -/
structure RowTracked (delta : PagedMutationDelta) (old row : StoredRow) : Prop where
  sameId : row.rowId = old.rowId
  untouched : old.rowId ∉ delta.updatedRows → row.values = old.values
  original : ∀ values, delta.originalRows[old.rowId]? = some values → values = old.values

/-- The visible rows are the persisted ones that were not deleted, as far as they were not
updated, followed by the appended ones.
-/
def Described (persisted : List StoredRow) (delta : PagedMutationDelta)
    (visible : List StoredRow) : Prop :=
  ∃ kept added, visible = kept ++ added ∧ added.length = delta.appendCount
    ∧ List.Forall₂ (RowTracked delta)
      (persisted.filter (fun row => row.rowId ∉ delta.deletedRows)) kept

/-- The empty delta describes unchanged rows. -/
theorem Described.empty (persisted : List StoredRow) : Described persisted .empty persisted := by
  refine ⟨persisted, [], by simp, rfl, ?_⟩
  simp only [PagedMutationDelta.empty, Std.ExtTreeSet.not_mem_empty, not_false_eq_true,
    decide_true, filter_true]
  exact forall₂_same.mpr fun row _ => ⟨rfl, fun _ => rfl, by simp⟩

variable {persisted visible : List StoredRow} {delta changed : PagedMutationDelta} {rowId : Int64}
  {values current : List Value} {deleted : ExtTreeSet Int64}

/-- An appended row extends the added part. -/
theorem Described.append (described : Described persisted delta visible) (row : StoredRow)
    : Described persisted { delta with appendCount := delta.appendCount + 1 }
      (visible ++ [row]) := by
  obtain ⟨kept, added, rfl, count, tracked⟩ := described
  refine ⟨kept, added ++ [row], by simp, by simp [count], ?_⟩
  exact tracked.imp fun _ _ known => { known with }

section

variable (described : Described persisted delta visible)
include described

/-- Changing one row's values changes the kept and the added part alike, so only the facts
about that row have to be re-established.
-/
theorem Described.setValues (appendCount : changed.appendCount = delta.appendCount)
    (deletedRows : changed.deletedRows = delta.deletedRows)
    (others : ∀ old row, old.rowId ≠ rowId → RowTracked delta old row → RowTracked changed old row)
    (target : ∀ old row, old.rowId = rowId → row ∈ visible → RowTracked delta old row
      → RowTracked changed old { row with values })
    : Described persisted changed (visible.map (setValues rowId values)) := by
  obtain ⟨kept, added, rfl, count, tracked⟩ := described
  refine ⟨kept.map (setValues rowId values),
    added.map (setValues rowId values), by simp, by simp [count, appendCount], ?_⟩
  rw [deletedRows, forall₂_map_right_iff]
  refine tracked.imp_mem fun old _ row member known => ?_
  by_cases same : old.rowId = rowId
  · have targeted : row.rowId = rowId := known.sameId.trans same
    simpa only [setValues, targeted, if_true]
      using target old row same (mem_append_left _ member) known
  · have other : row.rowId ≠ rowId := fun equal => same (known.sameId.symm.trans equal)
    simpa only [setValues, other, if_false] using others old row same known

/-- The generic update: the new values and the row id enter `updated_rows`. -/
theorem Described.update (rowId : Int64) (values : List Value)
    : Described persisted { delta with updatedRows := delta.updatedRows.insert rowId values }
      (visible.map (TableData.setValues rowId values)) := by
  refine described.setValues rfl rfl ?_ ?_
  · intro old row different known
    exact ⟨known.sameId, fun absent => known.untouched (by simp_all), known.original⟩
  · intro old row same _ known
    exact ⟨known.sameId, fun absent => absurd (by simp [same]) absent, known.original⟩

/-- A tracked update whose row had its original recorded, or had not been updated. -/
theorem Described.updateTracked
    (currentValues : ∀ row ∈ visible, row.rowId = rowId → row.values = current)
    (recorded : rowId ∈ delta.updatedRows → rowId ∈ delta.originalRows)
    : Described persisted
      { delta with
        originalRows := delta.originalRows.insertIfNew rowId current
        updatedRows := delta.updatedRows.insert rowId values }
      (visible.map (TableData.setValues rowId values)) := by
  refine described.setValues rfl rfl ?_ ?_
  · intro old row different known
    refine ⟨known.sameId, fun absent => known.untouched (by simp_all), ?_⟩
    intro original found
    rw [ExtTreeMap.getElem?_insertIfNew] at found
    exact known.original original (by simpa [Ne.symm different] using found)
  rintro old row rfl member known
  refine ⟨known.sameId, fun absent => absurd (by simp) absent, ?_⟩
  intro original found
  rw [ExtTreeMap.getElem?_insertIfNew] at found
  by_cases had : old.rowId ∈ delta.originalRows
  · exact known.original original (by simpa [had] using found)
  · have first : current = original := by simpa [had] using found
    rw [← first, ← currentValues row member known.sameId]
    exact known.untouched fun updated => had (recorded updated)

/-- A row that is back at its persisted values may leave the delta. -/
theorem Described.cancel
    (restored : ∀ old row, old.rowId = rowId → row ∈ visible → RowTracked delta old row
      → values = old.values)
    : Described persisted
      { delta with
        updatedRows := delta.updatedRows.erase rowId
        originalRows := delta.originalRows.erase rowId }
      (visible.map (TableData.setValues rowId values)) := by
  refine described.setValues rfl rfl ?_ ?_
  · intro old row different known
    refine ⟨known.sameId, fun absent => known.untouched (by simp_all [Ne.symm different]), ?_⟩
    intro original found
    rw [ExtTreeMap.getElem?_erase] at found
    exact known.original original (by simpa [Ne.symm different] using found)
  intro old row same member known
  refine ⟨known.sameId, fun _ => restored old row same member known, ?_⟩
  intro original found
  simp [same] at found

/-- Deleting rows of a table without appended rows filters the kept part. -/
theorem Described.delete (noAppends : delta.appendCount = 0) (gone : Int64 → Prop)
    [DecidablePred gone] (union : ∀ rowId, rowId ∈ deleted ↔ rowId ∈ delta.deletedRows ∨ gone rowId)
    : Described persisted { delta with deletedRows := deleted }
      (visible.filter (fun row => ¬gone row.rowId)) := by
  obtain ⟨kept, added, rfl, count, tracked⟩ := described
  obtain rfl : added = [] := eq_nil_of_length_eq_zero (count.trans noAppends)
  refine ⟨kept.filter (fun row => ¬gone row.rowId), [], by simp, by simp [noAppends], ?_⟩
  have filtered := tracked.filter (fun row => ¬gone row.rowId)
    (fun row => ¬gone row.rowId) (fun old row known => by rw [known.sameId])
  have remaining : persisted.filter (fun row => row.rowId ∉ deleted)
    = (persisted.filter (fun row => row.rowId ∉ delta.deletedRows)).filter
      (fun row => ¬gone row.rowId) := by
    rw [filter_filter]
    apply filter_congr
    intro row _
    by_cases deletedNow : gone row.rowId <;> simp [union, deletedNow]
  rw [remaining]
  exact filtered.imp fun _ _ known => { known with }

/-- Without updates the kept rows are the persisted ones themselves. -/
theorem Described.of_noUpdates (updates : delta.updatedRows = ∅)
    : ∃ added, visible = persisted.filter (fun row => row.rowId ∉ delta.deletedRows) ++ added
      ∧ added.length = delta.appendCount := by
  obtain ⟨kept, added, rfl, count, tracked⟩ := described
  refine ⟨added, ?_, count⟩
  have same := tracked.map_eq (f := id) (g := id) fun old row known => by
    have values := known.untouched (by simp [updates])
    obtain ⟨oldId, oldValues⟩ := old
    obtain ⟨rowId, rowValues⟩ := row
    exact congrArg₂ StoredRow.mk known.sameId.symm values.symm
  rw [map_id, map_id] at same
  rw [same]

/-- A delta that records nothing means that the rows are the persisted ones. -/
theorem Described.eq_of_nothing (appends : delta.appendCount = 0) (deletes : delta.deletedRows = ∅)
    (updates : delta.updatedRows = ∅)
    : visible = persisted := by
  obtain ⟨added, rfl, count⟩ := described.of_noUpdates updates
  obtain rfl : added = [] := eq_nil_of_length_eq_zero (count.trans appends)
  simp [deletes]

end

-- Which deltas owe a description

/-- A delta with both appends and deletes is persisted by rewriting the table, so it owes
no description.
-/
def Accounts (persisted : List StoredRow) (delta : PagedMutationDelta)
    (visible : List StoredRow) : Prop :=
  delta.appendCount = 0 ∨ delta.deletedRows = ∅ → Described persisted delta visible

/-- Recording deletes of some rows: if the delta has appends too, nothing is owed. -/
theorem Accounts.delete (accounts : Accounts persisted delta visible) (gone : Int64 → Prop)
    [DecidablePred gone] (union : ∀ rowId, rowId ∈ deleted ↔ rowId ∈ delta.deletedRows ∨ gone rowId)
    (nonempty : ∃ rowId, gone rowId)
    : Accounts persisted { delta with deletedRows := deleted }
      (visible.filter (fun row => ¬gone row.rowId)) := by
  rintro (noAppends | (empty : deleted = ∅))
  · exact (accounts (.inl noAppends)).delete noAppends gone union
  · obtain ⟨rowId, deletedNow⟩ := nonempty
    have recorded := (union rowId).mpr (.inr deletedNow)
    exact absurd recorded (empty ▸ ExtTreeSet.not_mem_empty)

-- When a tracked update may be cancelled

/-- When the mark with original values may be called for a row: an update of the row that
is already tracked has its original recorded, a call that leaves the values unchanged is
for a row at its original, and `==` identifies no distinct values in the comparison (it
does identify the two floating-point zeros).
-/
structure OriginalRecorded (delta : PagedMutationDelta) (rowId : Int64)
    (current values : List Value) : Prop where
  recorded : rowId ∈ delta.updatedRows → rowId ∈ delta.originalRows
  unchanged : valuesEq values current → values = current
  restored : ∀ original ∈ delta.originalRows[rowId]?,
    valuesEq original values ∨ valuesEq values current → original = values

instance (delta : PagedMutationDelta) (rowId : Int64) (current values : List Value)
    : Decidable (OriginalRecorded delta rowId current values) :=
  decidable_of_iff
    ((rowId ∈ delta.updatedRows → rowId ∈ delta.originalRows)
      ∧ (valuesEq values current → values = current)
      ∧ ∀ original ∈ delta.originalRows[rowId]?,
        valuesEq original values ∨ valuesEq values current → original = values)
    ⟨fun ⟨recorded, unchanged, restored⟩ => ⟨recorded, unchanged, restored⟩,
      fun ⟨recorded, unchanged, restored⟩ => ⟨recorded, unchanged, restored⟩⟩

/-- Under that condition a cancelled update really is back at the persisted values. -/
theorem OriginalRecorded.values_eq (condition : OriginalRecorded delta rowId current values)
    (cancels : (delta.originalRows[rowId]?).any (fun original => valuesEq original values)
      ∨ valuesEq values current) {old row : StoredRow} (same : old.rowId = rowId)
    (known : RowTracked delta old row) (currentValues : row.values = current)
    : values = old.values := by
  subst same
  cases found : delta.originalRows[old.rowId]? with
  | some original =>
    rw [← known.original original found]
    refine (condition.restored original found ?_).symm
    simpa [found] using cancels
  | none =>
    have unrecorded : old.rowId ∉ delta.originalRows := by simpa using found
    have untouched := known.untouched fun updated => unrecorded (condition.recorded updated)
    have equal : valuesEq values current := by simpa [found] using cancels
    rw [condition.unchanged equal, ← currentValues, untouched]

end DecentDb
