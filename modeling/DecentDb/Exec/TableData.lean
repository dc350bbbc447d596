import Mathlib.Data.List.Nodup
import DecentDb.Record.Value

/-! Resident table rows: physical slots in insertion order, a set of tombstoned row ids,
and the operations that the executor applies to them.
-/

namespace DecentDb

open List

/-- Resident rows of one table. A tombstoned row id hides its slot without removing it. -/
structure TableData where
  rows : List StoredRow
  tombstonedRowIds : Std.ExtTreeSet Int64
  rowsSortedById : Bool

variable {data updated : TableData} {row first second other : StoredRow} {rowId : Int64}
  {index fuel low high left right : Nat} {rows : List StoredRow} {values : List Value}

namespace TableData

/-- Adjacent row ids never decrease, the check that `from_rows` makes over windows of two. -/
def rowIdsAscend : List StoredRow → Bool
  | first :: second :: rest => first.rowId ≤ second.rowId && rowIdsAscend (second :: rest)
  | _ => true

def fromRows (rows : List StoredRow) : TableData :=
  { rows, tombstonedRowIds := ∅, rowsSortedById := rowIdsAscend rows }

section

variable (data : TableData)

section

variable (rowId : Int64)

def isRowTombstoned : Bool :=
  rowId ∈ data.tombstonedRowIds

def hasTombstonedRows : Bool := !data.tombstonedRowIds.isEmpty

def visibleRows : List StoredRow :=
  data.rows.filter fun row => !data.hasTombstonedRows || !data.isRowTombstoned row.rowId

/-- Bisection of the slots between `low` and `high`; `fuel` bounds the halvings. -/
def binarySearchById (rows : List StoredRow) (rowId : Int64) : Nat → Nat → Nat → Option Nat
  | 0, _, _ => none
  | fuel + 1, low, high =>
    if low < high then
      let middle := (low + high) / 2
      match rows[middle]? with
      | none => none
      | some row =>
        if row.rowId = rowId then some middle
        else if row.rowId < rowId then binarySearchById rows rowId fuel (middle + 1) high
        else binarySearchById rows rowId fuel low middle
    else none

/-- The slot `row_id - 1`, where tables filled with consecutive ids keep the row. -/
def denseIndex : Option Nat :=
  if 1 ≤ rowId.toInt then some (rowId.toInt - 1).toNat else none

def rowIndexById : Option Nat :=
  if data.hasTombstonedRows && data.isRowTombstoned rowId then none
  else
    match (denseIndex rowId).filter
      (fun index => (data.rows[index]?).any (fun row => row.rowId = rowId)) with
    | some index => some index
    | none =>
      match if data.rowsSortedById then
        binarySearchById data.rows rowId (data.rows.length + 1) 0 data.rows.length
        else none with
      | some index => some index
      | none => data.rows.findIdx? (fun row => row.rowId = rowId)

def rowById : Option StoredRow :=
  (data.rowIndexById rowId).bind (fun index => data.rows[index]?)

def pushFreshRow (row : StoredRow) : TableData :=
  { data with
    rows := data.rows ++ [row]
    rowsSortedById :=
      data.rowsSortedById && !(data.rows.getLast?.any fun previous => row.rowId < previous.rowId)
  }

/-- Inserting a tombstoned row id clears the tombstone and reuses the hidden slot. -/
def pushRow (row : StoredRow) : TableData :=
  if data.isRowTombstoned row.rowId then
    let revived := { data with tombstonedRowIds := data.tombstonedRowIds.erase row.rowId }
    match data.rows.findIdx? (fun candidate => candidate.rowId = row.rowId) with
    | some index => { revived with rows := data.rows.set index row }
    | none => revived.pushFreshRow row
  else data.pushFreshRow row

def markRowDeleted : TableData :=
  match data.rowIndexById rowId with
  | some _ => { data with tombstonedRowIds := data.tombstonedRowIds.insert rowId }
  | none => data

end

def markRowsDeleted (rowIds : List Int64) : TableData :=
  rowIds.foldl markRowDeleted data

/-- Callers pass ids of existing rows; nothing here checks that they do. -/
def markExistingRowSetDeleted (rowIds : Std.ExtTreeSet Int64) : TableData :=
  { data with tombstonedRowIds := data.tombstonedRowIds.insertMany rowIds.toList }

def replaceRowValues (rowIndex : Nat) (values : List Value) : Option TableData :=
  match data.rows[rowIndex]? with
  | none => none
  | some row =>
    if data.isRowTombstoned row.rowId then none
    else some { data with rows := data.rows.set rowIndex { row with values } }

end

-- Lookups find exactly the visible rows

/-- No two slots, hidden ones included, share a row id. -/
structure WellFormed (data : TableData) : Prop where
  unique : (data.rows.map StoredRow.rowId).Nodup

/-- The shortcut for an empty tombstone set does not change which rows are visible. -/
theorem visibleRows_eq (data : TableData)
    : data.visibleRows = data.rows.filter (fun row => row.rowId ∉ data.tombstonedRowIds) := by
  unfold visibleRows hasTombstonedRows isRowTombstoned
  apply filter_congr
  intro row _
  by_cases hidden : row.rowId ∈ data.tombstonedRowIds
  · have nonempty : data.tombstonedRowIds.isEmpty = false := by
      rw [← Bool.not_eq_true, Std.ExtTreeSet.isEmpty_iff]
      rintro empty
      simp [empty] at hidden
    simp [nonempty]
  · simp [hidden]

/-- A row is visible if it has a slot and no tombstone. -/
theorem mem_visibleRows
    : row ∈ data.visibleRows ↔ row ∈ data.rows ∧ row.rowId ∉ data.tombstonedRowIds := by
  simp [visibleRows_eq]

/-- A tombstoned row id is never looked up, whether or not the set is empty. -/
theorem hasTombstonedRows_and_isRowTombstoned (data : TableData) (rowId : Int64)
    : (data.hasTombstonedRows && data.isRowTombstoned rowId) = data.isRowTombstoned rowId := by
  unfold hasTombstonedRows isRowTombstoned
  by_cases hidden : rowId ∈ data.tombstonedRowIds
  · have nonempty : data.tombstonedRowIds ≠ ∅ := by
      rintro empty
      simp [empty] at hidden
    simp [nonempty]
  · simp [hidden]

/-- Whatever bisection returns is a slot with the wanted id, by induction on the fuel. -/
theorem binarySearchById_sound (found : binarySearchById rows rowId fuel low high = some index)
    : ∃ row, rows[index]? = some row ∧ row.rowId = rowId := by
  induction fuel generalizing low high with
  | zero => simp [binarySearchById] at found
  | succ fuel ih =>
    unfold binarySearchById at found
    split at found
    · dsimp only at found
      split at found
      · cases found
      rename_i row slot
      split at found
      · rename_i same
        cases found
        exact ⟨row, slot, same⟩
      · split at found
        · exact ih found
        · exact ih found
    · cases found

/-- A found index is a slot that holds the row id and is not tombstoned. -/
theorem rowIndexById_sound (found : data.rowIndexById rowId = some index)
    : rowId ∉ data.tombstonedRowIds ∧ ∃ row, data.rows[index]? = some row ∧ row.rowId = rowId := by
  unfold rowIndexById at found
  rw [hasTombstonedRows_and_isRowTombstoned] at found
  split at found
  · cases found
  rename_i live
  refine ⟨by simpa [isRowTombstoned] using live, ?_⟩
  split at found
  · rename_i dense
    cases found
    obtain ⟨-, holds⟩ := Option.filter_eq_some_iff.mp dense
    simpa [Option.any_eq_true] using holds
  split at found
  · rename_i bisected
    cases found
    split at bisected
    · exact binarySearchById_sound bisected
    · cases bisected
  · obtain ⟨bound, holds, -⟩ := findIdx?_eq_some_iff_getElem.mp found
    exact ⟨data.rows[index], getElem?_eq_getElem bound, by simpa using holds⟩

/-- A row id without an index is not visible: the final linear scan misses nothing. -/
theorem rowIndexById_none (missing : data.rowIndexById rowId = none)
    : ∀ row ∈ data.visibleRows, row.rowId ≠ rowId := by
  intro row visible same
  obtain ⟨slot, live⟩ := mem_visibleRows.mp visible
  unfold rowIndexById at missing
  rw [hasTombstonedRows_and_isRowTombstoned, if_neg (by simpa [isRowTombstoned, ← same] using live)]
    at missing
  split at missing
  · cases missing
  split at missing
  · cases missing
  · have absent := findIdx?_eq_none_iff.mp missing row slot
    simp [same] at absent

-- What each operation does to the visible rows

/-- Pushing a row id that is not tombstoned adds the row at the end. -/
theorem visibleRows_pushRow (live : row.rowId ∉ data.tombstonedRowIds)
    : (data.pushRow row).visibleRows = data.visibleRows ++ [row] := by
  simp [pushRow, isRowTombstoned, live, pushFreshRow, visibleRows_eq]

/-- The row with this id takes new values; every other row is kept. -/
def setValues (rowId : Int64) (values : List Value) (row : StoredRow) : StoredRow :=
  if row.rowId = rowId then { row with values } else row

/-- New values do not change a row id. -/
@[simp]
theorem setValues_rowId (rowId : Int64) (values : List Value) (row : StoredRow)
    : (setValues rowId values row).rowId = row.rowId := by
  unfold setValues
  split <;> rfl

/-- Overwriting the one slot that holds an id is a map over all slots, by induction on the
slots.
-/
theorem set_eq_map_setValues (values : List Value) (unique : (rows.map StoredRow.rowId).Nodup)
    (slot : rows[index]? = some row)
    : rows.set index { row with values } = rows.map (setValues row.rowId values) := by
  induction rows generalizing index with
  | nil => simp at slot
  | cons head rest ih =>
    simp only [map_cons, nodup_cons] at unique
    cases index with
    | zero =>
      have same : head = row := by simpa using slot
      subst same
      have others : rest.map (setValues head.rowId values) = rest := by
        conv_rhs => rw [← map_id rest]
        apply map_congr_left
        intro other member
        have different : other.rowId ≠ head.rowId := fun same =>
          unique.1 (same ▸ mem_map_of_mem member)
        simp [setValues, different]
      simp [setValues, others]
    | succ index =>
      have member : row ∈ rest := mem_of_getElem? (by simpa using slot)
      have different : head.rowId ≠ row.rowId := fun same => unique.1 (same ▸ mem_map_of_mem member)
      simp [ih unique.2 (by simpa using slot), setValues, different]

/-- Replacing values at a found index changes just that row. -/
theorem visibleRows_replaceRowValues (wellFormed : data.WellFormed)
    (found : data.rowIndexById rowId = some index)
    (replaced : data.replaceRowValues index values = some updated)
    : updated.visibleRows = data.visibleRows.map (setValues rowId values) := by
  obtain ⟨live, row, slot, rfl⟩ := rowIndexById_sound found
  simp only [replaceRowValues, slot, isRowTombstoned, live, decide_false, Bool.false_eq_true,
    if_false, Option.some.injEq] at replaced
  subst replaced
  simp only [visibleRows_eq, set_eq_map_setValues values wellFormed.unique slot, filter_map]
  congr 1
  apply filter_congr
  intro other _
  simp

/-- A deleted row is no longer visible; the others are. -/
theorem visibleRows_markRowDeleted (data : TableData) (rowId : Int64)
    : (data.markRowDeleted rowId).visibleRows
      = data.visibleRows.filter (fun row => row.rowId ≠ rowId) := by
  unfold markRowDeleted
  cases found : data.rowIndexById rowId with
  | none =>
    symm
    apply filter_eq_self.mpr
    intro row visible
    simpa using rowIndexById_none found row visible
  | some index =>
    simp only [visibleRows_eq, filter_filter]
    apply filter_congr
    intro row _
    by_cases same : row.rowId = rowId
    · simp [same]
    · simp [same, Ne.symm same]

/-- The rows of a deleted set are no longer visible; the others are. -/
theorem visibleRows_markExistingRowSetDeleted (data : TableData) (rowIds : Std.ExtTreeSet Int64)
    : (data.markExistingRowSetDeleted rowIds).visibleRows
      = data.visibleRows.filter (fun row => row.rowId ∉ rowIds) := by
  simp only [visibleRows_eq, filter_filter, markExistingRowSetDeleted]
  apply filter_congr
  intro row _
  simp [and_comm]

/-- A reused slot keeps its row id. -/
theorem map_rowId_set
    (slot : data.rows.findIdx? (fun candidate => candidate.rowId = row.rowId) = some index)
    : (data.rows.set index row).map StoredRow.rowId = data.rows.map StoredRow.rowId := by
  obtain ⟨bound, holds, -⟩ := findIdx?_eq_some_iff_getElem.mp slot
  have same : data.rows[index].rowId = row.rowId := by simpa using holds
  rw [map_set, ← same, ← map_set, set_getElem_self]

section

variable (wellFormed : data.WellFormed)
include wellFormed

/-- Slot ids stay unique when the pushed id is not visible: it either reuses its hidden
slot or is new.
-/
theorem WellFormed.pushRow (absent : ∀ other ∈ data.visibleRows, other.rowId ≠ row.rowId)
    : (data.pushRow row).WellFormed := by
  have fresh (new : row.rowId ∉ data.rows.map StoredRow.rowId)
    : ((data.rows ++ [row]).map StoredRow.rowId).Nodup := by
    simp only [map_append, map_cons, map_nil]
    exact nodup_append.mpr ⟨wellFormed.unique, by simp, by
      rintro id member _ (⟨⟩ | ⟨_, ⟨⟩⟩) rfl
      exact new member⟩
  constructor
  unfold TableData.pushRow
  split
  · cases slot : data.rows.findIdx? (fun candidate => candidate.rowId = row.rowId) with
    | some index => simpa only [map_rowId_set slot] using wellFormed.unique
    | none =>
      apply fresh
      rintro member
      obtain ⟨other, slot', same⟩ := mem_map.mp member
      simpa [same] using findIdx?_eq_none_iff.mp slot other slot'
  rename_i live
  apply fresh
  rintro member
  obtain ⟨other, slot, same⟩ := mem_map.mp member
  refine absent other (mem_visibleRows.mpr ⟨slot, ?_⟩) same
  simpa [isRowTombstoned, same] using live

/-- New values do not change the slots' ids. -/
theorem WellFormed.replaceRowValues (replaced : data.replaceRowValues index values = some updated)
    : updated.WellFormed := by
  unfold TableData.replaceRowValues at replaced
  split at replaced
  · cases replaced
  rename_i row slot
  split at replaced <;> cases replaced
  · constructor
    simpa only [set_eq_map_setValues values wellFormed.unique slot, map_map,
      Function.comp_def, setValues_rowId] using wellFormed.unique

/-- Deleting only adds tombstones, so the slots are the same. -/
theorem WellFormed.markRowDeleted (rowId : Int64) : (data.markRowDeleted rowId).WellFormed := by
  unfold TableData.markRowDeleted
  split
  · exact ⟨wellFormed.unique⟩
  · exact wellFormed

/-- Tombstones do not change the slots. -/
theorem WellFormed.markExistingRowSetDeleted (rowIds : Std.ExtTreeSet Int64)
    : (data.markExistingRowSetDeleted rowIds).WellFormed :=
  ⟨wellFormed.unique⟩

end

end TableData

end DecentDb
