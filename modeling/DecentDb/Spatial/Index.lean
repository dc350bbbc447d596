import Mathlib.Data.Int.ConditionallyCompleteOrder
import Mathlib.Data.List.Dedup
import Mathlib.Data.List.Sort
import Mathlib.Data.Rat.Floor
import Mathlib.Tactic.GCongr

/-! The spatial index of a column. A row is filed under the grid cells of its envelope unless
they are too many, and a query looks at the rows of its own cells unless they are too many.
Coordinates are rationals.
-/

namespace DecentDb.Spatial

open Function List

-- Envelopes

inductive SpatialError where
  | invalidInput (message : String)
  deriving DecidableEq, Repr

structure SpatialEnvelope where
  minX : ℚ
  minY : ℚ
  maxX : ℚ
  maxY : ℚ
  deriving DecidableEq, Repr

namespace SpatialEnvelope

variable (envelope : SpatialEnvelope)

def extend (position : ℚ × ℚ) : SpatialEnvelope where
  minX := min envelope.minX position.1
  minY := min envelope.minY position.2
  maxX := max envelope.maxX position.1
  maxY := max envelope.maxY position.2

/-- The envelope of a value, which is given by its positions. -/
def fromValue : List (ℚ × ℚ) → Except SpatialError SpatialEnvelope
  | [] => .error (.invalidInput "spatial value has no coordinates")
  | first :: positions => .ok (positions.foldl extend ⟨first.1, first.2, first.1, first.2⟩)

def Intersects (envelope other : SpatialEnvelope) : Prop :=
  envelope.minX ≤ other.maxX ∧ other.minX ≤ envelope.maxX
    ∧ envelope.minY ≤ other.maxY ∧ other.minY ≤ envelope.maxY

instance (envelope other : SpatialEnvelope) : Decidable (envelope.Intersects other) :=
  inferInstanceAs (Decidable (_ ∧ _))

def Ordered : Prop :=
  envelope.minX ≤ envelope.maxX ∧ envelope.minY ≤ envelope.maxY

variable {envelope : SpatialEnvelope}

/-- By induction on the positions; each one keeps the lower below the upper ends. -/
theorem ordered_foldl (positions : List (ℚ × ℚ))
    (ordered : envelope.Ordered) : (positions.foldl extend envelope).Ordered := by
  induction positions generalizing envelope with
  | nil => exact ordered
  | cons position rest ih =>
    exact ih ⟨(min_le_left _ _).trans (ordered.1.trans (le_max_left _ _)),
      (min_le_left _ _).trans (ordered.2.trans (le_max_left _ _))⟩

/-- The lower bounds of an envelope are at most the upper ones. -/
theorem ordered_of_fromValue {positions : List (ℚ × ℚ)}
    (made : fromValue positions = .ok envelope) : envelope.Ordered := by
  cases positions with
  | nil => cases made
  | cons first rest =>
    cases made
    exact ordered_foldl rest ⟨le_rfl, le_rfl⟩

end SpatialEnvelope

-- Cells

inductive SpatialIndexBackend where
  | geographyS2
  | geometryQuadCell
  deriving DecidableEq, Repr

inductive SpatialCell where
  | s2 (id : Nat)
  | quad (id : Nat)
  deriving DecidableEq, Repr

def geographyLevel : Nat := 8

def geometryCellSize : ℚ := 1

def maxCoveringCells : Nat := 4096

def clamp {Value : Type} [LinearOrder Value] (low high value : Value) : Value :=
  max low (min high value)

/-- Clamping keeps the order. -/
theorem clamp_le_clamp {Value : Type} [LinearOrder Value] (low high : Value) {value other : Value}
    (le : value ≤ other) : clamp low high value ≤ clamp low high other :=
  max_le_max le_rfl (min_le_min le_rfl le)

def geographyCell (limit coordinate : ℚ) : Int :=
  clamp 0 (2 ^ geographyLevel - 1)
    ⌊(clamp (-limit) limit coordinate + limit) / (2 * limit) * 2 ^ geographyLevel⌋

def geographyXCell : ℚ → Int := geographyCell 180

def geographyYCell : ℚ → Int := geographyCell 90

/-- The conversion to `i64` saturates. -/
def geometryCellCoord (value : ℚ) : Int :=
  clamp (-2 ^ 63) (2 ^ 63 - 1) ⌊value / geometryCellSize⌋

/-- The cells of a coordinate follow its order. -/
theorem monotone_geographyCell {limit : ℚ} (nonneg : 0 ≤ limit) : Monotone (geographyCell limit) := by
  intro value other le
  refine clamp_le_clamp _ _ (Int.floor_le_floor ?_)
  have clamped := clamp_le_clamp (-limit) limit le
  gcongr

/-- The cells of a plane coordinate follow its order. -/
theorem monotone_geometryCellCoord : Monotone geometryCellCoord := by
  intro value other le
  refine clamp_le_clamp _ _ (Int.floor_le_floor ?_)
  rw [geometryCellSize, div_one, div_one]
  exact le

def mortonInterleave (x y : Nat) : Nat :=
  (range 32).foldl (fun result i =>
    result ||| (x >>> i &&& 1) <<< (2 * i) ||| (y >>> i &&& 1) <<< (2 * i + 1)) 0

def packSignedCell (x y : Int) : Nat :=
  let asU32 (value : Int) : Nat := (clamp (-2 ^ 31) (2 ^ 31 - 1) value % 2 ^ 32).toNat
  asU32 x <<< 32 ||| asU32 y

/-- How a backend finds cells: by two monotone mappings, with machine integers from `low`
to `high` for their number.
-/
structure CellGrid where
  xCell : ℚ → Int
  yCell : ℚ → Int
  monotone_xCell : Monotone xCell
  monotone_yCell : Monotone yCell
  low : Int
  high : Int
  pack : Int → Int → SpatialCell

def SpatialIndexBackend.grid : SpatialIndexBackend → CellGrid
  | .geographyS2 => {
    xCell := geographyXCell
    yCell := geographyYCell
    monotone_xCell := monotone_geographyCell (by norm_num)
    monotone_yCell := monotone_geographyCell (by norm_num)
    low := 0
    high := 2 ^ 64 - 1
    pack := fun x y => .s2 (mortonInterleave x.toNat y.toNat)
    }
  | .geometryQuadCell => {
    xCell := geometryCellCoord
    yCell := geometryCellCoord
    monotone_xCell := monotone_geometryCellCoord
    monotone_yCell := monotone_geometryCellCoord
    low := -2 ^ 63
    high := 2 ^ 63 - 1
    pack := fun x y => .quad (packSignedCell x y)
    }

def rangeInclusive (first last : Int) : List Int :=
  (range (last + 1 - first).toNat).map fun offset : Nat => first + offset

/-- Both ends belong to the range. -/
theorem mem_rangeInclusive {first last value : Int}
    : value ∈ rangeInclusive first last ↔ first ≤ value ∧ value ≤ last := by
  simp only [rangeInclusive, mem_map, mem_range]
  constructor
  · rintro ⟨offset, inside, rfl⟩
    omega
  · rintro ⟨above, below⟩
    exact ⟨(value - first).toNat, by omega, by omega⟩

namespace CellGrid

variable (grid : CellGrid)

def checked (value : Int) : Option Int :=
  if grid.low ≤ value ∧ value ≤ grid.high then some value else none

def cellCount (minX maxX minY maxY : Int) : Option Nat := do
  let width ← grid.checked ((← grid.checked (maxX - minX)) + 1)
  let height ← grid.checked ((← grid.checked (maxY - minY)) + 1)
  let count ← grid.checked (width * height)
  if 0 ≤ count then some count.toNat else none

def cells (envelope : SpatialEnvelope) : List SpatialCell :=
  (rangeInclusive (grid.xCell envelope.minX) (grid.xCell envelope.maxX)).flatMap fun x =>
    (rangeInclusive (grid.yCell envelope.minY) (grid.yCell envelope.maxY)).map fun y =>
      grid.pack x y

def coveringCells (envelope : SpatialEnvelope) : Option (List SpatialCell) := do
  let count ← grid.cellCount (grid.xCell envelope.minX) (grid.xCell envelope.maxX)
    (grid.yCell envelope.minY) (grid.yCell envelope.maxY)
  if maxCoveringCells < count then none else some (grid.cells envelope)

variable {grid} {envelope other : SpatialEnvelope} {cells : List SpatialCell}

/-- A cover that is not too large is the whole rectangle of cells. -/
theorem eq_cells_of_coveringCells (covered : grid.coveringCells envelope = some cells)
    : cells = grid.cells envelope := by
  obtain ⟨count, _, covered⟩ := Option.bind_eq_some_iff.mp covered
  split at covered <;> cases covered
  rfl

/-- Overlapping ranges share a cell if both ranges have one. -/
theorem exists_shared {cell : ℚ → Int} (monotone : Monotone cell)
    {low high otherLow otherHigh : ℚ} (below : low ≤ otherHigh) (above : otherLow ≤ high)
    (ordered : cell low ≤ cell high) (otherOrdered : cell otherLow ≤ cell otherHigh)
    : ∃ shared, shared ∈ rangeInclusive (cell low) (cell high)
      ∧ shared ∈ rangeInclusive (cell otherLow) (cell otherHigh) := by
  refine ⟨max (cell low) (cell otherLow), mem_rangeInclusive.mpr ?_, mem_rangeInclusive.mpr ?_⟩
  · exact ⟨le_max_left _ _, max_le ordered (monotone above)⟩
  · exact ⟨le_max_right _ _, max_le (monotone below) otherOrdered⟩

/-- Envelopes that intersect have a cell in common. -/
theorem exists_shared_cell (ordered : envelope.Ordered) (intersects : envelope.Intersects other)
    (nonempty : grid.cells other ≠ [])
    : ∃ cell ∈ grid.cells other, cell ∈ grid.cells envelope := by
  obtain ⟨cell, member⟩ := exists_mem_of_ne_nil _ nonempty
  obtain ⟨x, xMember, member⟩ := mem_flatMap.mp member
  obtain ⟨y, yMember, _⟩ := mem_map.mp member
  obtain ⟨xAbove, xBelow⟩ := mem_rangeInclusive.mp xMember
  obtain ⟨yAbove, yBelow⟩ := mem_rangeInclusive.mp yMember
  obtain ⟨sharedX, xOwn, xOther⟩ := exists_shared grid.monotone_xCell intersects.1 intersects.2.1
    (grid.monotone_xCell ordered.1) (xAbove.trans xBelow)
  obtain ⟨sharedY, yOwn, yOther⟩ := exists_shared grid.monotone_yCell intersects.2.2.1
    intersects.2.2.2 (grid.monotone_yCell ordered.2) (yAbove.trans yBelow)
  exact ⟨grid.pack sharedX sharedY, mem_flatMap.mpr ⟨sharedX, xOther, mem_map_of_mem yOther⟩,
    mem_flatMap.mpr ⟨sharedX, xOwn, mem_map_of_mem yOwn⟩⟩

end CellGrid

-- The index

/-- The envelopes of the stored values by row id, and the row ids by cell. -/
structure SpatialRuntimeIndex where
  backend : SpatialIndexBackend
  entries : Int → Option SpatialEnvelope
  cells : SpatialCell → List Int
  allRowIds : List Int

namespace SpatialRuntimeIndex

def new (backend : SpatialIndexBackend) : SpatialRuntimeIndex where
  backend
  entries := fun _ => none
  cells := fun _ => []
  allRowIds := []

variable (index : SpatialRuntimeIndex) (rowId : Int)

def remove : SpatialRuntimeIndex × Option SpatialEnvelope :=
  match index.entries rowId with
  | none => (index, none)
  | some entry => ({ index with
      entries := update index.entries rowId none
      cells := fun cell => (index.cells cell).filter (· ≠ rowId)
      allRowIds := index.allRowIds.filter (· ≠ rowId) }, some entry)

def fileUnder (cells : SpatialCell → List Int) (cell : SpatialCell)
    : SpatialCell → List Int :=
  if rowId ∈ cells cell then cells else update cells cell (cells cell ++ [rowId])

/-- A row whose value has no coordinates is removed all the same. -/
def insert (value : List (ℚ × ℚ)) : SpatialRuntimeIndex × Except SpatialError Unit :=
  let removed := (index.remove rowId).1
  match SpatialEnvelope.fromValue value with
  | .error error => (removed, .error error)
  | .ok envelope => ({ removed with
      entries := update removed.entries rowId (some envelope)
      cells := ((removed.backend.grid.coveringCells envelope).getD []).foldl (fileUnder rowId)
        removed.cells
      allRowIds := ((removed.allRowIds ++ [rowId]).insertionSort (· ≤ ·)).dedup }, .ok ())

def candidateRowIds (envelope : SpatialEnvelope) : List Int :=
  let rowIds := match index.backend.grid.coveringCells envelope with
    | none => index.allRowIds
    | some cells => ((cells.flatMap index.cells).insertionSort (· ≤ ·)).dedup
  rowIds.filter fun rowId => (index.entries rowId).any fun entry => entry.Intersects envelope

-- What the lists hold

/-- All rows are listed, and the rows of a cell are those whose covering has it. -/
structure Filed (index : SpatialRuntimeIndex) : Prop where
  listed : ∀ rowId, rowId ∈ index.allRowIds ↔ index.entries rowId ≠ none
  filed : ∀ cell rowId, rowId ∈ index.cells cell ↔ ∃ entry, index.entries rowId = some entry
    ∧ cell ∈ (index.backend.grid.coveringCells entry).getD []
  ordered : ∀ rowId entry, index.entries rowId = some entry → entry.Ordered

variable {index}

/-- A removed row is filed nowhere, and the others stay filed. -/
theorem Filed.remove (filed : index.Filed) (rowId : Int)
    : (index.remove rowId).1.Filed ∧ (index.remove rowId).1.entries rowId = none := by
  unfold SpatialRuntimeIndex.remove
  split
  next absent => exact ⟨filed, absent⟩
  refine ⟨⟨fun other => ?_, fun cell other => ?_, fun other => ?_⟩, update_self ..⟩
  all_goals by_cases same : other = rowId
  all_goals simp [same, filed.listed, filed.filed]
  exact filed.ordered other

/-- By induction on the cells. -/
theorem mem_foldl_fileUnder {rowId other : Int} {cell : SpatialCell} (covering : List SpatialCell)
    (cells : SpatialCell → List Int)
    : other ∈ covering.foldl (fileUnder rowId) cells cell
      ↔ other ∈ cells cell ∨ other = rowId ∧ cell ∈ covering := by
  induction covering generalizing cells with
  | nil => simp
  | cons first rest ih =>
    rw [foldl_cons, ih, fileUnder]
    by_cases same : cell = first
    · subst same
      split <;> grind [update_self]
    · split <;> grind [update_of_ne]

/-- An inserted row is filed under its cells. -/
theorem Filed.insert (filed : index.Filed) (rowId : Int) (value : List (ℚ × ℚ))
    : (index.insert rowId value).1.Filed := by
  obtain ⟨removed, absent⟩ := filed.remove rowId
  unfold SpatialRuntimeIndex.insert
  split
  next => exact removed
  next envelope made =>
    refine ⟨fun other => ?_, fun cell other => ?_, fun other => ?_⟩
    all_goals by_cases same : other = rowId
    · simp [same]
    · simp [same, removed.listed]
    · simp [same, mem_foldl_fileUnder, removed.filed, absent]
    · simp [same, mem_foldl_fileUnder, removed.filed]
    · intro entry stored
      obtain rfl : envelope = entry := by simpa [same] using stored
      exact SpatialEnvelope.ordered_of_fromValue made
    · simpa [same] using removed.ordered other

end SpatialRuntimeIndex

inductive SpatialAction where
  | insert (rowId : Int) (value : List (ℚ × ℚ))
  | remove (rowId : Int)
  deriving DecidableEq, Repr

namespace SpatialRuntimeIndex

variable {index : SpatialRuntimeIndex}

def apply (index : SpatialRuntimeIndex) : SpatialAction → SpatialRuntimeIndex
  | .insert rowId value => (index.insert rowId value).1
  | .remove rowId => (index.remove rowId).1

/-- Every action keeps the rows filed. -/
theorem Filed.apply (filed : index.Filed) (action : SpatialAction)
    : (index.apply action).Filed := by
  cases action with
  | insert rowId value => exact filed.insert rowId value
  | remove rowId => exact (filed.remove rowId).1

/-- By induction on the actions. -/
theorem Filed.run (filed : index.Filed) (actions : List SpatialAction)
    : (actions.foldl SpatialRuntimeIndex.apply index).Filed := by
  induction actions generalizing index with
  | nil => exact filed
  | cons action rest ih => exact ih (filed.apply action)

-- Candidates

/-- The candidates are the rows that intersect the query and, if the query has a cover, share a cell
with it.
-/
theorem Filed.mem_candidateRowIds (filed : index.Filed) {query : SpatialEnvelope} {rowId : Int}
    : rowId ∈ index.candidateRowIds query ↔ ∃ entry, index.entries rowId = some entry
      ∧ entry.Intersects query ∧ (index.backend.grid.coveringCells query = none
        ∨ ∃ cells, index.backend.grid.coveringCells query = some cells
          ∧ ∃ cell ∈ cells, cell ∈ (index.backend.grid.coveringCells entry).getD []) := by
  unfold candidateRowIds
  cases covered : index.backend.grid.coveringCells query with
  | none => cases stored : index.entries rowId <;> simp [filed.listed, stored]
  | some cells => cases stored : index.entries rowId <;> simp [filed.filed, stored, and_comm]

/-- The candidates are exactly the rows whose envelope intersects the query if the query has
too many cells, or else has some and no such row has too many.
-/
theorem candidateRowIds_exact_iff (backend : SpatialIndexBackend) (actions : List SpatialAction)
    (query : SpatialEnvelope)
    : let index := actions.foldl apply (new backend)
      (∀ rowId, rowId ∈ index.candidateRowIds query
        ↔ ∃ entry, index.entries rowId = some entry ∧ entry.Intersects query)
      ↔ index.backend.grid.coveringCells query = none
        ∨ ∀ rowId entry, index.entries rowId = some entry → entry.Intersects query
          → index.backend.grid.coveringCells query ≠ some []
            ∧ index.backend.grid.coveringCells entry ≠ none := by
  intro index
  have filed : index.Filed := Filed.run ⟨by simp [new], by simp [new], by simp [new]⟩ actions
  constructor
  · intro exactly
    refine or_iff_not_imp_left.mpr fun covered rowId entry stored intersects => ?_
    obtain ⟨found, same, _, shares⟩ :=
      filed.mem_candidateRowIds.mp ((exactly rowId).mpr ⟨entry, stored, intersects⟩)
    obtain rfl := Option.some.inj (stored.symm.trans same)
    obtain ⟨cells, queryCovered, cell, member, own⟩ := shares.resolve_left covered
    refine ⟨fun empty => ?_, fun uncovered => ?_⟩
    · rw [queryCovered] at empty
      cases empty
      cases member
    · rw [uncovered] at own
      cases own
  intro condition rowId
  rw [filed.mem_candidateRowIds]
  refine exists_congr fun entry => and_congr_right fun stored =>
    and_iff_left_of_imp fun intersects => ?_
  cases queryCovered : index.backend.grid.coveringCells query with
  | none => exact .inl rfl
  | some cells =>
    obtain ⟨nonempty, covered⟩ :=
      condition.resolve_left (by simp [queryCovered]) rowId entry stored intersects
    obtain ⟨own, entryCovered⟩ := Option.ne_none_iff_exists'.mp covered
    obtain rfl := CellGrid.eq_cells_of_coveringCells queryCovered
    rw [queryCovered] at nonempty
    obtain ⟨cell, member, shared⟩ := CellGrid.exists_shared_cell
      (filed.ordered rowId entry stored) intersects (by simpa using nonempty)
    refine .inr ⟨_, rfl, cell, member, ?_⟩
    rw [entryCovered, Option.getD_some, CellGrid.eq_cells_of_coveringCells entryCovered]
    exact shared

/-- A square of 101 by 101 cells is not found by a query inside it. -/
theorem candidateRowIds_misses_large_counterexample
    : let index := (new .geometryQuadCell).apply (.insert 1 [(0, 0), (100, 100)])
      let query : SpatialEnvelope := ⟨1, 1, 2, 2⟩
      (∃ entry, index.entries 1 = some entry ∧ entry.Intersects query)
      ∧ index.candidateRowIds query = [] := by
  decide +kernel

end SpatialRuntimeIndex

end DecentDb.Spatial
