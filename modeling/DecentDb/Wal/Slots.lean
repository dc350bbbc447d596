import DecentDb.Wal.Writer
import Mathlib.Data.Finset.Card

/-! Where the versions of one page are: in the index, or spilled to the sidecar. Reads, base
lookups and spilling only move them between the two.
-/

namespace DecentDb.Wal

open WalHandle WalIndex WalIndexSidecar

open Relation (ReflTransGen)

/-- The indexed versions of a page and its sidecar record. -/
structure PageSlot where
  versions : List WalVersion
  record : Option SidecarRecord

/-- One move of a page between the index and the sidecar. -/
inductive PageMove (config : WalConfig) : PageSlot → PageSlot → Prop where
  | spill (version : WalVersion) (record : Option SidecarRecord)
    (hot : config.walIndexHotSetPages ≠ 0)
    : PageMove config ⟨[version], record⟩ ⟨[], some version.record⟩
  | promote (record : SidecarRecord)
    : PageMove config ⟨[], some record⟩ ⟨[record.version], none⟩
  | clear (versions : List WalVersion) (record : Option SidecarRecord) (indexed : versions ≠ [])
    : PageMove config ⟨versions, record⟩ ⟨versions, none⟩

/-- Any number of moves. -/
abbrev PageMoves (config : WalConfig) : PageSlot → PageSlot → Prop :=
  ReflTransGen (PageMove config)

variable {config : WalConfig} {sidecar : WalIndexSidecar} {pageId : PageId}

/-- Moves change no LSN, by induction on them. -/
theorem PageMoves.lsns {before after : PageSlot} (moves : PageMoves config before after)
    (property : Nat → Prop) (versions : ∀ version ∈ before.versions, property version.lsn)
    (record : ∀ record ∈ before.record, property record.lsn)
    : (∀ version ∈ after.versions, property version.lsn)
      ∧ ∀ record ∈ after.record, property record.lsn := by
  induction moves with
  | refl => exact ⟨versions, record⟩
  | tail _ move ih =>
    cases move with
    | spill version record =>
      refine ⟨by simp, ?_⟩
      rintro _ ⟨⟩
      exact ih.1 version (by simp)
    | promote record => exact ⟨by simpa using ih.2, by simp⟩
    | clear versions record indexed => exact ⟨ih.1, by simp⟩

/-- A page with several versions keeps them. -/
theorem PageMoves.versions_of_multiple {before after : PageSlot}
    (moves : PageMoves config before after)
    : 1 < before.versions.length ∨ 1 < after.versions.length
      → after.versions = before.versions := by
  induction moves with
  | refl => exact fun _ => rfl
  | @tail middle last _ move ih =>
    intro multiple
    cases move with
    | spill version record =>
      rcases multiple with first | second
      · have same := ih (.inl first)
        rw [← same] at first
        exact absurd first (by simp)
      · exact absurd second (by simp)
    | promote record =>
      rcases multiple with first | second
      · have same := ih (.inl first)
        rw [← same] at first
        exact absurd first (by simp)
      · exact absurd second (by simp)
    | clear versions record indexed => exact ih multiple

namespace WalHandle

/-- A page's record in the sidecar, if there is a sidecar. -/
def sidecarRecord (handle : WalHandle) (pageId : PageId) : Option SidecarRecord :=
  handle.indexSidecar.bind fun sidecar => sidecar.records[pageId]?

def slot (handle : WalHandle) (pageId : PageId) : PageSlot :=
  ⟨handle.index.versions pageId, handle.sidecarRecord pageId⟩

/-- Every page moved only between the index and the sidecar. -/
def Moved (config : WalConfig) (before after : WalHandle) : Prop :=
  ∀ pageId, PageMoves config (before.slot pageId) (after.slot pageId)

/-- Nothing has to move. -/
theorem Moved.refl (config : WalConfig) (handle : WalHandle) : Moved config handle handle :=
  fun _ => .refl

/-- Moves compose. -/
theorem Moved.trans {first second third : WalHandle}
    (left : Moved config first second) (right : Moved config second third)
    : Moved config first third :=
  fun pageId => (left pageId).trans (right pageId)

end WalHandle

-- Spilling

/-- What `spill_one_cold_latest` did: nothing to the versions, or it took out a page that
has a single one.
-/
inductive SpilledOne (index : WalIndex) : WalIndex × Option (PageId × WalVersion) → Prop where
  | none {left : WalIndex} (same : left.pages = index.pages) : SpilledOne index (left, none)
  | some {left : WalIndex} {pageId : PageId} {version : WalVersion}
    (single : index.versions pageId = [version])
    (erased : left.pages = index.pages.erase pageId)
    : SpilledOne index (left, some (pageId, version))

/-- Spilling takes at most one page out of the index. -/
theorem spillFrom_spilledOne (hotSetPages : Nat) (index : WalIndex) (order : List (PageId × Nat))
    : SpilledOne index (index.spillFrom hotSetPages order) := by
  induction order with
  | nil => exact .none rfl
  | cons entry rest ih =>
    obtain ⟨pageId, epoch⟩ := entry
    unfold spillFrom
    split
    · exact .none rfl
    split
    · exact ih
    · split
      next version single => exact .some (by simp [versions, single]) rfl
      next => exact ih

section Spilling

variable (config : WalConfig)

/-- The slot of a page in an index and a sidecar. -/
def slotOf (index : WalIndex) (sidecar : WalIndexSidecar) (pageId : PageId) : PageSlot :=
  ⟨index.versions pageId, sidecar.records[pageId]?⟩

variable {config} in
/-- Spilling page after page only moves versions. -/
theorem spillExcess_moves (hot : config.walIndexHotSetPages ≠ 0) (turns : Nat) (index : WalIndex)
    (sidecar : WalIndexSidecar) (pageId : PageId)
    : PageMoves config (slotOf index sidecar pageId)
      (slotOf (spillExcess config.walIndexHotSetPages turns index sidecar).1
        (spillExcess config.walIndexHotSetPages turns index sidecar).2.1 pageId) := by
  induction turns generalizing index sidecar with
  | zero => exact .refl
  | succ turns ih =>
    have spilled := spillFrom_spilledOne config.walIndexHotSetPages index index.accessOrder
    unfold spillExcess spillOneColdLatest
    generalize index.spillFrom config.walIndexHotSetPages index.accessOrder = result at spilled
    cases spilled with
    | none same =>
      dsimp only
      rw [slotOf, slotOf, versions_eq_of_pages same]
    | @some left gone version single erased =>
      dsimp only
      split
      next written wrote =>
        refine .trans ?_ (ih left written)
        have records : written.records = sidecar.records.insert gone version.record := by
          unfold writeLatest at wrote
          split at wrote
          · cases wrote
          · rw [← Except.ok.inj wrote]
        rw [slotOf, slotOf, index.versions_of_erase gone pageId erased, records]
        by_cases same : gone = pageId
        · subst same
          rw [single]
          simpa using ReflTransGen.single (.spill version _ hot)
        · simp [same, Std.ExtTreeMap.getElem?_insert, ReflTransGen.refl]
      next error failed =>
        rw [slotOf, slotOf, seedLatest, versions_store, index.versions_of_erase gone pageId erased]
        by_cases same : gone = pageId
        · subst same
          simp [single, ReflTransGen.refl]
        · simp [same, ReflTransGen.refl]

/-- Spilling under the configured limit only moves versions. -/
theorem spillExcessHotPagesLocked_moves (index : WalIndex) (sidecar : WalIndexSidecar)
    (pageId : PageId)
    : PageMoves config (slotOf index sidecar pageId)
      (slotOf (spillExcessHotPagesLocked config index sidecar).1
        (spillExcessHotPagesLocked config index sidecar).2.1 pageId) := by
  unfold spillExcessHotPagesLocked
  split
  · exact .refl
  next hot => exact spillExcess_moves hot _ index sidecar pageId

end Spilling

-- Promotion and the functions that use it

namespace WalHandle

variable (config : WalConfig)

/-- The slot of a page under another index. -/
theorem slot_with_index {handle : WalHandle} (present : handle.indexSidecar = some sidecar)
    (index : WalIndex) (pageId : PageId)
    : ({ handle with index }).slot pageId = slotOf index sidecar pageId := by
  simp [slot, slotOf, sidecarRecord, present]

/-- What the sidecar returns is the version of its record. -/
theorem readLatest_eq_some {version : WalVersion} (found : sidecar.readLatest pageId = some version)
    : pageId ≠ 0 ∧ ∃ record, sidecar.records[pageId]? = some record ∧ version = record.version := by
  unfold readLatest at found
  split at found
  · cases found
  next nonzero =>
    obtain ⟨record, stored, made⟩ := Option.map_eq_some_iff.mp found
    exact ⟨nonzero, record, stored, made.symm⟩

/-- Clearing a record leaves the others. -/
theorem records_clearLatest (nonzero : pageId ≠ 0) (other : PageId)
    : (sidecar.clearLatest pageId).records[other]?
      = if pageId = other then none else sidecar.records[other]? := by
  rw [clearLatest, if_neg nonzero]
  by_cases same : pageId = other
  · simp [same]
  · simp [Std.ExtTreeMap.getElem?_erase]

/-- Taking a record out of the sidecar into the index. -/
theorem seedLatest_moves {index : WalIndex} {record : SidecarRecord} (nonzero : pageId ≠ 0)
    (absent : index.versions pageId = []) (stored : sidecar.records[pageId]? = some record)
    (other : PageId)
    : PageMoves config (slotOf index sidecar other)
      (slotOf (index.seedLatest pageId record.version) (sidecar.clearLatest pageId) other) := by
  rw [slotOf, slotOf, seedLatest, versions_store, records_clearLatest nonzero other]
  by_cases same : pageId = other
  · subst same
    rw [absent, stored]
    simpa using ReflTransGen.single (PageMove.promote record)
  · simp [same, ReflTransGen.refl]

/-- A promotion only moves versions. -/
theorem promoteSpilledLatestLocked_moved (handle : WalHandle) (pageId : PageId) (snapshotLsn : Nat)
    : Moved config handle (handle.promoteSpilledLatestLocked config pageId snapshotLsn).1 := by
  unfold promoteSpilledLatestLocked
  split
  · exact .refl config handle
  next sidecar present =>
    split
    · exact .refl config handle
    next absent =>
      split
      · exact .refl config handle
      next version found =>
        split
        · exact .refl config handle
        obtain ⟨nonzero, record, stored, rfl⟩ := readLatest_eq_some found
        have unfiled : handle.index.versions pageId = [] := by
          simp_all [WalIndex.versions, WalIndex.containsPage]
        have seeds := seedLatest_moves config nonzero unfiled stored
        intro other
        rw [show handle.slot other = _ from slot_with_index present _ other]
        split
        · exact (seeds other).trans (spillExcessHotPagesLocked_moves _ _ _ other)
        · exact seeds other

/-- A look for a promotion only moves versions. -/
theorem promoteIfNotVisible_moved (handle : WalHandle) (pageId : PageId) (snapshotLsn : Nat)
    : Moved config handle (handle.promoteIfNotVisible config pageId snapshotLsn).1 :=
  promoteIfNotVisible_rule (.refl config handle)
    (handle.promoteSpilledLatestLocked_moved config pageId snapshotLsn)

/-- Touching a page moves nothing. -/
@[simp]
theorem slot_touchIfVisible (handle : WalHandle) (pageId other : PageId) (snapshotLsn : Nat)
    : (handle.touchIfVisible pageId snapshotLsn).slot other = handle.slot other := by
  unfold touchIfVisible
  split <;> rfl

variable (handle : WalHandle)
include handle

variable (storage : Storage)

/-- A read only moves versions. -/
theorem readPageAtSnapshot_moved (pageId : PageId) (snapshotLsn : Nat)
    : Moved config handle (handle.readPageAtSnapshot config storage pageId snapshotLsn).1 := by
  refine readPageAtSnapshot_rule storage (.refl config handle)
    (handle.promoteSpilledLatestLocked_moved config pageId snapshotLsn) ?_
  intro promoted promotes other
  rw [slot_touchIfVisible]
  exact promotes other

variable (snapshotLsn : Nat)

/-- Consulting the sidecar only moves versions. -/
theorem consultSidecar_moved (pageId : PageId)
    : Moved config handle (handle.consultSidecar config snapshotLsn pageId).1 := by
  unfold consultSidecar
  split
  · exact handle.promoteSpilledLatestLocked_moved config pageId snapshotLsn
  next visible =>
    intro other
    unfold slot sidecarRecord
    dsimp only
    cases handle.indexSidecar with
    | none => exact .refl
    | some sidecar =>
      dsimp only [Option.map_some, Option.bind_some]
      by_cases zero : pageId = 0
      · rw [clearLatest, if_pos zero]
      rw [records_clearLatest zero]
      by_cases same : pageId = other
      · subst same
        rw [if_pos rfl]
        refine ReflTransGen.single (.clear _ _ ?_)
        intro none
        rw [latestVisible, none] at visible
        exact visible rfl
      · rw [if_neg same]

/-- Looking up a base only moves versions. -/
theorem lookupBasePage_moved (pageId : PageId)
    : Moved config handle (handle.lookupBasePage config storage snapshotLsn pageId).1 := by
  rw [lookupBasePage_fst]
  exact handle.consultSidecar_moved config snapshotLsn pageId

/-- Looking up the bases of a chunk only moves versions. -/
theorem lookupBasePages_moved (pages : List (PageId × Page))
    : Moved config handle (lookupBasePages config storage snapshotLsn handle pages).1 :=
  (lookupBasePages_rule (fun _ _ => True) (fun consulted moved page _ =>
      moved.trans (consulted.lookupBasePage_moved config storage snapshotLsn page.1))
    (by simp) (.refl config handle) rfl).1

/-- Preparing a chunk only moves versions. -/
theorem prepareNext_moved (progress : CommitProgress)
    : Moved config handle (handle.prepareNext config storage progress).1 := by
  rw [prepareNext_fst]
  exact handle.lookupBasePages_moved config storage progress.snapshotLsn _

end WalHandle

end DecentDb.Wal
