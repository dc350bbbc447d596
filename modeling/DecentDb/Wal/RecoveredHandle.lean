import DecentDb.Wal.RecoveredContent

/-! The handle that is opened on recovered content: its index is that of a WAL to which every
recovered page was committed whole.
-/

namespace DecentDb.Wal

open List Std.ExtTreeMap
open Overlays (Edit History fromLastImage lastImage)

-- Recovered pages as edits

/-- The bytes of a resident version. -/
def WalVersion.residentImage (version : WalVersion) : Page :=
  match version.payload with
  | .resident data .. => data
  | .onDisk .. => []

/-- Every indexed page as an edit that gives it its newest image. -/
def WalIndex.imageEdits (index : WalIndex) : List PageEdit :=
  index.pages.toList.map fun (pageId, versions) =>
    (pageId, .whole ((versions.getLast?.map WalVersion.residentImage).getD []))

/-- A page has one edit if it is indexed, else none. -/
theorem WalIndex.editsOf_imageEdits (index : WalIndex) (pageId : PageId)
    : editsOf pageId index.imageEdits = (index.pages[pageId]?.map fun versions =>
        Edit.whole ((versions.getLast?.map WalVersion.residentImage).getD [])).toList := by
  have distinct : (index.pages.toList.map Prod.fst).Nodup := by
    refine pairwise_map.mpr (distinct_keys_toList.imp ?_)
    exact fun different same => different (Std.compare_eq_iff_eq.mpr same)
  rw [editsOf, imageEdits, filter_map]
  simp only [Function.comp_def]
  rw [filter_key_eq_toList_find? distinct]
  cases found : index.pages[pageId]? with
  | none =>
    have absent : index.pages.toList.find? (fun page => decide (page.1 = pageId)) = none := by
      refine find?_eq_none.mpr fun page member same => ?_
      have stored := mem_toList_iff_getElem?_eq_some.mp member
      rw [of_decide_eq_true same, found] at stored
      cases stored
    rw [absent]
    rfl
  | some versions =>
    have listed : (pageId, versions) ∈ index.pages.toList :=
      mem_toList_iff_getElem?_eq_some.mpr found
    obtain ⟨page, first⟩ : ∃ page, index.pages.toList.find?
      (fun page => decide (page.1 = pageId)) = some page :=
      Option.isSome_iff_exists.mp (find?_isSome.mpr ⟨_, listed, by simp⟩)
    have same := find?_some first
    have stored := mem_toList_iff_getElem?_eq_some.mp (mem_of_find?_eq_some first)
    rw [of_decide_eq_true same, found] at stored
    cases stored
    rw [first]
    rfl

variable {main : PageId → Page} {pageSize offset : Nat} {replay : Replay}

namespace Replay.Sound

variable (sound : replay.Sound pageSize offset)
include sound

/-- The recovered images are whole pages. -/
theorem sized_imageEdits : ∀ edit ∈ replay.index.imageEdits, edit.2.Sized pageSize := by
  intro edit member
  obtain ⟨⟨pageId, versions⟩, listed, rfl⟩ := mem_map.mp member
  obtain ⟨page, rfl, length, -⟩ := sound.indexed pageId versions
    (mem_toList_iff_getElem?_eq_some.mp listed)
  exact length

/-- A sound replay without pending frames is one of its pages' images. -/
theorem holds (closed : replay.pendingFrames = 0) (main : PageId → Page)
    : replay.Holds pageSize main replay.index.imageEdits [] := by
  have noneHeld : replay.pendingPages = ∅ := by
    refine eq_empty_iff_size_eq_zero.mpr ?_
    have size := sound.pendingSize
    omega
  have edits := replay.index.editsOf_imageEdits
  refine {
    sized := by simpa using sound.sized_imageEdits
    pendingFrames := closed
    pendingSize := by rw [noneHeld]; exact Nat.le_refl 0
    unindexed := fun pageId unedited => ?_
    indexed := fun pageId edited => ?_
    unheld := fun pageId _ => by simp [noneHeld]
    held := fun pageId touched => absurd rfl touched
  }
  · rw [edits] at unedited
    cases found : replay.index.pages[pageId]? with
    | none => rfl
    | some versions => simp [found] at unedited
  rw [edits] at edited
  cases found : replay.index.pages[pageId]? with
  | none => simp [found] at edited
  | some versions =>
    obtain ⟨page, rfl, -, -⟩ := sound.indexed pageId versions found
    refine ⟨page.lsn, page.walOffset, page.frameLen, page.encoding, ?_⟩
    rw [rebuilt, edits, found]
    rfl

/-- The image of a page that was recovered. -/
theorem lastImage_imageEdits (storage : Storage) (endLsn : Nat) (pageId : PageId)
    : some (lastImage (storage.main pageId) (editsOf pageId replay.index.imageEdits))
      = Recovered.pageImage { storage, index := replay.index, indexSidecar := none, endLsn }
        pageId := by
  rw [replay.index.editsOf_imageEdits, Recovered.pageImage, WalIndex.versions]
  cases found : replay.index.pages[pageId]? with
  | none => rfl
  | some versions =>
    obtain ⟨page, rfl, -, -⟩ := sound.indexed pageId versions found
    rfl

/-- Whole images make a history. -/
theorem history (mainPages : ∀ pageId, (main pageId).length = pageSize) (pageId : PageId)
    : History fromLastImage (main pageId) (editsOf pageId replay.index.imageEdits) := by
  rw [replay.index.editsOf_imageEdits]
  cases found : replay.index.pages[pageId]? with
  | none => exact .nil
  | some versions =>
    obtain ⟨page, rfl, length, -⟩ := sound.indexed pageId versions found
    have start : History fromLastImage (main pageId) [] := .nil
    refine start.whole ?_
    rw [mainPages]
    exact length

end Replay.Sound

-- The opened handle

/-- No page has two versions, so promoted pages stay. -/
structure OpenedKept (config : WalConfig) (main : PageId → Page) (edits : List PageEdit)
    (handle : WalHandle) : Prop where
  newest : NewestKept config main edits handle
  single : handle.index.multiVersionPages = ∅

/-- A reopened handle keeps the newest image of every recovered page. -/
theorem Replay.Sound.openedKept {config : WalConfig} {first : Recovered} {last : Replay}
    {offset : Nat} (sound : last.Sound config.pageSize offset) (index : first.index = last.index)
    (ends : offset ≤ first.endLsn ∨ last.index.pages = ∅)
    {handle : WalHandle} {opened : Storage} (reopens : Reopens config first handle opened)
    : OpenedKept config main last.index.imageEdits handle := by
  have versions (pageId : PageId) : first.handle.index.versions pageId
    = last.index.pages[pageId]?.getD [] := by rw [← index]; rfl
  have queued : first.index.WellQueued := index ▸ sound.queued
  have kept : NewestKept config main last.index.imageEdits first.handle := by
    refine ⟨queued, fun pageId => ⟨fun version member => ?_, nofun⟩,
      fun pageId edited => ?_, fun _ _ => rfl, fun _ pageId version newest => ?_⟩
    · change version ∈ first.handle.index.versions pageId at member
      rw [versions] at member
      cases found : last.index.pages[pageId]? with
      | none => simp [found] at member
      | some listed =>
        obtain ⟨page, rfl, -, lsn⟩ := sound.indexed pageId listed found
        rw [found] at member
        rw [mem_singleton.mp member]
        rcases ends with later | none
        · exact le_trans lsn later
        · simp [none] at found
    · left
      show first.handle.index.versions pageId ≠ []
      rw [versions]
      rw [WalIndex.editsOf_imageEdits] at edited
      cases found : last.index.pages[pageId]? with
      | none => simp [found] at edited
      | some listed =>
        obtain ⟨page, rfl, -, -⟩ := sound.indexed pageId listed found
        simp
    rw [versions] at newest
    rw [WalIndex.editsOf_imageEdits]
    cases found : last.index.pages[pageId]? with
    | none => simp [found] at newest
    | some listed =>
      obtain ⟨page, rfl, -, -⟩ := sound.indexed pageId listed found
      rw [found] at newest
      cases newest
      rintro _ _ _ _ ⟨⟩
      rfl
  refine ⟨kept.of_moved reopens.moved reopens.walEndLsn (reopens.queued queued), ?_⟩
  rw [reopens.moved.multiVersionPages]
  refine Finset.eq_empty_of_forall_notMem fun pageId member => ?_
  rw [WalIndex.mem_multiVersionPages, versions] at member
  cases found : last.index.pages[pageId]? with
  | none => simp [found] at member
  | some listed =>
    obtain ⟨page, rfl, -, -⟩ := sound.indexed pageId listed found
    simp [found] at member

end DecentDb.Wal
