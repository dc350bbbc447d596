import DecentDb.Wal.HotSet
import DecentDb.Wal.LogReplay

/-! What recovery does in one step and in the end: the ways in which a frame can be replayed, and
the handle that is opened on the result.
-/

namespace DecentDb.Wal

-- The replay

namespace Replay

/-- The ways in which a frame can be replayed. -/
inductive Replayed (storage : Storage) (pageSize offset : Nat) (replay : Replay)
    (frame : WalFrame) : Replay → Prop where
  | page {page : PendingRecoveryPage} (type : frame.frameType = .page)
    (room : replay.pendingFrames < maxPendingRecoveryFrames)
    (lsn : page.lsn = offset + frame.encodedLen pageSize) (data : page.data = frame.payload)
    : Replayed storage pageSize offset replay frame (replay.stored frame.pageId page)
  | delta {page : PendingRecoveryPage} {base : Page} (type : frame.frameType = .pageDelta)
    (room : replay.pendingFrames < maxPendingRecoveryFrames)
    (lsn : page.lsn = offset + frame.encodedLen pageSize)
    (found : replay.deltaBase storage frame.pageId = .ok base)
    (applied : applyPageDelta base frame.payload = .ok page.data)
    : Replayed storage pageSize offset replay frame (replay.stored frame.pageId page)
  | commit (type : frame.frameType = .commit)
    : Replayed storage pageSize offset replay frame replay.commitPending
  | checkpoint (type : frame.frameType = .checkpoint)
    : Replayed storage pageSize offset replay frame
      { replay with pendingFrames := 0, pendingPages := ∅ }

variable {storage : Storage} {pageSize offset : Nat} {replay next pushed : Replay}
  {frame : WalFrame}

/-- Another pending frame is counted while there is room. -/
theorem pushPendingFrame_eq_ok (ran : replay.pushPendingFrame = .ok pushed)
    : replay.pendingFrames < maxPendingRecoveryFrames
      ∧ pushed = { replay with pendingFrames := replay.pendingFrames + 1 } := by
  unfold pushPendingFrame at ran
  split at ran <;> cases ran
  next room => exact ⟨not_le.mp room, rfl⟩

/-- A pending page is stored under its id. -/
theorem storePendingPage_eq_ok {pageId : PageId} {page : PendingRecoveryPage}
    (ran : ({ replay with pendingFrames := replay.pendingFrames + 1 }).storePendingPage pageId page
      = .ok next)
    : next = replay.stored pageId page := by
  unfold storePendingPage at ran
  split at ran <;> cases ran
  · rfl

/-- What replaying one frame does, by the type of the frame. -/
theorem replayed_of_replayFrame (ran : replay.replayFrame storage pageSize offset frame = .ok next)
    : Replayed storage pageSize offset replay frame next := by
  unfold replayFrame at ran
  dsimp only at ran
  split at ran
  next type =>
    obtain ⟨pushed, push, stores⟩ := bind_eq_ok.mp ran
    obtain ⟨room, rfl⟩ := pushPendingFrame_eq_ok push
    rw [storePendingPage_eq_ok stores]
    exact .page type room rfl rfl
  next type =>
    obtain ⟨pushed, push, ran⟩ := bind_eq_ok.mp ran
    obtain ⟨base, found, ran⟩ := bind_eq_ok.mp ran
    obtain ⟨data, applied, stores⟩ := bind_eq_ok.mp ran
    obtain ⟨room, rfl⟩ := pushPendingFrame_eq_ok push
    rw [storePendingPage_eq_ok stores]
    exact .delta type room rfl found applied
  next type =>
    cases ran
    exact .commit type
  next type =>
    cases ran
    exact .checkpoint type

end Replay

-- The opened handle

/-- The handle of a process that keeps the whole recovered index in memory. -/
def Recovered.handle (recovered : Recovered) : WalHandle :=
  {
    index := recovered.index
    indexSidecar := none
    walEndLsn := recovered.endLsn
    allocatedLen := recovered.storage.wal.size
    readerRegistry := .empty
    retainedSnapshotLsn := none
    checkpointPending := false
    checkpointEpoch := 0
  }

section Opened

variable {config : WalConfig} {path : String} {storage opened : Storage}
  {first recovered : Recovered} {handle : WalHandle}

/-- Every opened handle is that one, up to pages that were moved into a sidecar. -/
structure Reopens (config : WalConfig) (first : Recovered) (handle : WalHandle)
    (opened : Storage) : Prop where
  storage : opened = first.storage
  walEndLsn : handle.walEndLsn = first.endLsn
  readerRegistry : handle.readerRegistry = .empty
  moved : WalHandle.Moved config first.handle handle
  queued : first.index.WellQueued → handle.index.WellQueued
  unlimited : config.walIndexHotSetPages = 0 → handle.indexSidecar = none

/-- Recovery into a sidecar succeeds only where recovery without one does. -/
theorem exists_recovered {indexSidecar : Option WalIndexSidecar}
    (recovers : initializeOrRecover config path storage indexSidecar = .ok recovered)
    : ∃ first, initializeOrRecover config path storage none = .ok first := by
  unfold initializeOrRecover at recovers ⊢
  split at recovers
  next new => exact ⟨_, if_pos new⟩
  next old =>
    obtain ⟨header, read, recovers⟩ := bind_eq_ok.mp recovers
    obtain ⟨last, replays, -⟩ := bind_eq_ok.mp recovers
    rw [if_neg old, read]
    simp only [ok_bind, replays]
    exact ⟨_, rfl⟩

section

variable (ran : initializeOrRecover config path storage none = .ok first) {coordinated : Bool}
include ran

/-- Recovery into a sidecar moves pages of the recovery without one. -/
theorem initializeOrRecover_freshSidecar
    (recovers : initializeOrRecover config path storage (freshSidecar config coordinated)
      = .ok recovered)
    : recovered.storage = first.storage ∧ recovered.endLsn = first.endLsn
      ∧ (∀ pageId, PageMoves config (first.handle.slot pageId) ⟨recovered.index.versions pageId,
        recovered.indexSidecar.bind fun sidecar => sidecar.records[pageId]?⟩)
      ∧ (first.index.WellQueued → recovered.index.WellQueued)
      ∧ (config.walIndexHotSetPages = 0 → recovered.indexSidecar = none) := by
  have noRecord (pageId : PageId) : WalIndexSidecar.empty.records[pageId]? = none := by
    simp [WalIndexSidecar.empty]
  have withoutLimit : config.walIndexHotSetPages = 0 → freshSidecar config coordinated = none :=
    fun unlimited => by rw [freshSidecar, if_pos (.inl unlimited)]
  have onlyEmpty : ∀ sidecar ∈ freshSidecar config coordinated,
      sidecar = .empty ∧ config.walIndexHotSetPages ≠ 0 := by
    intro sidecar fresh
    unfold freshSidecar at fresh
    split at fresh <;> cases fresh
    next limited => exact ⟨rfl, fun unlimited => limited (.inl unlimited)⟩
  generalize freshSidecar config coordinated = fresh at recovers withoutLimit onlyEmpty
  unfold initializeOrRecover at ran recovers
  by_cases new : storage.wal.size = 0
  · rw [if_pos new] at ran recovers
    cases ran
    cases recovers
    refine ⟨rfl, rfl, fun pageId => ?_, id, withoutLimit⟩
    cases fresh with
    | none => exact .refl
    | some sidecar =>
      obtain ⟨rfl, -⟩ := onlyEmpty sidecar rfl
      rw [Option.bind_some, noRecord]
      exact .refl
  rw [if_neg new] at ran recovers
  obtain ⟨header, read, ran⟩ := bind_eq_ok.mp ran
  obtain ⟨last, replays, ran⟩ := bind_eq_ok.mp ran
  cases ran
  rw [read] at recovers
  simp only [ok_bind, replays] at recovers
  obtain ⟨spilled, spills, made⟩ := bind_eq_ok.mp recovers
  cases made
  refine ⟨rfl, rfl, ?_⟩
  unfold spillRecoveredLatestVersions at spills
  cases fresh with
  | none =>
    cases spills
    exact ⟨fun _ => .refl, id, fun _ => rfl⟩
  | some sidecar =>
    obtain ⟨rfl, limited⟩ := onlyEmpty sidecar rfl
    dsimp only at spills
    split at spills <;> cases spills
    next left written outcome =>
      refine ⟨fun pageId => ?_, fun queued => ?_, fun unlimited => absurd unlimited limited⟩
      · have moves := spillExcess_moves limited last.index.pages.size last.index .empty
          pageId
        rw [outcome, slotOf, noRecord] at moves
        exact moves
      · have kept := WalHandle.spillExcess_wellQueued config.walIndexHotSetPages
          last.index.pages.size .empty queued
        rwa [outcome] at kept

/-- A handle that is built from a file has what recovery found in it. -/
theorem buildHandleFromFile_reopens
    (built : buildHandleFromFile config path coordinated storage = .ok (handle, opened))
    : Reopens config first handle opened := by
  unfold buildHandleFromFile at built
  obtain ⟨recovered, recovers, more⟩ := bind_eq_ok.mp built
  obtain ⟨sameStorage, sameEnd, moved, queued, unlimited⟩ :=
    initializeOrRecover_freshSidecar ran recovers
  dsimp only at more
  split at more
  next none =>
    cases more
    rw [none] at moved
    exact ⟨sameStorage, sameEnd, rfl, moved, queued, fun _ => rfl⟩
  next sidecar present =>
    have limited : config.walIndexHotSetPages ≠ 0 := by
      intro none
      rw [unlimited none] at present
      cases present
    rw [present] at moved
    split at more <;> cases more
    next index spilled outcome =>
      refine ⟨sameStorage, sameEnd, rfl, fun pageId => ?_, fun before => ?_,
        fun none => absurd none limited⟩
      · have moves := spillExcessHotPagesLocked_moves config recovered.index sidecar pageId
        rw [outcome] at moves
        exact (moved pageId).trans moves
      · have kept := WalHandle.spillExcessHotPagesLocked_wellQueued config sidecar (queued before)
        rwa [outcome] at kept

end

end Opened

end DecentDb.Wal
