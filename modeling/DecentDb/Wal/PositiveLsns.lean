import DecentDb.Wal.Demotion
import DecentDb.Wal.LogHeader
import DecentDb.Wal.Publication
import DecentDb.Wal.Reopening

/-! No version has LSN 0: a frame ends past the header. So a read at LSN 0 is a read of the
main file, whatever the WAL holds.
-/

namespace DecentDb.Wal

open List

structure PageSlot.Positive (slot : PageSlot) : Prop where
  versions : ∀ version ∈ slot.versions, 0 < version.lsn
  record : ∀ record ∈ slot.record, 0 < record.lsn

variable {config : WalConfig} {storage filed : Storage} {path : String}
  {endLsn pageSize logicalEnd offset : Nat} {replay next : Replay} {handle after : WalHandle}

/-- Moved versions keep their LSNs. -/
theorem PageSlot.Positive.of_moves {before after : PageSlot}
    (positive : before.Positive) (moves : PageMoves config before after) : after.Positive := by
  obtain ⟨versions, record⟩ := moves.lsns (0 < ·) positive.versions positive.record
  exact ⟨versions, record⟩

namespace WalHandle

/-- Every version, indexed or spilled, has a positive LSN. -/
def PositiveLsns (handle : WalHandle) : Prop := ∀ pageId, (handle.slot pageId).Positive

/-- A handle whose versions moved keeps its LSNs. -/
theorem PositiveLsns.of_moved (positive : handle.PositiveLsns)
    (moved : Moved config handle after) : after.PositiveLsns :=
  fun pageId => (positive pageId).of_moves (moved pageId)

/-- A handle without versions has no LSN at all. -/
theorem PositiveLsns.of_empty (index : handle.index = .empty)
    (records : ∀ sidecar ∈ handle.indexSidecar, sidecar = .empty) : handle.PositiveLsns := by
  intro pageId
  refine ⟨by simp [slot, index], ?_⟩
  intro record found
  obtain ⟨sidecar, present, stored⟩ := Option.bind_eq_some_iff.mp found
  rw [records sidecar present] at stored
  simp [WalIndexSidecar.empty] at stored

/-- By induction on the published pages: every new LSN is past the start. -/
theorem publishPages_positive (retainHistory : Bool) (startLsn : Nat) (index : WalIndex)
    (prepared : List PreparedWalPage) (started : 0 < startLsn)
    (positive : ∀ pageId, ∀ version ∈ index.versions pageId, 0 < version.lsn) (pageId : PageId)
    : ∀ version ∈ (publishPages config retainHistory startLsn index prepared).versions pageId,
      0 < version.lsn := by
  induction prepared generalizing startLsn index with
  | nil => exact positive pageId
  | cons first rest ih =>
    refine ih _ _ (by omega) fun other version member => ?_
    rw [versions_publishPage] at member
    have new : 0 < (preparedPageVersion first (startLsn + first.encodedLen)).1.lsn := by
      rw [Ledger.lsn_preparedPageVersion]
      omega
    split at member
    · split at member
      · rcases mem_append.mp member with old | added
        · exact positive other version old
        · rw [mem_singleton.mp added]
          exact new
      · rw [mem_singleton.mp member]
        exact new
    · exact positive other version member

variable (positive : handle.PositiveLsns)
include positive

/-- A commit is numbered behind the header of the log. -/
theorem PositiveLsns.publishCommit {progress : CommitProgress}
    (started : walHeaderSize ≤ progress.commitStartLsn)
    : (handle.publishCommit config progress).PositiveLsns := by
  intro pageId
  exact ⟨publishPages_positive _ _ _ _ (lt_of_lt_of_le (by decide) started)
    (fun other => (positive other).versions) pageId, (positive pageId).record⟩

/-- A whole commit keeps the LSNs positive. -/
theorem PositiveLsns.commitPages (header : HeaderAt storage.wal config.pageSize handle.walEndLsn)
    {pages : List (PageId × Page)} {result : DbResult Nat}
    (committed : handle.commitPages config storage pages = (after, filed, result))
    : after.PositiveLsns := by
  have writing := beginCommit_writing header pages
  unfold WalHandle.commitPages at committed
  split at committed <;> cases committed
  next outcome =>
    obtain ⟨last, -, wrote⟩ :=
      (writing.prepareAndWrite _ rfl (by simp [beginCommit]) outcome).2 _ rfl
    exact positive.of_moved wrote.moved
  next outcome =>
    obtain ⟨wrote, -⟩ := (writing.prepareAndWrite _ rfl (by simp [beginCommit]) outcome).1 _ rfl
    exact (positive.of_moved wrote.moved).publishCommit wrote.started

/-- Demotion and spilling keep the LSNs. -/
theorem PositiveLsns.demoteColdVersions : (handle.demoteColdVersions config).PositiveLsns := by
  obtain ⟨middle, cold, sidecar, -, -, moved, -⟩ := demoteColdVersions_effect config handle
  have demoted : middle.PositiveLsns := by
    intro pageId
    refine ⟨fun version member => ?_, fun record stored => (positive pageId).record record ?_⟩
    · obtain ⟨old, listed, demotes⟩ := (cold pageId).versions.flip.exists_of_mem member
      have before := (positive pageId).versions old listed
      rcases demotes with rfl | rfl
      · exact before
      · exact before
    · simpa [slot, sidecarRecord, sidecar] using stored
  exact demoted.of_moved moved

/-- No version is visible at LSN 0, so reading there neither finds nor moves one. -/
theorem PositiveLsns.readPage_zero (pageId : PageId)
    : handle.readPage config storage pageId 0 = storage.readPageFromDisk pageId := by
  have invisible : handle.index.latestVisible pageId 0 = none := by
    refine find?_eq_none.mpr fun version member => ?_
    have later := (positive pageId).versions version (mem_reverse.mp member)
    simpa using ne_of_gt later
  have stays : handle.promoteSpilledLatestLocked config pageId 0 = (handle, .ok ()) :=
    promoteSpilledLatestLocked_of_no_record (positive pageId).record
  unfold readPage readPageAtSnapshot promoteIfNotVisible
  rw [invisible]
  simp [stays, touchIfVisible, invisible, materializeLatestVisibleLocked]

end WalHandle

-- Recovery

namespace Replay

/-- Recovered versions and pending pages end past an offset. -/
structure Positive (replay : Replay) : Prop where
  versions : ∀ pageId, ∀ version ∈ replay.index.versions pageId, 0 < version.lsn
  pending : ∀ (pageId : PageId) (pending : PendingRecoveryPage),
    replay.pendingPages[pageId]? = some pending → 0 < pending.lsn

section

variable (positive : replay.Positive)
include positive

/-- A pending page behind the header has a positive LSN. -/
theorem Positive.stored {pageId : PageId}
    {page : PendingRecoveryPage} (later : 0 < page.lsn) : (replay.stored pageId page).Positive := by
  refine ⟨positive.versions, fun other found held => ?_⟩
  simp only [Replay.stored, Std.ExtTreeMap.getElem?_insert] at held
  split at held
  · cases held
    exact later
  · exact positive.pending other found held

/-- Committing the pending pages keeps the LSNs positive. -/
theorem Positive.commitPending : replay.commitPending.Positive := by
  refine ⟨fun pageId version member => ?_, by simp [Replay.commitPending]⟩
  rw [WalIndex.versions, pages_commitPending] at member
  cases held : replay.pendingPages[pageId]? with
  | some page =>
    rw [held] at member
    rw [mem_singleton.mp member]
    exact positive.pending pageId page held
  | none =>
    rw [held] at member
    exact positive.versions pageId version member

/-- Replaying a frame keeps the LSNs positive. -/
theorem Positive.replayFrame (started : 0 < offset)
    {frame : WalFrame} (ran : replay.replayFrame storage pageSize offset frame = .ok next)
    : next.Positive := by
  cases replayed_of_replayFrame ran with
  | page _ _ lsn | delta _ _ lsn => exact positive.stored (by omega)
  | commit => exact positive.commitPending
  | checkpoint => exact ⟨positive.versions, by simp⟩

end

/-- By induction on the turns of the loop. -/
theorem Positive.replayFrames (turns : Nat) (positive : replay.Positive) (started : 0 < offset)
    (replayed : replayFrames storage pageSize logicalEnd turns offset replay = .ok next)
    : next.Positive := by
  induction turns generalizing offset replay with
  | zero =>
    cases replayed
    exact positive
  | succ turns ih =>
    unfold Replay.replayFrames at replayed
    split at replayed
    · obtain ⟨decoded, -, more⟩ := bind_eq_ok.mp replayed
      cases decoded with
      | none =>
        cases more
        exact positive
      | some frame =>
        obtain ⟨following, replays, rest⟩ := bind_eq_ok.mp more
        exact ih (positive.replayFrame started replays) (by omega) rest
    · cases replayed
      exact positive

end Replay

/-- What opening a database finds: the end that the header names, no readers, no retained
snapshot and an unchanged main file.
-/
structure Reopened (config : WalConfig) (endLsn : Nat) (storage : Storage) (handle : WalHandle)
    (filed : Storage) : Prop where
  walEndLsn : handle.walEndLsn = endLsn
  readerRegistry : handle.readerRegistry = .empty
  positive : handle.PositiveLsns
  storage : filed = storage

variable (header : HeaderAt storage.wal config.pageSize endLsn)
include header

/-- Recovery keeps the storage, reads the end from the header, and finds positive LSNs. -/
theorem initializeOrRecover_eq_ok (fits : endLsn < 2 ^ 64)
    {first : Recovered} (ran : initializeOrRecover config path storage none = .ok first)
    : first.storage = storage ∧ first.endLsn = endLsn ∧ first.handle.PositiveLsns := by
  have room := header.room
  have nonzero : storage.wal.size ≠ 0 := by
    have : 0 < walHeaderSize := by decide
    omega
  unfold initializeOrRecover at ran
  rw [if_neg nonzero, header.readHeader path fits] at ran
  simp only [ok_bind] at ran
  obtain ⟨last, replays, made⟩ := bind_eq_ok.mp ran
  cases made
  have positive : last.Positive :=
    .replayFrames _ ⟨by simp [Replay.start], by simp [Replay.start]⟩ (by decide) replays
  refine ⟨rfl, rfl, fun pageId => ⟨positive.versions pageId, ?_⟩⟩
  simp [WalHandle.slot, WalHandle.sidecarRecord, Recovered.handle]

/-- A handle that is built from a file reopens its log. -/
theorem buildHandleFromFile_eq_ok (fits : endLsn < 2 ^ 64) {coordinated : Bool} {handle : WalHandle}
    (built : buildHandleFromFile config path coordinated storage = .ok (handle, filed))
    : Reopened config endLsn storage handle filed := by
  obtain ⟨recovered, recovers, -⟩ := bind_eq_ok.mp built
  obtain ⟨first, ran⟩ := exists_recovered recovers
  obtain ⟨sameStorage, sameEnd, positive⟩ := initializeOrRecover_eq_ok header fits ran
  have reopens := buildHandleFromFile_reopens ran built
  exact ⟨reopens.walEndLsn.trans sameEnd, reopens.readerRegistry,
    positive.of_moved reopens.moved, reopens.storage.trans sameStorage⟩

end DecentDb.Wal
