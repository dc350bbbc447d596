import DecentDb.Wal.WrittenLog

/-! Recovery of a file that holds a log up to its header's end, in whatever way the file came
about: every page has the last image that the log gives it.
-/

namespace DecentDb.Wal

open Overlays (History fromLastImage lastImage)

variable {storage : Storage} {log : List (List PageEdit)} {main : PageId → Page}
  {frames : List WalFrame} {config : WalConfig} {condition : List PageEdit → WalHandle → Prop}
  {state : WalState}

/-- A replayed history gives every page its last image. -/
theorem Replay.Holds.pageImage {pageSize : Nat} {edits : List PageEdit}
    {last : Replay} (holds : last.Holds pageSize storage.main edits [])
    (history : ∀ pageId, History fromLastImage (storage.main pageId) (editsOf pageId edits))
    (endLsn : Nat) (pageId : PageId)
    : Recovered.pageImage { storage, index := last.index, indexSidecar := none, endLsn } pageId
      = some (lastImage (storage.main pageId) (editsOf pageId edits)) := by
  by_cases unedited : editsOf pageId edits = []
  · simp [Recovered.pageImage, WalIndex.versions, holds.unindexed pageId unedited, unedited]
  obtain ⟨lsn, walOffset, frameLen, encoding, found⟩ := holds.indexed pageId unedited
  have image : rebuilt storage.main edits pageId
    = lastImage (storage.main pageId) (editsOf pageId edits) :=
    (history pageId).replay_eq_lastImage
  simp [Recovered.pageImage, WalIndex.versions, found, image]

/-- The file holds the log, each of its deltas made against the newest image, and its header
ends the log.
-/
structure DiskLog (config : WalConfig) (main : PageId → Page) (storage : Storage)
    (log : List (List PageEdit)) (frames : List WalFrame) : Prop where
  mainFile : storage.main = main
  logFrames : LogFrames config.pageSize log frames
  stored : FramesAt storage.wal config.pageSize walHeaderSize frames
  header : HeaderAt storage.wal config.pageSize (logEnd config.pageSize frames)
  history : ∀ pageId, History fromLastImage (main pageId) (editsOf pageId log.flatten)

namespace DiskLog

/-- A log whose transactions stay below the replay limit is recovered. -/
theorem recovers (disk : DiskLog config main storage log frames)
    (mainPages : ∀ pageId, (main pageId).length = config.pageSize)
    (small : ∀ edits ∈ log, edits.length ≤ maxPendingRecoveryFrames)
    (fits : logEnd config.pageSize frames < 2 ^ 64) (path : String)
    : ∃ recovered, initializeOrRecover config path storage none = .ok recovered
      ∧ recovered.endLsn = logEnd config.pageSize frames ∧ (∀ pageId, recovered.pageImage pageId
        = some (lastImage (main pageId) (editsOf pageId log.flatten)))
      ∧ ∀ pageId, recovered.index.containsPage pageId ↔ editsOf pageId log.flatten ≠ [] := by
  have storedPages : ∀ pageId, (storage.main pageId).length = config.pageSize := by
    rwa [disk.mainFile]
  obtain ⟨last, replayed, holds⟩ := disk.logFrames.replayList storedPages small
  obtain ⟨reads, ended⟩ := disk.stored.reads_logEnd
  rw [initializeOrRecover_reads disk.header reads ended fits path, replayed]
  have history := disk.history
  rw [← disk.mainFile] at history
  refine ⟨_, rfl, rfl, fun pageId => ?_, fun pageId => ?_⟩
  · rw [holds.pageImage history, disk.mainFile]
  rw [WalIndex.containsPage, Std.ExtTreeMap.contains_iff_mem,
  Std.ExtTreeMap.mem_iff_isSome_getElem?]
  by_cases unedited : editsOf pageId log.flatten = []
  · simp [holds.unindexed pageId unedited, unedited]
  · obtain ⟨lsn, walOffset, frameLen, encoding, found⟩ := holds.indexed pageId unedited
    simp [found, unedited]

end DiskLog

namespace WalState.Logged

section

variable (logged : state.Logged config main fromLastImage condition log frames)
include logged

/-- A header that names the handle's end ends the log. -/
theorem diskLog (header : HeaderAt state.storage.wal config.pageSize state.handle.walEndLsn)
    : DiskLog config main state.storage log frames :=
  {
    mainFile := logged.mainFile
    logFrames := logged.logFrames
    stored := logged.stored
    header := logged.walEnd ▸ header
    history := logged.history
  }

/-- A commit whose end is written is the last transaction of the log on disk. -/
theorem diskLog_finished {guard : WalHandle → List (PageId × Page) → Prop}
    (indexRule : IndexRule config main fromLastImage guard condition)
    (mainPages : ∀ pageId, (main pageId).length = config.pageSize)
    {pages : List (PageId × Page)} {progress : WalHandle.CommitProgress}
    (committing : state.writer = .committing pages progress) (finished : progress.logicalEndWritten)
    : ∃ edits more, writesOf edits = pages
      ∧ DiskLog config main state.storage (log ++ [edits]) more := by
  obtain ⟨edits, more, published⟩ := logged.publish indexRule mainPages committing finished 0
  refine ⟨edits, more, ?_, published.diskLog (published.idle_header rfl)⟩
  have commits := published.commits
  simpa [VersionedStore.commit, logged.commits, eq_comm] using commits

end

end WalState.Logged

end DecentDb.Wal
