import DecentDb.Wal.RecoveryExact

/-! What recovery makes of a WAL file of any content that it accepts: an index with one resident
version for each page, as if each page had been committed whole.
-/

namespace DecentDb.Wal

open Replay
open Overlays (Edit lastImage)
open LittleEndian (leNat)

-- The replay

variable {frames : List WalFrame} {storage : Storage} {config : WalConfig} {path : String}
  {first : Recovered} {pageSize offset later logicalEnd : Nat} {replay next : Replay}
  {frame : WalFrame}

namespace Replay

/-- What holds of a replay up to an offset, whatever the content. -/
structure Sound (pageSize offset : Nat) (replay : Replay) : Prop where
  queued : replay.index.WellQueued
  indexed : ∀ (pageId : PageId) (versions : List WalVersion),
    replay.index.pages[pageId]? = some versions → ∃ page : PendingRecoveryPage,
      versions = [page.version] ∧ page.data.length = pageSize ∧ page.lsn ≤ offset
  pending : ∀ (pageId : PageId) (page : PendingRecoveryPage),
    replay.pendingPages[pageId]? = some page → page.data.length = pageSize ∧ page.lsn ≤ offset
  pendingSize : replay.pendingPages.size ≤ replay.pendingFrames

/-- A replay that starts is sound anywhere. -/
theorem start_sound (pageSize offset : Nat) : start.Sound pageSize offset where
  queued := WalIndex.wellQueued_empty
  indexed := by simp [start, WalIndex.empty]
  pending := by simp [start]
  pendingSize := Nat.le_refl 0

namespace Sound

section

variable (sound : replay.Sound pageSize offset)
include sound

/-- A replay is sound further on, too. -/
theorem mono (forward : offset ≤ later) : replay.Sound pageSize later where
  queued := sound.queued
  indexed pageId versions found := by
    obtain ⟨page, only, length, lsn⟩ := sound.indexed pageId versions found
    exact ⟨page, only, length, le_trans lsn forward⟩
  pending pageId page found := by
    obtain ⟨length, lsn⟩ := sound.pending pageId page found
    exact ⟨length, le_trans lsn forward⟩
  pendingSize := sound.pendingSize

/-- The base of a delta is a whole page. -/
theorem length_deltaBase
    (mainPages : ∀ pageId, (storage.main pageId).length = pageSize) {pageId : PageId} {base : Page}
    (found : replay.deltaBase storage pageId = .ok base) : base.length = pageSize := by
  unfold deltaBase at found
  cases pending : replay.pendingPages[pageId]? with
  | some page =>
    rw [pending] at found
    cases found
    exact (sound.pending pageId page pending).1
  | none =>
    rw [pending] at found
    cases indexed : replay.index.pages[pageId]? with
    | some versions =>
      obtain ⟨page, rfl, length, -⟩ := sound.indexed pageId versions indexed
      simp only [WalIndex.versions, indexed, Option.getD_some, List.getLast?_singleton,
        PendingRecoveryPage.version] at found
      cases found
      exact length
    | none =>
      simp only [WalIndex.versions, indexed, Option.getD_none, List.getLast?_nil,
        Storage.readPageFromDisk] at found
      split at found <;> cases found
      · exact mainPages pageId

/-- Storing a whole pending page keeps the replay sound. -/
theorem stored {page : PendingRecoveryPage}
    (length : page.data.length = pageSize) (lsn : page.lsn ≤ offset) (pageId : PageId)
    : (replay.stored pageId page).Sound pageSize offset where
  queued := sound.queued
  indexed := sound.indexed
  pending other found held := by
    simp only [Replay.stored, Std.ExtTreeMap.getElem?_insert] at held
    split at held
    · cases held
      exact ⟨length, lsn⟩
    · exact sound.pending other found held
  pendingSize := by
    have grows := Std.ExtTreeMap.size_insert_le (t := replay.pendingPages) (k := pageId) (v := page)
    exact le_trans grows (Nat.succ_le_succ sound.pendingSize)

end

/-- Adding the pending pages to the index keeps its queue. -/
theorem foldl_addVersion_wellQueued (pages : List (PageId × PendingRecoveryPage))
    {index : WalIndex} (queued : index.WellQueued)
    : (pages.foldl (fun index (pageId, pending) =>
      index.addVersion pageId pending.version false) index).WellQueued := by
  induction pages generalizing index with
  | nil => exact queued
  | cons page rest ih => exact ih (queued.addVersion _ _ _)

variable (sound : replay.Sound pageSize offset)
include sound

/-- A commit frame keeps the replay sound. -/
theorem commitPending : replay.commitPending.Sound pageSize offset where
  queued := foldl_addVersion_wellQueued _ sound.queued
  indexed pageId versions found := by
    rw [pages_commitPending] at found
    cases held : replay.pendingPages[pageId]? with
    | some page =>
      rw [held] at found
      cases found
      exact ⟨page, rfl, sound.pending pageId page held⟩
    | none =>
      rw [held] at found
      exact sound.indexed pageId versions found
  pending := by simp [Replay.commitPending]
  pendingSize := Nat.le_refl 0

variable (mainPages : ∀ pageId, (storage.main pageId).length = pageSize)
include mainPages

/-- Every frame keeps the replay sound. -/
theorem replayFrame (wellFormed : frame.WellFormed pageSize)
    (ran : replay.replayFrame storage pageSize offset frame = .ok next)
    : next.Sound pageSize (offset + frame.encodedLen pageSize) := by
  have later := sound.mono (Nat.le_add_right offset (frame.encodedLen pageSize))
  cases replayed_of_replayFrame ran with
  | page type _ lsn data =>
    refine later.stored ?_ (le_of_eq lsn) frame.pageId
    rw [data, wellFormed.payloadLength, type]
    rfl
  | delta type _ lsn found applied =>
    refine later.stored ?_ (le_of_eq lsn) frame.pageId
    rw [length_applyPageDelta applied, sound.length_deltaBase mainPages found]
  | commit => exact later.commitPending
  | checkpoint => exact ⟨later.queued, later.indexed, by simp, Nat.zero_le _⟩

/-- By induction on the frames. -/
theorem replayList (reads : ReadsAs storage.wal pageSize logicalEnd offset frames)
    (ran : replayList storage pageSize offset replay frames = .ok next)
    : next.Sound pageSize (offset + framesLen pageSize frames) := by
  induction frames generalizing offset replay with
  | nil =>
    cases ran
    exact sound
  | cons frame rest ih =>
    obtain ⟨decoded, others⟩ := reads
    obtain ⟨middle, first, later⟩ := bind_eq_ok.mp ran
    have step := sound.replayFrame mainPages (decodeFromFile_spec decoded).wellFormed first
    rw [FramesAt.framesLen_cons, ← add_assoc]
    exact ih step others later

end Sound

-- Pending frames

/-- A page frame is counted, and a commit frame starts the count over. -/
theorem Replayed.pendingFrames (replayed : Replayed storage pageSize offset replay frame next)
    : next.pendingFrames = if frame.frameType.carriesPage then replay.pendingFrames + 1 else 0 := by
  cases replayed with
  | page type | delta type | commit type | checkpoint type => rw [type]; rfl

/-- Whether no page frame is pending after the frames. -/
def closedAfter : Bool → List WalFrame → Bool
  | closed, [] => closed
  | _, frame :: rest => closedAfter (!frame.frameType.carriesPage) rest

/-- By induction on the frames. -/
theorem pendingFrames_eq_zero_iff {closed : Bool} (before : closed ↔ replay.pendingFrames = 0)
    (ran : replayList storage pageSize offset replay frames = .ok next)
    : next.pendingFrames = 0 ↔ closedAfter closed frames := by
  induction frames generalizing offset replay closed with
  | nil =>
    cases ran
    exact before.symm
  | cons frame rest ih =>
    obtain ⟨middle, first, later⟩ := bind_eq_ok.mp ran
    refine ih ?_ later
    rw [(replayed_of_replayFrame first).pendingFrames]
    cases frame.frameType.carriesPage <;> simp

/-- Page frames without a marker between them stay within the limit, by induction on them. -/
theorem pendingFrames_le (carry : ∀ frame ∈ frames, frame.frameType.carriesPage)
    (ran : replayList storage pageSize offset replay frames = .ok next)
    : frames = [] ∨ replay.pendingFrames + frames.length ≤ maxPendingRecoveryFrames := by
  induction frames generalizing offset replay with
  | nil => exact .inl rfl
  | cons frame rest ih =>
    right
    obtain ⟨carries, others⟩ := List.forall_mem_cons.mp carry
    obtain ⟨middle, first, later⟩ := bind_eq_ok.mp ran
    have replayed := replayed_of_replayFrame first
    have room : replay.pendingFrames < maxPendingRecoveryFrames := by
      cases replayed with
      | page _ room => exact room
      | delta _ room => exact room
      | commit type => simp [type, FrameType.carriesPage] at carries
      | checkpoint type => simp [type, FrameType.carriesPage] at carries
    have count := replayed.pendingFrames
    rw [if_pos carries] at count
    rw [List.length_cons]
    rcases ih others later with rfl | bound
    · exact room
    · omega

end Replay

-- Accepted files

/-- Whether the bytes from the offset to the logical end are whole frames, of which the last is
no page frame.
-/
def scanClosed (file : ByteFile) (pageSize logicalEnd : Nat) : Nat → Nat → Bool → Bool
  | 0, _, closed => closed
  | turns + 1, offset, closed =>
    if offset < logicalEnd then
      match WalFrame.decodeFromFile file offset pageSize logicalEnd with
      | .ok (some frame) =>
        scanClosed file pageSize logicalEnd turns (offset + frame.encodedLen pageSize)
          (!frame.frameType.carriesPage)
      | _ => false
    else closed

/-- A WAL file whose bytes before the header's end offset are whole frames, of which the last is
no page frame; also a file that is still empty.
-/
def endsClosed (config : WalConfig) (file : ByteFile) : Bool :=
  if file.size = 0 then true
  else
    let logicalEnd := leNat (file.slice 16 8)
    scanClosed file config.pageSize logicalEnd logicalEnd walHeaderSize true

/-- The scan reads the same frames as the replay, by induction on the turns. -/
theorem scanClosed_iff {file : ByteFile} {pageSize logicalEnd turns offset : Nat}
    (enough : logicalEnd ≤ offset + turns) (reads : ReadsAs file pageSize logicalEnd offset frames)
    (stopped : WalFrame.decodeFromFile file (offset + framesLen pageSize frames) pageSize logicalEnd
      = .ok none) (closed : Bool)
    : scanClosed file pageSize logicalEnd turns offset closed
      ↔ logicalEnd ≤ offset + framesLen pageSize frames ∧ closedAfter closed frames := by
  induction turns generalizing offset frames closed with
  | zero =>
    cases frames with
    | nil => simpa [scanClosed, closedAfter, FramesAt.framesLen_nil] using fun _ => enough
    | cons frame rest =>
      have inside := (decodeFromFile_spec reads.1).inside
      have positive := frame.encodedLen_pos pageSize
      omega
  | succ turns ih =>
    rw [scanClosed]
    cases frames with
    | nil =>
      rw [FramesAt.framesLen_nil, add_zero] at stopped ⊢
      split
      next more =>
        rw [stopped]
        simp only [Bool.false_eq_true, false_iff, not_and]
        omega
      next ended => simpa [closedAfter] using fun _ => not_lt.mp ended
    | cons frame rest =>
      obtain ⟨decoded, others⟩ := reads
      have inside := (decodeFromFile_spec decoded).inside
      have positive := frame.encodedLen_pos pageSize
      rw [if_pos (by omega), decoded]
      rw [FramesAt.framesLen_cons, ← add_assoc] at stopped ⊢
      exact ih (by omega) others stopped _

/-- What recovery has found in a file that it accepts: the frames that it read, and the end of
the replay.
-/
structure Accepted (config : WalConfig) (storage : Storage) (endLsn : Nat)
    (frames : List WalFrame) (last : Replay) : Prop where
  header : HeaderAt storage.wal config.pageSize endLsn
  fits : endLsn < 2 ^ 64
  reads : ReadsAs storage.wal config.pageSize endLsn walHeaderSize frames
  replayed : Replay.replayList storage config.pageSize walHeaderSize .start frames = .ok last
  stopped : WalFrame.decodeFromFile storage.wal
    (walHeaderSize + framesLen config.pageSize frames) config.pageSize endLsn = .ok none

/-- A log that recovery accepts leaves a sound replay. -/
theorem Accepted.sound {endLsn : Nat} {last : Replay}
    (accepted : Accepted config storage endLsn frames last)
    (mainPages : ∀ pageId, (storage.main pageId).length = config.pageSize)
    : last.Sound config.pageSize (walHeaderSize + framesLen config.pageSize frames) :=
  (start_sound config.pageSize walHeaderSize).replayList mainPages accepted.reads accepted.replayed

section Recovery

/-- Recovery reads the frames of the file that it leaves. -/
theorem initializeOrRecover_accepted
    (ran : initializeOrRecover config path storage none = .ok first)
    : first.storage.main = storage.main ∧ first.indexSidecar = none
      ∧ first.endLsn ≤ storage.wal.size
      ∧ ∃ frames last, Accepted config first.storage first.endLsn frames last
        ∧ first.index = last.index ∧ (endsClosed config storage.wal
          ↔ first.endLsn ≤ walHeaderSize + framesLen config.pageSize frames
            ∧ closedAfter true frames) := by
  unfold initializeOrRecover at ran
  split at ran
  next fresh =>
    cases ran
    refine ⟨rfl, rfl, Nat.zero_le _, [], .start,
      ⟨.of_encode _ _, Nat.two_pow_pos 64, trivial, rfl, ?_⟩, rfl, ?_⟩
    · rw [WalFrame.decodeFromFile, if_pos (Nat.zero_le _)]
    · simp [endsClosed, fresh, closedAfter]
  next used =>
    obtain ⟨header, read, ran⟩ := bind_eq_ok.mp ran
    obtain ⟨last, replays, ran⟩ := bind_eq_ok.mp ran
    cases ran
    obtain ⟨named, field⟩ := HeaderAt.of_readHeader read
    have fits : header.walEndOffset < 2 ^ 64 := by
      rw [← field]
      have bound := LittleEndian.leNat_lt (storage.wal.slice 16 8)
      rwa [ByteFile.length_slice] at bound
    obtain ⟨frames, reads, list, stopped⟩ := replayFrames_eq_ok (by omega) replays
    refine ⟨rfl, rfl, named.inside, frames, last, ⟨named, fits, reads, list, stopped⟩, rfl, ?_⟩
    dsimp only
    rw [endsClosed, if_neg used, field]
    exact scanClosed_iff (by omega) reads stopped true

end Recovery

end DecentDb.Wal
