import DecentDb.Wal.RecoveredHandle
import DecentDb.Wal.WholeCommit

/-! Recovery, one more commit, and recovery again. If the first recovery ended after whole frames
with nothing pending, the second one shows the images of the first with the commit on top.
-/

namespace DecentDb.Wal

open FramesAt List Replay

open Overlays (fromLastImage lastImage)

-- Reading again

variable {frames : List WalFrame} {file changed : ByteFile}
  {pageSize logicalEnd offset newEnd lsn endLsn : Nat} {more : List WalFrame}
  {edits : List PageEdit} {config : WalConfig} {pages : List (PageId × Page)} {last : Replay}
  {path : String} {storage opened filed : Storage} {first : Recovered} {coordinated : Bool}
  {handle after : WalHandle} {main : PageId → Page} {offers : PageId → Page → Prop}

/-- Frames after frames are read one after the other. -/
theorem ReadsAs.append : ReadsAs file pageSize logicalEnd offset (frames ++ more)
      ↔ ReadsAs file pageSize logicalEnd offset frames
        ∧ ReadsAs file pageSize logicalEnd (offset + framesLen pageSize frames) more := by
  induction frames generalizing offset with
  | nil => simp [ReadsAs]
  | cons frame rest ih =>
    rw [cons_append, ReadsAs, ReadsAs, ih, and_assoc, framesLen_cons, add_assoc]

/-- Frames that were read are read again from a file with the same bytes there. -/
theorem ReadsAs.again (reads : ReadsAs file pageSize logicalEnd offset frames)
    (inside : offset + framesLen pageSize frames ≤ newEnd) (fileSize : newEnd ≤ changed.size)
    (same : ∀ position, offset ≤ position → position < offset + framesLen pageSize frames
      → changed.byteAt position = file.byteAt position)
    : ReadsAs changed pageSize newEnd offset frames := by
  induction frames generalizing offset with
  | nil => trivial
  | cons frame rest ih =>
    obtain ⟨decoded, others⟩ := reads
    rw [framesLen_cons] at inside same
    refine ⟨(decodeFromFile_spec decoded).decodeFromFile (by omega) fileSize
      fun position low high => same position low (by omega), ?_⟩
    exact ih others (by omega) fun position low high => same position (by omega) (by omega)

/-- Of the storage, the replay of frames reads only the main file. -/
theorem Replay.replayList_congr {storage filed : Storage} (main : filed.main = storage.main)
    (pageSize : Nat) (frames : List WalFrame) (offset : Nat) (replay : Replay)
    : replayList filed pageSize offset replay frames
      = replayList storage pageSize offset replay frames := by
  have bases (replay : Replay) : replay.deltaBase filed = replay.deltaBase storage := by
    funext pageId
    unfold deltaBase Storage.readPageFromDisk
    rw [main]
  have steps (replay : Replay) (offset : Nat) (frame : WalFrame)
    : replay.replayFrame filed pageSize offset frame
      = replay.replayFrame storage pageSize offset frame := by
    unfold replayFrame
    simp [bases]
  induction frames generalizing offset replay with
  | nil => rfl
  | cons frame rest ih =>
    simp only [replayList, steps]
    congr
    funext next
    exact ih _ next

/-- The frame of an edit carries a page. -/
theorem Records.carriesPage {edit : PageEdit} {frame : WalFrame}
    (records : Records pageSize edit frame) : frame.frameType.carriesPage := by
  cases records <;> rfl

/-- Where a commit starts if the WAL ends at the LSN. -/
def commitStart (endLsn : Nat) : Nat := if endLsn = 0 then walHeaderSize else endLsn

section Again

variable (accepted : Accepted config storage endLsn frames last)
  (ended : endLsn ≤ walHeaderSize + framesLen config.pageSize frames)
include accepted ended

/-- A closed content ends where the next commit starts. -/
theorem Accepted.commitStart_eq
    : commitStart endLsn = walHeaderSize + framesLen config.pageSize frames := by
  have header : walHeaderSize = 32 := rfl
  unfold commitStart
  rcases accepted.reads.inside with rfl | inside
  · rw [framesLen_nil] at ended ⊢
    rcases accepted.header.valid with fresh | used
    · rw [if_pos fresh, add_zero]
    · rw [if_neg (by omega)]
      omega
  · rw [if_neg (by omega)]
    omega

/-- The second recovery goes on with the frames of the commit where the first one ended. -/
theorem Accepted.recovers_again
    (stored : CommitStored config offers (commitStart endLsn) storage filed pages lsn edits more)
    (fits : lsn < 2 ^ 64) (path : String)
    : initializeOrRecover config path filed none
      = (replayList storage config.pageSize (commitStart endLsn) last (more ++ [commitFrame])).map
        fun final =>
          { storage := filed, index := final.index, indexSidecar := none, endLsn := lsn } := by
  have start := accepted.commitStart_eq ended
  have frameStored := stored.stored
  have ends := stored.ends
  rw [start] at frameStored ends ⊢
  have reads : ReadsAs filed.wal config.pageSize lsn walHeaderSize
    (frames ++ (more ++ [commitFrame])) := by
    refine ReadsAs.append.mpr ⟨?_, frameStored.readsAs (le_of_eq ends.symm)⟩
    refine accepted.reads.again (by omega) stored.header.inside fun position low high => ?_
    exact stored.kept position low (by omega)
  have whole : lsn ≤ walHeaderSize
    + framesLen config.pageSize (frames ++ (more ++ [commitFrame])) := by
    rw [framesLen_append]
    omega
  rw [initializeOrRecover_reads stored.header reads whole fits,
    replayList_congr stored.main, replayList_append, accepted.replayed]
  show Except.bind (replayList storage config.pageSize _ last _) _ = _
  cases replayList storage config.pageSize
    (walHeaderSize + framesLen config.pageSize frames) last (more ++ [commitFrame]) <;> rfl

end Again

-- Closed contents

namespace OpenedKept

/-- A handle that has just been opened has nothing to promote. -/
theorem promotionsStay (kept : OpenedKept config main edits handle)
    (pages : List (PageId × Page)) : handle.PromotionsStay config pages := by
  by_cases unlimited : config.walIndexHotSetPages = 0
  · exact .inr (.inr fun page _ => kept.newest.unspilled unlimited page.1)
  · refine .inr (.inl ?_)
    rw [kept.single, Finset.card_empty]
    exact pos_of_ne_zero unlimited

/-- The commit takes its bases from the recovered images, and none for the header page. -/
theorem basesOffered (mainPages : ∀ pageId, (main pageId).length = config.pageSize)
    (sized : ∀ edit ∈ edits, edit.2.Sized config.pageSize)
    : BasesOffered config main (fun pageId base => pageId ≠ headerPageId
        ∧ fromLastImage (main pageId) (editsOf pageId edits) base)
      (fun _ _ => True) (OpenedKept config main edits) where
  same kept index sidecar walEnd :=
    ⟨(indexRule_fromLastImage mainPages).same kept.newest index sidecar walEnd,
      by rw [index]; exact kept.single⟩
  lookup {handle storage pages after result} kept mainFile _ looked := by
    obtain ⟨newest, found⟩ := (indexRule_fromLastImage mainPages).lookup kept.newest sized mainFile
      (kept.promotionsStay pages) looked
    refine ⟨⟨newest, ?_⟩, fun bases same => ?_⟩
    · have moved := handle.lookupBasePages_moved config storage handle.walEndLsn pages
      rw [looked] at moved
      rw [moved.multiVersionPages]
      exact kept.single
    obtain ⟨length, offered⟩ := found bases same
    refine ⟨length, fun pair member ordinary image usable => ?_⟩
    obtain ⟨offers, sized⟩ := offered pair member ordinary image usable
    exact ⟨⟨ordinary, offers⟩, sized⟩

end OpenedKept

/-- The file is recovered, and every page has its last image of the commit, else the image that
the first recovery gave it.
-/
def ShowsCommit (config : WalConfig) (path : String) (first : Recovered)
    (pages : List (PageId × Page)) (filed : Storage) : Prop :=
  ∃ second, initializeOrRecover config path filed none = .ok second
    ∧ ∀ pageId, second.pageImage pageId
      = ((pages.reverse.find? (·.1 = pageId)).map Prod.snd).or (first.pageImage pageId)

section Closed

/-- The images that the first recovery shows. -/
theorem Replay.Sound.pageImage (sound : last.Sound config.pageSize offset)
    (index : first.index = last.index) (unspilled : first.indexSidecar = none) (pageId : PageId)
    : some (lastImage (first.storage.main pageId) (editsOf pageId last.index.imageEdits))
      = first.pageImage pageId := by
  have fields : first = {
    storage := first.storage
    index := last.index
    indexSidecar := none
    endLsn := first.endLsn
    } := by
    rw [← index, ← unspilled]
  rw [fields]
  exact sound.lastImage_imageEdits first.storage first.endLsn pageId

variable (accepted : Accepted config first.storage first.endLsn frames last)
  (mainPages : ∀ pageId, (first.storage.main pageId).length = config.pageSize)
  (index : first.index = last.index)
include accepted mainPages index

/-- What a whole commit stores behind accepted content. -/
theorem Accepted.commitStored (reopens : Reopens config first handle opened)
    (committed : handle.commitPages config opened pages = (after, filed, .ok lsn))
    : ∃ edits more, CommitStored config (fun pageId base => pageId ≠ headerPageId
        ∧ fromLastImage (first.storage.main pageId) (editsOf pageId last.index.imageEdits) base)
      (commitStart first.endLsn) first.storage filed pages lsn edits more := by
  have sound := accepted.sound mainPages
  have ends : walHeaderSize + framesLen config.pageSize frames ≤ first.endLsn
    ∨ last.index.pages = ∅ := by
    rcases accepted.reads.inside with rfl | inside
    · have start := accepted.replayed
      cases start
      exact .inr rfl
    · exact .inl inside
  have kept : OpenedKept config first.storage.main last.index.imageEdits handle :=
    sound.openedKept index ends reopens
  obtain ⟨rfl, walEnd, -⟩ := reopens
  have start : (handle.beginCommit pages).offset = commitStart first.endLsn := by
    rw [← walEnd]
    rfl
  rw [← start]
  exact commitPages_stored (OpenedKept.basesOffered mainPages sound.sized_imageEdits) kept
    (walEnd ▸ accepted.header) committed

/-- After closed content a commit is shown exactly if it has no more frames than recovery
accepts.
-/
theorem Accepted.showsCommit_iff (unspilled : first.indexSidecar = none)
    (ended : first.endLsn ≤ walHeaderSize + framesLen config.pageSize frames)
    (closed : closedAfter true frames) (reopens : Reopens config first handle opened)
    (committed : handle.commitPages config opened pages = (after, filed, .ok lsn))
    (fits : lsn < 2 ^ 64)
    : ShowsCommit config path first pages filed ↔ pages.length ≤ maxPendingRecoveryFrames := by
  have sound := accepted.sound mainPages
  have nonePending : last.pendingFrames = 0 :=
    (pendingFrames_eq_zero_iff (by simp [start]) accepted.replayed).mpr closed
  obtain ⟨edits, more, stored⟩ := accepted.commitStored mainPages index reopens committed
  obtain ⟨prepared, run⟩ := stored.run
  have count : pages.length = more.length := by
    rw [← stored.writes, writesOf, length_map, run.records.length_eq]
  rw [ShowsCommit, accepted.recovers_again ended stored fits path]
  constructor
  · rintro ⟨second, ran, -⟩
    obtain ⟨final, replayed, -⟩ := map_eq_ok.mp ran
    rw [replayList_append] at replayed
    obtain ⟨middle, pageFrames, -⟩ := bind_eq_ok.mp replayed
    have bound := pendingFrames_le (fun frame member =>
      (run.records.flip.exists_of_mem member).elim fun _ edit => edit.2.carriesPage) pageFrames
    rcases bound with none | bound
    · rw [count, none]
      exact Nat.zero_le _
    · omega
  intro small
  have holds := sound.holds nonePending first.storage.main
  obtain ⟨middle, pageFrames, pending⟩ := holds.replayList_records mainPages run.records
    (by rw [run.records.length_eq]; simpa using count ▸ small) (commitStart first.endLsn)
  have whole := pending.commitPending
  rw [nil_append] at whole
  have final : replayList first.storage config.pageSize (commitStart first.endLsn) last
    (more ++ [commitFrame]) = .ok middle.commitPending := by
    rw [replayList_append, pageFrames]
    rfl
  rw [final]
  refine ⟨_, rfl, fun pageId => ?_⟩
  have history := (run.mono fun _ _ => And.right).history mainPages (sound.history mainPages)
  rw [← stored.main] at whole history
  rw [whole.pageImage history lsn pageId, stored.main, editsOf_append, ← stored.writes,
    find?_reverse_writesOf, ← sound.pageImage index unspilled pageId]
  rcases (editsOf pageId edits).eq_nil_or_concat with none | ⟨earlier, edit, written⟩
  · rw [none, append_nil]
    rfl
  · rw [written, concat_eq_append, ← append_assoc, Overlays.lastImage_snoc]
    simp

end Closed

end DecentDb.Wal
