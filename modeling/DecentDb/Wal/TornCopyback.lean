import DecentDb.Wal.IndexSources

/-! A checkpoint that stops in the middle of its copyback leaves pages of the main file that
mix old bytes with those of the last commit. Recovery of the untruncated WAL over such a file
is recovery over the old one.
-/

namespace DecentDb.Wal

open List Replay Std.ExtTreeMap WalIndex
open Overlays (fromAnyImage)

-- Replays that differ in page bytes only

/-- The version without its page bytes. -/
def WalVersion.blank (version : WalVersion) : WalVersion :=
  match version.payload with
  | .resident _ walOffset frameLen encoding =>
    { version with payload := .resident [] walOffset frameLen encoding }
  | .onDisk .. => version

def WalIndex.blank (index : WalIndex) : WalIndex :=
  { index with pages := index.pages.map fun _ versions => versions.map WalVersion.blank }

def PendingRecoveryPage.blank (page : PendingRecoveryPage) : PendingRecoveryPage :=
  { page with data := [] }

variable {log : List (List PageEdit)} {frames : List WalFrame} {config : WalConfig}
  {main torn : PageId → Page} {condition : List PageEdit → WalHandle → Prop} {state : WalState}
  {pageSize : Nat} {storage : Storage} {committed pending edits : List PageEdit}

namespace Replay

/-- The replay without any page bytes. -/
def blank (replay : Replay) : Replay :=
  {
    index := replay.index.blank
    pendingFrames := replay.pendingFrames
    pendingPages := replay.pendingPages.map fun _ page => page.blank
  }

/-- Changing all values commutes with an insert. -/
theorem map_insert {Value Other : Type} (pages : Std.ExtTreeMap PageId Value)
    (change : Value → Other) (pageId : PageId) (value : Value)
    : (pages.insert pageId value).map (fun _ => change)
      = (pages.map fun _ => change).insert pageId (change value) := by
  refine Std.ExtTreeMap.ext_getElem? fun other => ?_
  rw [Std.ExtTreeMap.getElem?_map, Std.ExtTreeMap.getElem?_insert, Std.ExtTreeMap.getElem?_insert,
    Std.ExtTreeMap.getElem?_map]
  split <;> rfl

/-- Storing a page commutes with forgetting the bytes. -/
theorem blank_stored (replay : Replay) (pageId : PageId) (page : PendingRecoveryPage)
    : (replay.stored pageId page).blank = replay.blank.stored pageId page.blank := by
  simp only [blank, stored, map_insert]

/-- Adding a version commutes with forgetting the bytes. -/
theorem blank_addVersion (index : WalIndex) (pageId : PageId) (version : WalVersion)
    : (index.addVersion pageId version false).blank
      = index.blank.addVersion pageId version.blank false := by
  have inserted : (index.pages.insert pageId [version]).map
    (fun _ versions => versions.map WalVersion.blank)
    = index.blank.pages.insert pageId [version.blank] :=
    map_insert index.pages (map WalVersion.blank) pageId [version]
  unfold WalIndex.addVersion WalIndex.store WalIndex.markDirtySinceDemote
  simp only [Bool.false_eq_true, if_false]
  by_cases dirty : pageId ∈ index.dirtySinceDemote
  · rw [if_pos (by exact dirty), if_pos (by exact dirty)]
    simp only [WalIndex.blank, WalIndex.touch, inserted]
  · rw [if_neg (by exact dirty), if_neg (by exact dirty)]
    simp only [WalIndex.blank, WalIndex.touch, inserted]

/-- Adding the pending pages commutes with forgetting the bytes. -/
theorem blank_foldl_addVersion (pages : List (PageId × PendingRecoveryPage)) (index : WalIndex)
    : (pages.foldl (fun index (pageId, pending) =>
      index.addVersion pageId pending.version false) index).blank
      = (pages.map fun page => (page.1, page.2.blank)).foldl (fun index (pageId, pending) =>
        index.addVersion pageId pending.version false) index.blank := by
  induction pages generalizing index with
  | nil => rfl
  | cons first rest ih =>
    simp only [foldl_cons, map_cons, ih, blank_addVersion]
    rfl

/-- A commit frame commutes with forgetting the bytes. -/
theorem blank_commitPending (replay : Replay)
    : replay.commitPending.blank = replay.blank.commitPending := by
  have empty : (∅ : Std.ExtTreeMap PageId PendingRecoveryPage).map (fun _ page => page.blank)
    = ∅ := rfl
  unfold commitPending
  simp only [blank, blank_foldl_addVersion, toList_map, empty]

/-- Two replays of the same edits over two main files: the same error, or states that differ
in page bytes only.
-/
inductive Alike (pageSize : Nat) (main torn : PageId → Page) (committed pending : List PageEdit)
    : DbResult Replay → DbResult Replay → Prop where
  | error (error : DbError) : Alike pageSize main torn committed pending (.error error) (.error error)
  | ok {left right : Replay} (same : left.blank = right.blank)
    (leftHolds : left.Holds pageSize main committed pending)
    (rightHolds : right.Holds pageSize torn committed pending)
    : Alike pageSize main torn committed pending (.ok left) (.ok right)

/-- One page frame too many is an error, whatever the pages hold. -/
theorem Holds.replayFrame_overflow {replay : Replay}
    (holds : replay.Holds pageSize storage.main committed pending)
    (full : maxPendingRecoveryFrames ≤ pending.length) {edit : PageEdit} {frame : WalFrame}
    (records : Records pageSize edit frame) (offset : Nat)
    : replay.replayFrame storage pageSize offset frame
      = .error (.corruption recoveryPendingOverflowMessage) := by
  have overflow : replay.pushPendingFrame
    = .error (.corruption recoveryPendingOverflowMessage) := by
    rw [pushPendingFrame, if_pos (by rw [holds.pendingFrames]; exact full)]
  cases records <;> simp only [Replay.replayFrame, overflow, error_bind]

section Lockstep

variable (mainPages : ∀ pageId, (storage.main pageId).length = pageSize)
include mainPages

variable (tornPages : ∀ pageId, (torn pageId).length = pageSize)
include tornPages

/-- The frames of a transaction, by induction on them. -/
theorem Alike.replayList_records (records : Forall₂ (Records pageSize) edits frames)
    {left right : Replay} (same : left.blank = right.blank)
    (leftHolds : left.Holds pageSize storage.main committed pending)
    (rightHolds : right.Holds pageSize torn committed pending) (offset : Nat)
    : Alike pageSize storage.main torn committed (pending ++ edits)
      (replayList storage pageSize offset left frames)
      (replayList { storage with main := torn } pageSize offset right frames) := by
  have tornHolds : right.Holds pageSize ({ storage with main := torn } : Storage).main committed
    pending := rightHolds
  induction records generalizing left right pending offset with
  | nil => simpa using .ok same leftHolds rightHolds
  | @cons edit frame edits frames first others ih =>
    rw [replayList, replayList]
    by_cases room : pending.length < maxPendingRecoveryFrames
    · rw [leftHolds.replayFrame mainPages room first offset,
      tornHolds.replayFrame tornPages room first offset]
      have leftNext := leftHolds.stored first.sized (pendingPage pageSize offset frame
        (rebuilt storage.main (committed ++ (pending ++ [edit])) edit.1)) rfl
      have rightNext := tornHolds.stored first.sized (pendingPage pageSize offset frame
        (rebuilt torn (committed ++ (pending ++ [edit])) edit.1)) rfl
      have more := ih (by rw [blank_stored, blank_stored, same]; rfl) leftNext rightNext
        (offset + frame.encodedLen pageSize) rightNext
      rw [append_assoc] at more
      exact more
    · rw [leftHolds.replayFrame_overflow (le_of_not_gt room) first offset,
      tornHolds.replayFrame_overflow (le_of_not_gt room) first offset]
      exact .error _

variable (storage) in
/-- The frames of a whole log, by induction on its transactions. -/
theorem Alike.replayList_log (logged : LogFrames pageSize log frames)
    : Alike pageSize storage.main torn log.flatten []
      (replayList storage pageSize walHeaderSize .start frames)
      (replayList { storage with main := torn } pageSize walHeaderSize .start frames) := by
  induction logged with
  | nil => exact .ok rfl (holds_start pageSize storage.main) (holds_start pageSize torn)
  | @snoc log frames more edits earlier records ih =>
    rw [replayList_append, replayList_append]
    generalize replayList storage pageSize walHeaderSize .start frames = before at ih ⊢
    generalize replayList { storage with main := torn } pageSize walHeaderSize .start frames
      = tornBefore at ih ⊢
    cases ih with
    | error error => exact .error error
    | ok same leftHolds rightHolds =>
      have next := replayList_records mainPages tornPages records same leftHolds rightHolds
        (walHeaderSize + framesLen pageSize frames)
      simp only [Except.bind, replayList_append]
      generalize replayList storage pageSize _ _ more = left at next ⊢
      generalize replayList { storage with main := torn } pageSize _ _ more = right at next ⊢
      cases next with
      | error error => exact .error error
      | ok same leftHolds rightHolds =>
        have flat : (log ++ [edits]).flatten = log.flatten ++ ([] ++ edits) := by simp
        rw [flat]
        refine .ok ?_ leftHolds.commitPending rightHolds.commitPending
        rw [blank_commitPending, blank_commitPending, same]

end Lockstep

/-- Replays without pending pages that rebuild the same pages are equal. -/
theorem Holds.eq_of_blank {main torn : PageId → Page}
    {left right : Replay} (leftHolds : left.Holds pageSize main committed [])
    (same : left.blank = right.blank) (rightHolds : right.Holds pageSize torn committed [])
    (rebuilds : ∀ pageId, rebuilt torn committed pageId = rebuilt main committed pageId)
    : right = left := by
  have pages : right.index.pages = left.index.pages := by
    refine Std.ExtTreeMap.ext_getElem? fun pageId => ?_
    by_cases unedited : editsOf pageId committed = []
    · rw [leftHolds.unindexed pageId unedited, rightHolds.unindexed pageId unedited]
    obtain ⟨lsn, walOffset, frameLen, encoding, leftFound⟩ := leftHolds.indexed pageId unedited
    obtain ⟨lsn', walOffset', frameLen', encoding', rightFound⟩ :=
      rightHolds.indexed pageId unedited
    have blanks : left.index.blank.pages[pageId]? = right.index.blank.pages[pageId]? :=
      congrArg (fun replay : Replay => replay.index.pages[pageId]?) same
    simp only [WalIndex.blank, Std.ExtTreeMap.getElem?_map, leftFound, rightFound,
      Option.map_some, map_cons, map_nil, WalVersion.blank, Option.some.injEq,
      cons.injEq, WalVersion.mk.injEq, WalVersionPayload.resident.injEq] at blanks
    obtain ⟨⟨rfl, -, rfl, rfl, rfl⟩, -⟩ := blanks
    rw [leftFound, rightFound, rebuilds]
  have none (replay : Replay) {file : PageId → Page}
    (holds : replay.Holds pageSize file committed []) : replay.pendingPages = ∅ :=
    Std.ExtTreeMap.ext_getElem? fun pageId => by rw [holds.unheld pageId rfl]; simp
  have index : right.index = left.index := by
    have rest := congrArg Replay.index same
    simp only [blank, WalIndex.blank, WalIndex.mk.injEq] at rest
    obtain ⟨-, order, epochs, dirty, next⟩ := rest
    cases leftIndex : left.index
    cases rightIndex : right.index
    simp only [leftIndex, rightIndex] at pages order epochs dirty next
    simp only [pages, order, epochs, dirty, next]
  cases left
  cases right
  simp only [Replay.mk.injEq]
  refine ⟨index, ?_, (none _ rightHolds).trans (none _ leftHolds).symm⟩
  exact rightHolds.pendingFrames.trans leftHolds.pendingFrames.symm

end Replay

-- Recovery

/-- Every byte of the page is that of the old image or that of the new one. -/
def TornPage (old new page : Page) : Prop :=
  page.length = old.length
  ∧ ∀ index : Nat, page[index]? = old[index]? ∨ page[index]? = new[index]?

section Torn

variable {pageId : PageId} (logged : state.Logged config main fromAnyImage condition log frames)
  (mixed : TornPage (main pageId) (state.spec.valueAt pageId state.handle.walEndLsn) (torn pageId))
include logged mixed

/-- The edits rebuild a torn page as they rebuild the old one. -/
theorem rebuilt_of_torn : rebuilt torn log.flatten pageId = rebuilt main log.flatten pageId := by
  obtain ⟨length, bytes⟩ := mixed
  refine (logged.history pageId).replay_mixed length fun index => ?_
  rcases bytes index with old | new
  · exact .inl old
  rw [logged.valueAt] at new
  rcases eq_nil_or_concat (editsOf pageId log.flatten) with none | ⟨earlier, edit, some⟩
  · rw [none] at new
    exact .inl new
  · rw [concat_eq_append] at some
    rw [some, Overlays.lastImage_snoc] at new
    exact .inr ⟨edit, by simp [some], new⟩

end Torn

/-- Recovering an untruncated WAL over a main file into which any bytes of the last committed
images were copied returns what recovering it over the old main file returns, and every page
has the same image.
-/
theorem torn_copyback_recovers_same {config recovery : WalConfig} {main torn : PageId → Page}
    (mainPages : ∀ pageId, (main pageId).length = config.pageSize) {actions : List WalAction}
    {final : WalState} (noCheckpoint : .beginCheckpoint ∉ actions)
    (ran : (walSystem config).run (.opened config main) actions = some final)
    (idle : final.writer = .idle) (fits : final.handle.walEndLsn < 2 ^ 64)
    (samePageSize : recovery.pageSize = config.pageSize) (mixed : ∀ pageId, TornPage (main pageId)
      (final.spec.valueAt pageId final.handle.walEndLsn) (torn pageId))
    (path : String) (sidecar : Option WalIndexSidecar)
    : (initializeOrRecover recovery path { final.storage with main := torn } sidecar).map
      (fun recovered => (recovered.index, recovered.indexSidecar, recovered.endLsn))
      = (initializeOrRecover recovery path { final.storage with main } sidecar).map
        (fun recovered => (recovered.index, recovered.indexSidecar, recovered.endLsn))
      ∧ ∀ pageId, (initializeOrRecover recovery path { final.storage with main := torn } none).map
          (·.pageImage pageId)
        = (initializeOrRecover recovery path { final.storage with main } none).map
          (·.pageImage pageId) := by
  obtain ⟨log, frames, logged⟩ := run_logged (indexRule_fromAnyImage mainPages) mainPages
    (fun _ _ => by simp [WalState.opened]) (meets_chunkGuard noCheckpoint _) ran
  have tornPages : ∀ pageId, (torn pageId).length = config.pageSize := fun pageId =>
    (mixed pageId).1.trans (mainPages pageId)
  have recovers (file : PageId → Page) (sidecar : Option WalIndexSidecar) :=
    logged.initializeOrRecover idle fits samePageSize path
      (rfl : ({ final.storage with main := file } : Storage).wal = final.storage.wal) sidecar
  have alike : Alike config.pageSize main torn log.flatten []
    (replayList { final.storage with main } config.pageSize walHeaderSize .start frames)
    (replayList { final.storage with main := torn } config.pageSize walHeaderSize .start
      frames) :=
    Alike.replayList_log { final.storage with main } mainPages tornPages logged.logFrames
  simp only [recovers]
  generalize replayList { final.storage with main } _ _ _ frames = left at alike ⊢
  generalize replayList { final.storage with main := torn } _ _ _ frames = right at alike ⊢
  cases alike with
  | error error => exact ⟨rfl, fun _ => rfl⟩
  | @ok left right same leftHolds rightHolds =>
    have equal : right = left := leftHolds.eq_of_blank same rightHolds fun pageId =>
      rebuilt_of_torn logged (mixed pageId)
    subst equal
    refine ⟨?_, fun pageId => ?_⟩
    · simp only [Except.bind]
      cases spillRecoveredLatestVersions recovery right.index sidecar <;> rfl
    simp only [Except.bind, spillRecoveredLatestVersions, Except.map, Recovered.pageImage]
    by_cases unedited : editsOf pageId log.flatten = []
    · have same := rebuilt_of_torn logged (mixed pageId)
      rw [rebuilt_of_unedited unedited, rebuilt_of_unedited unedited] at same
      rw [same]
    · obtain ⟨lsn, walOffset, frameLen, encoding, found⟩ := leftHolds.indexed pageId unedited
      simp only [versions, found, Option.getD_some, getLast?_singleton]

/-- A page whose first two bytes are set. -/
def twoBytePage (first second : UInt8) : Page := first :: second :: replicate 4094 0

/-- The page of the example is a whole page. -/
theorem length_twoBytePage (first second : UInt8) : (twoBytePage first second).length = 4096 := by
  rw [twoBytePage, length_cons, length_cons, length_replicate]

/-- Page 2 is committed twice, and a checkpoint stops when it has copied one of its two
changed bytes.
-/
theorem torn_copyback_recovers_same_halfway
    : ∃ final, (walSystem .default).run (.opened .default fun _ => twoBytePage 0 0)
      (commitActions [(2, twoBytePage 1 0)] ++ commitActions [(2, twoBytePage 1 2)]) = some final
      ∧ ∀ pageId, (initializeOrRecover .default "db.wal" { final.storage with
          main := Function.update (fun _ => twoBytePage 0 0) 2 (twoBytePage 0 2) } none).map
          (·.pageImage pageId)
        = (initializeOrRecover .default "db.wal"
          { final.storage with main := fun _ => twoBytePage 0 0 } none).map
          (·.pageImage pageId) := by
  refine Evaluation.exists_of_checked (fun final => final.writer = .idle
    ∧ final.handle.walEndLsn < 2 ^ 64
    ∧ (final.spec.valueAt 2 final.handle.walEndLsn)[1]? = some 2) (by decide +kernel) ?_
  rintro final ran ⟨idle, fits, second⟩
  have pages : ∀ pageId : PageId,
    ((fun _ => twoBytePage 0 0 : PageId → Page) pageId).length = WalConfig.default.pageSize :=
    fun _ => length_twoBytePage 0 0
  refine (torn_copyback_recovers_same pages (by decide) ran idle fits rfl (fun pageId => ?_)
    "db.wal" none).2
  by_cases torn : pageId = 2
  · subst torn
    rw [Function.update_self]
    refine ⟨(length_twoBytePage 0 2).trans (length_twoBytePage 0 0).symm, fun index => ?_⟩
    -- Only the second byte is the new one.
    match index with
    | 0 | index + 2 => exact .inl rfl
    | 1 => exact .inr second.symm
  · rw [Function.update_of_ne torn]
    exact ⟨rfl, fun _ => .inl rfl⟩

end DecentDb.Wal
