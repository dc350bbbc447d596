import DecentDb.Wal.IndexSources
import DecentDb.Wal.RecoveredLog
import DecentDb.Wal.SnapshotIsolation

/-! Recovery replays the log exactly: as long as every base lookup finds the newest image, the
recovered index holds the last committed image of every page.
-/

namespace DecentDb.Wal

open List WalHandle

open Overlays (Edit fromLastImage lastImage)

-- Pages that stay where lookups find them

/-- No version of the page is past the end. -/
structure PageSlot.AtMost (slot : PageSlot) (walEnd : Nat) : Prop where
  versions : ∀ version ∈ slot.versions, version.lsn ≤ walEnd
  record : ∀ record ∈ slot.record, record.lsn ≤ walEnd

/-- The page has a version in the index or in the sidecar. -/
def PageSlot.Present (slot : PageSlot) : Prop := slot.versions ≠ [] ∨ slot.record ≠ none

variable {config : WalConfig} {pageSize : Nat} {offers : PageId → Page → Prop}
  {more edits : List PageEdit} {frames : List WalFrame} {prepared : List PreparedWalPage}
  {main : PageId → Page} {handle after : WalHandle}

section Moves

variable {before after : PageSlot}

/-- Moved versions stay below the end of the log. -/
theorem PageSlot.AtMost.of_moves {walEnd : Nat} (bounded : before.AtMost walEnd)
    (moves : PageMoves config before after) : after.AtMost walEnd := by
  obtain ⟨versions, record⟩ := moves.lsns (· ≤ walEnd) bounded.versions bounded.record
  exact ⟨versions, record⟩

/-- A page that has a version has one after a move. -/
theorem PageSlot.Present.of_moves (present : before.Present)
    (moves : PageMoves config before after) : after.Present := by
  induction moves with
  | refl => exact present
  | tail _ move ih =>
    cases move with
    | spill => exact .inr (by simp)
    | promote => exact .inl (by simp)
    | clear versions record indexed => exact .inl indexed

/-- Without a hot-set limit nothing is spilled, so nothing moves. -/
theorem PageMoves.eq_of_unlimited (moves : PageMoves config before after)
    (unlimited : config.walIndexHotSetPages = 0) (unspilled : before.record = none)
    : after = before := by
  induction moves with
  | refl => rfl
  | tail _ move ih =>
    subst ih
    cases move with
    | spill version record hot => exact absurd unlimited hot
    | promote => cases unspilled
    | clear =>
      dsimp only at unspilled
      rw [unspilled]

end Moves

/-- A base lookup finds the newest image of a page: every edited page has a version, and
without a hot-set limit the last one has the last image if it has bytes.
-/
structure NewestKept (config : WalConfig) (main : PageId → Page) (edits : List PageEdit)
    (handle : WalHandle) : Prop where
  queued : handle.index.WellQueued
  bounded : ∀ pageId, (handle.slot pageId).AtMost handle.walEndLsn
  present : ∀ pageId, editsOf pageId edits ≠ [] → (handle.slot pageId).Present
  unspilled : config.walIndexHotSetPages = 0 → ∀ pageId, handle.sidecarRecord pageId = none
  newest : config.walIndexHotSetPages = 0 → ∀ pageId, ∀ version,
    (handle.index.versions pageId).getLast? = some version
      → version.ResidentIn (· = lastImage (main pageId) (editsOf pageId edits))

namespace NewestKept

section

variable (kept : NewestKept config main edits handle)
include kept

/-- Moving versions keeps the newest ones. -/
theorem of_moved (moved : Moved config handle after)
    (walEnd : after.walEndLsn = handle.walEndLsn) (queued : after.index.WellQueued)
    : NewestKept config main edits after := by
  have stays (unlimited : config.walIndexHotSetPages = 0) (pageId : PageId)
      : after.slot pageId = handle.slot pageId :=
    (moved pageId).eq_of_unlimited unlimited (kept.unspilled unlimited pageId)
  refine ⟨queued, fun pageId => ?_, fun pageId edited => ?_, fun unlimited pageId => ?_,
    fun unlimited pageId => ?_⟩
  · rw [walEnd]
    exact (kept.bounded pageId).of_moves (moved pageId)
  · exact (kept.present pageId edited).of_moves (moved pageId)
  · exact (congrArg PageSlot.record (stays unlimited pageId)).trans
      (kept.unspilled unlimited pageId)
  have same : after.index.versions pageId = handle.index.versions pageId :=
    congrArg PageSlot.versions (stays unlimited pageId)
  rw [same]
  exact kept.newest unlimited pageId

/-- Demotion keeps the LSNs and the number of versions, and brings no bytes back. -/
theorem of_demotes
    (demotes : ∀ pageId, Forall₂ WalVersion.DemotesTo (handle.index.versions pageId)
      (after.index.versions pageId)) (sidecar : after.indexSidecar = handle.indexSidecar)
    (walEnd : after.walEndLsn = handle.walEndLsn) (queued : after.index.WellQueued)
    : NewestKept config main edits after := by
  have record (pageId : PageId) : after.sidecarRecord pageId = handle.sidecarRecord pageId := by
    rw [sidecarRecord, sidecarRecord, sidecar]
  refine ⟨queued, fun pageId => ⟨fun version member => ?_, ?_⟩, fun pageId edited => ?_,
    fun unlimited pageId => (record pageId).trans (kept.unspilled unlimited pageId),
    fun unlimited pageId version last => ?_⟩
  · obtain ⟨old, listed, demoted⟩ := (demotes pageId).flip.exists_of_mem member
    have below := (kept.bounded pageId).versions old listed
    rw [walEnd]
    rcases demoted with rfl | rfl <;> exact below
  · rw [walEnd]
    show ∀ found ∈ after.sidecarRecord pageId, _
    rw [record]
    exact (kept.bounded pageId).record
  · rcases kept.present pageId edited with indexed | spilled
    · refine .inl fun none => indexed ?_
      have length := (demotes pageId).length_eq
      rw [show after.index.versions pageId = [] from none] at length
      exact eq_nil_of_length_eq_zero length
    · exact .inr (by rw [slot, record]; exact spilled)
  have related := (demotes pageId).getLast?
  rw [last] at related
  generalize found : (handle.index.versions pageId).getLast? = old at related
  cases related with
  | some demoted => exact (kept.newest unlimited pageId _ found).of_demotes demoted

/-- The page's newest version is the last one. -/
theorem latestVisible (pageId : PageId) : handle.index.latestVisible pageId handle.walEndLsn
      = (handle.index.versions pageId).getLast? :=
  newestAtOrBefore_eq_getLast? (kept.bounded pageId).versions

end

-- Publication

section

variable (run : PreparedEdits pageSize offers more frames prepared) (retainHistory : Bool)
include run retainHistory

/-- A published version ends within the commit, by induction on the pages. -/
theorem publishPages_atMost (start walEnd : Nat) (ends : start + framesLen pageSize frames ≤ walEnd)
    (index : WalIndex) (bounded : ∀ pageId, ∀ version ∈ index.versions pageId, version.lsn ≤ walEnd)
    (pageId : PageId)
    : ∀ version ∈ (publishPages config retainHistory start index prepared).versions
      pageId, version.lsn ≤ walEnd := by
  induction run with
  | nil => exact bounded pageId
  | @snoc more frames prepared edit frame next run last base ih =>
    rw [FramesAt.framesLen_append, FramesAt.framesLen_cons, FramesAt.framesLen_nil] at ends
    have before := ih (by omega)
    have added : (preparedPageVersion next (start
      + (prepared.map PreparedWalPage.encodedLen).sum + next.encodedLen)).1.lsn ≤ walEnd := by
      rw [Ledger.lsn_preparedPageVersion, run.sum_encodedLen, last.encodedLen]
      omega
    rw [publishPages_append]
    intro version member
    rw [versions_publishPage] at member
    split at member
    · split at member
      · rcases mem_append.mp member with old | new
        · exact before version old
        · rw [mem_singleton.mp new]
          exact added
      · rw [mem_singleton.mp member]
        exact added
    · exact before version member

/-- The last version of a published page has the bytes of its last edit or none, by induction
on the pages.
-/
theorem publishPages_newest (start : Nat) (index : WalIndex) (pageId : PageId)
    (newest : ∀ version, (index.versions pageId).getLast? = some version
      → version.ResidentIn (· = lastImage (main pageId) (editsOf pageId edits)))
    : ∀ version, ((publishPages config retainHistory start index prepared).versions
      pageId).getLast? = some version
      → version.ResidentIn (· = lastImage (main pageId) (editsOf pageId (edits ++ more))) := by
  induction run with
  | nil => simpa [publishPages] using newest
  | @snoc more frames prepared edit frame next run last base ih =>
    rw [publishPages_append]
    intro version found
    rw [versions_publishPage, last.pageId] at found
    rw [← append_assoc, editsOf_append _ (edits ++ more), editsOf_single]
    by_cases same : edit.1 = pageId
    · rw [if_pos same, Overlays.lastImage_snoc]
      have isNew : version = (preparedPageVersion next (start
        + (prepared.map PreparedWalPage.encodedLen).sum + next.encodedLen)).1 := by
        rw [if_pos same] at found
        split at found
        · simpa using found.symm
        · simpa using found.symm
      rw [isNew]
      unfold preparedPageVersion
      split
      · intro _ _ _ _ same
        cases same
      next data encoding made =>
        rintro _ _ _ _ ⟨⟩
        exact last.resident data encoding made
    · rw [if_neg same, append_nil]
      rw [if_neg same] at found
      exact ih version found

/-- A published page is in the index, and an indexed page stays, by induction on the pages. -/
theorem publishPages_indexed (start : Nat) (index : WalIndex) {pageId : PageId}
    (indexed : index.versions pageId ≠ [] ∨ editsOf pageId more ≠ [])
    : (publishPages config retainHistory start index prepared).versions pageId ≠ [] := by
  induction run with
  | nil => simpa [publishPages] using indexed
  | @snoc more frames prepared edit frame next run last base ih =>
    rw [publishPages_append, versions_publishPage, last.pageId]
    rw [editsOf_append, editsOf_single] at indexed
    by_cases same : edit.1 = pageId
    · rw [if_pos same]
      split <;> simp
    · rw [if_neg same]
      rw [if_neg same, append_nil] at indexed
      exact ih indexed

end

/-- Publishing pages keeps the queue. -/
theorem publishPages_wellQueued (config : WalConfig) (retainHistory : Bool) (start : Nat)
    {index : WalIndex} (queued : index.WellQueued) (prepared : List PreparedWalPage)
    : (publishPages config retainHistory start index prepared).WellQueued := by
  induction prepared generalizing start index with
  | nil => exact queued
  | cons next rest ih => exact ih _ (publishPage_wellQueued config queued retainHistory next _)

variable (kept : NewestKept config main edits handle)
include kept

/-- Publishing a commit makes its images the newest ones. -/
theorem publish {progress : CommitProgress}
    (run : PreparedEdits config.pageSize offers more frames progress.preparedPages)
    (afterEnd : handle.walEndLsn ≤ progress.commitStartLsn)
    (ends : progress.commitStartLsn + framesLen config.pageSize frames ≤ progress.offset)
    : NewestKept config main (edits ++ more) (handle.publishCommit config progress) := by
  have grown : handle.walEndLsn ≤ progress.offset := by omega
  refine ⟨publishPages_wellQueued config _ _ kept.queued _,
    fun pageId => ⟨publishPages_atMost run _ _ _ ends _ ?_ pageId, ?_⟩, fun pageId edited => ?_,
    kept.unspilled, fun unlimited pageId => ?_⟩
  · intro other version member
    exact le_trans ((kept.bounded other).versions version member) grown
  · intro record found
    exact le_trans ((kept.bounded pageId).record record found) grown
  · rw [editsOf_append, ne_eq, append_eq_nil_iff, not_and_or] at edited
    by_cases indexed : handle.index.versions pageId ≠ [] ∨ editsOf pageId more ≠ []
    · exact .inl (publishPages_indexed run _ _ _ indexed)
    · rw [not_or, not_not, not_not] at indexed
      have before := kept.present pageId (edited.resolve_right (not_not.mpr indexed.2))
      exact .inr (before.resolve_left (not_not.mpr indexed.1))
  · exact publishPages_newest run _ _ _ pageId (kept.newest unlimited pageId)

-- Lookups

/-- A page that has no visible version once the sidecar was consulted was never edited. -/
theorem unedited_of_consultSidecar
    {pages : List (PageId × Page)} (stay : handle.PromotionsStay config pages)
    {page : PageId × Page} (member : page ∈ pages) (nonzero : page.1 ≠ 0)
    (hidden : (handle.consultSidecar config handle.walEndLsn page.1).1.index.latestVisible page.1
      handle.walEndLsn = none)
    : editsOf page.1 edits = [] := by
  by_contra edited
  by_cases visible : (handle.index.latestVisible page.1 handle.walEndLsn).isNone
  · have absent : handle.index.versions page.1 = [] := by
      rw [kept.latestVisible, Option.isNone_iff_eq_none, getLast?_eq_none_iff] at visible
      exact visible
    have spilled := (kept.present page.1 edited).resolve_left (not_not.mpr absent)
    obtain ⟨record, stored⟩ := Option.ne_none_iff_exists'.mp spilled
    have room : 0 < handle.readerRegistry.activeReaderCount
        ∨ handle.index.multiVersionPages.card < config.walIndexHotSetPages := by
      rcases stay with readers | room | unspilled
      · exact .inl readers
      · exact .inr room
      · exact absurd (unspilled page member) (by rw [show handle.sidecarRecord page.1 = _ from stored]; simp)
    have below := (kept.bounded page.1).record record stored
    have promoted := promoteSpilledLatestLocked_keeps config nonzero kept.queued absent
      stored below room
    rw [consultSidecar, if_pos visible, WalIndex.latestVisible, promoted] at hidden
    simp [WalIndex.newestAtOrBefore, below] at hidden
  · rw [consultSidecar, if_neg visible] at hidden
    exact visible (by rw [hidden]; rfl)

end NewestKept

/-- While the pages that base lookups promote stay in the index, a delta is made against the
newest image.
-/
theorem indexRule_fromLastImage (mainPages : ∀ pageId, (main pageId).length = config.pageSize)
    : IndexRule config main fromLastImage (fun handle => handle.PromotionsStay config)
      (NewestKept config main) where
  same kept index sidecar walEnd := by
    refine kept.of_demotes (fun pageId => ?_) sidecar walEnd (index ▸ kept.queued)
    rw [index]
    exact forall₂_same.mpr fun _ _ => .inl rfl
  read {_ handle} kept storage pageId snapshotLsn :=
    kept.of_moved (handle.readPageAtSnapshot_moved config storage pageId snapshotLsn)
      (handle.readPageAtSnapshot_cacheOnly config storage pageId snapshotLsn).walEndLsn
      (readPageAtSnapshot_wellQueued config storage pageId snapshotLsn kept.queued)
  demote {_ handle} kept := by
    obtain ⟨middle, cold, sidecar, walEnd, queued, moved, spilledQueued⟩ :=
      handle.demoteColdVersions_effect config
    refine (kept.of_demotes (fun pageId => (cold pageId).versions) sidecar walEnd
      (queued kept.queued)).of_moved moved ?_ (spilledQueued kept.queued)
    rw [(handle.demoteColdVersions_cacheOnly config).walEndLsn, walEnd]
  demoteResident {_ handle} kept targetBytes :=
    kept.of_demotes (handle.demoteResidentVersions_demotes targetBytes) rfl rfl
      ((handle.index.demoteHighPageIdsResidentBytes_rewritten targetBytes).wellQueued
        (fun _ _ full => full.length_eq.symm) kept.queued)
  lookup {edits handle storage pages _ _} kept sized mainFile stay looked := by
    have sound : LookupSound config storage handle.walEndLsn
      (fun pageId => fromLastImage (main pageId) (editsOf pageId edits)) pages
      (fun before => NewestKept config main edits before
        ∧ before.walEndLsn = handle.walEndLsn ∧ before.PromotionsStay config pages) :=
      ⟨?_, ?_⟩
    · obtain ⟨⟨last, -, -⟩, found⟩ :=
      sound.lookupBasePages (fun _ listed => listed) ⟨kept, rfl, stay⟩ looked
      exact ⟨last, found⟩
    · rintro before ⟨kept, walEnd, stay⟩ page member
      rw [lookupBasePage_fst]
      have cache := before.consultSidecar_cacheOnly config handle.walEndLsn page.1
      exact ⟨kept.of_moved (before.consultSidecar_moved config _ page.1) cache.walEndLsn
        (consultSidecar_wellQueued config _ page.1 kept.queued),
        cache.walEndLsn.trans walEnd, stay.consultSidecar member _⟩
    rintro before ⟨kept, walEnd, stay⟩ page member base found _ image usable
    rw [← walEnd] at found
    have cache := before.consultSidecar_cacheOnly config before.walEndLsn page.1
    have consulted := kept.of_moved (before.consultSidecar_moved config _ page.1)
      cache.walEndLsn (consultSidecar_wellQueued config _ page.1 kept.queued)
    have unedited := kept.unedited_of_consultSidecar stay member
    have read := basePage_of_lookupBasePage found
    generalize (before.consultSidecar config before.walEndLsn page.1).1 = after at *
    rcases usable_basePage read usable with
      ⟨hidden, nonzero, rfl⟩ | ⟨version, _, _, _, newest, resident, chained⟩
    · have none := unedited nonzero hidden
      rw [mainFile]
      refine ⟨?_, mainPages page.1⟩
      show main page.1 = lastImage (main page.1) (editsOf page.1 edits)
      rw [none]
      rfl
    have unlimited : config.walIndexHotSetPages = 0 :=
      of_decide_eq_true (Bool.and_eq_true_iff.mp chained).2
    rw [← cache.walEndLsn, consulted.latestVisible] at newest
    have last := consulted.newest unlimited page.1 version newest _ _ _ _ resident
    refine ⟨last, ?_⟩
    rw [last]
    exact Overlays.length_lastImage (mainPages page.1) fun edit listed =>
      sized (page.1, edit) (mem_editsOf.mp listed)
  publish kept run afterEnd ends := kept.publish run afterEnd ends

/-- A new log has no versions to keep. -/
theorem opened_newestKept (config : WalConfig) (main : PageId → Page)
    : NewestKept config main [] (WalState.opened config main).handle := by
  have noVersions (pageId : PageId)
    : (WalState.opened config main).handle.index.versions pageId = [] :=
    WalIndex.versions_empty pageId
  have noRecord (pageId : PageId)
    : (WalState.opened config main).handle.sidecarRecord pageId = none := by
    simp only [WalState.opened, sidecarRecord]
    split
    · rfl
    · simp [WalIndexSidecar.empty]
  refine ⟨WalIndex.wellQueued_empty, fun pageId => ⟨?_, ?_⟩, by simp, fun _ => noRecord,
    fun _ pageId => ?_⟩
  · simp [slot, noVersions]
  · simp [slot, noRecord]
  · simp [noVersions]

-- Recovery

/-- Some published commit writes the page. -/
def WalState.Touched (state : WalState) (pageId : PageId) : Prop :=
  ∃ commit ∈ state.spec.commits, pageId ∈ commit.2.map Prod.fst

/-- A page was touched exactly if the log has an edit of it. -/
theorem touched_iff {rule : Overlays.BaseRule UInt8}
    {condition : List PageEdit → WalHandle → Prop} {state : WalState} {log : List (List PageEdit)}
    (logged : state.Logged config main rule condition log frames) (pageId : PageId)
    : state.Touched pageId ↔ editsOf pageId log.flatten ≠ [] := by
  constructor
  · rintro ⟨commit, published, named⟩
    have listed : commit.2 ∈ log.map writesOf := logged.commits ▸ mem_map_of_mem published
    obtain ⟨edits, member, same⟩ := mem_map.mp listed
    rw [← same, writesOf, map_map] at named
    obtain ⟨edit, inside, rfl⟩ := mem_map.mp named
    exact ne_nil_of_mem (mem_editsOf.mpr (mem_flatten.mpr ⟨edits, member, inside⟩))
  intro edited
  obtain ⟨edit, member⟩ := exists_mem_of_ne_nil _ edited
  obtain ⟨edits, listed, inside⟩ := mem_flatten.mp (mem_editsOf.mp member)
  have written : writesOf edits ∈ state.spec.commits.map Prod.snd :=
    logged.commits ▸ mem_map_of_mem listed
  obtain ⟨commit, published, same⟩ := mem_map.mp written
  refine ⟨commit, published, ?_⟩
  rw [same, writesOf, map_map]
  exact mem_map.mpr ⟨(pageId, edit), inside, rfl⟩

/-- In every run without a checkpoint whose base lookups keep the pages they promote, and whose
transactions stay below the replay limit, recovery of the WAL over the main file gives every
touched page its last committed image, no entry to any other page, and the published end.
-/
theorem recovery_replays_last_images {config : WalConfig} {main : PageId → Page}
    (mainPages : ∀ pageId, (main pageId).length = config.pageSize) {actions : List WalAction}
    {final : WalState} (guarded : (walSystem config).Meets
      (ChunkGuard config fun handle => handle.PromotionsStay config) (.opened config main) actions)
    (ran : (walSystem config).run (.opened config main) actions = some final)
    (idle : final.writer = .idle) (fits : final.handle.walEndLsn < 2 ^ 64)
    (small : ∀ commit ∈ final.spec.commits, commit.2.length ≤ maxPendingRecoveryFrames)
    (path : String)
    : ∃ recovered, initializeOrRecover config path final.storage none = .ok recovered
      ∧ recovered.endLsn = final.handle.walEndLsn
      ∧ (∀ pageId, final.Touched pageId → recovered.pageImage pageId
        = some (final.spec.valueAt pageId final.handle.walEndLsn))
      ∧ ∀ pageId, recovered.index.containsPage pageId ↔ final.Touched pageId := by
  obtain ⟨log, frames, logged⟩ := run_logged (indexRule_fromLastImage mainPages) mainPages
    (opened_newestKept config main) guarded ran
  have shortEdits : ∀ edits ∈ log, edits.length ≤ maxPendingRecoveryFrames := by
    intro edits member
    have listed : writesOf edits ∈ final.spec.commits.map Prod.snd := by
      rw [logged.commits]
      exact mem_map_of_mem member
    obtain ⟨commit, published, same⟩ := mem_map.mp listed
    have short := small commit published
    rwa [same, writesOf, length_map] at short
  have disk := logged.diskLog (logged.idle_header idle)
  rw [logged.walEnd] at fits
  obtain ⟨recovered, ran, ended, images, indexed⟩ := disk.recovers mainPages shortEdits fits path
  refine ⟨recovered, ran, ended.trans logged.walEnd.symm, fun pageId _ => ?_, fun pageId => ?_⟩
  · rw [images, logged.valueAt]
  · rw [indexed, touched_iff logged]

/-- A reader holds history while pages 2 and 3 are committed, so both pages get a delta frame
and the log two transactions.
-/
theorem recovery_replays_last_images_with_reader
    : ∃ final, (walSystem .default).run (.opened .default fun _ => markedPage 0)
      (commitActions [(2, markedPage 1), (3, markedPage 1)] ++ [.beginReader]
        ++ commitActions [(2, markedPage 2)]) = some final
      ∧ ∃ recovered, initializeOrRecover .default "db.wal" final.storage none = .ok recovered
        ∧ recovered.endLsn = final.handle.walEndLsn
        ∧ (∀ pageId, final.Touched pageId → recovered.pageImage pageId
          = some (final.spec.valueAt pageId final.handle.walEndLsn))
        ∧ ∀ pageId, recovered.index.containsPage pageId ↔ final.Touched pageId := by
  refine Evaluation.exists_of_checked (fun final =>
    final.writer = .idle ∧ final.handle.walEndLsn < 2 ^ 64
      ∧ ∀ commit ∈ final.spec.commits, commit.2.length ≤ maxPendingRecoveryFrames)
    (by decide +kernel) ?_
  rintro final ran ⟨idle, fits, small⟩
  exact recovery_replays_last_images (fun _ => length_markedPage 0) (by decide +kernel) ran idle
    fits small "db.wal"

/-- Page 3 keeps two versions for a reader and fills the hot set of one page, so page 2 is
spilled, and spilled again when the next commit looks it up: its delta is made against the main
file, and recovery applies it to the image in between.
-/
theorem recovery_mixes_images_after_eviction
    : ∃ final recovered, (walSystem oneHotPage).run (.opened oneHotPage fun _ => markedPage 0)
      ([.beginReader] ++ commitActions [(3, markedPage 1)]
        ++ commitActions [(3, markedPage 2), (2, markedPage 1)]
        ++ [.dropReader 1, .checkDemotion, .demote]
        ++ commitActions [(2, 0 :: 7 :: replicate 4094 0)]) = some final
      ∧ final.writer = .idle
      ∧ initializeOrRecover oneHotPage "db.wal" final.storage none = .ok recovered
      ∧ recovered.pageImage 2 ≠ some (final.spec.valueAt 2 final.handle.walEndLsn) := by
  simp only [exists_and_left]
  refine Evaluation.exists_of_checked (fun final => final.writer = .idle
    ∧ (initializeOrRecover oneHotPage "db.wal" final.storage none).toOption.any
      fun recovered => decide ((recovered.pageImage 2).map (·.take 2) = some [1, 7]
        ∧ (final.spec.valueAt 2 final.handle.walEndLsn).take 2 = [0, 7])) (by decide +kernel) ?_
  rintro final ran ⟨idle, recovers⟩
  obtain ⟨recovered, recovery, mixed, last⟩ := Evaluation.any_iff.mp recovers
  refine ⟨idle, recovered, eq_ok_of_toOption recovery, fun same => ?_⟩
  rw [same, Option.map_some, last] at mixed
  cases mixed

end DecentDb.Wal
