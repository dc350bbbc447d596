import DecentDb.Wal.CommitSucceeds
import DecentDb.Wal.RecoveryClosed

/-! Content that is not closed: page frames without a marker, or bytes that are no whole frame,
stand between the last marker and the end that recovery returns. A commit behind them is read as
their continuation, so some commit is not shown.
-/

namespace DecentDb.Wal

open List Replay

-- Commits of the header page

variable {frames more : List WalFrame} {offers : PageId → Page → Prop} {edits : List PageEdit}
  {config : WalConfig} {first : Recovered} {last : Replay} {filed : Storage}
  {pages : List (PageId × Page)} {lsn : Nat}

/-- A commit of the header page has one full frame for each write. -/
theorem PreparedEdits.header_frames {pageSize : Nat}
    (unoffered : ∀ base, ¬ offers headerPageId base) {prepared : List PreparedWalPage}
    (run : PreparedEdits pageSize offers edits frames prepared)
    (header : ∀ edit ∈ edits, edit.1 = headerPageId)
    : frames = (writesOf edits).map fun page =>
      { frameType := .page, pageId := headerPageId, payload := page.2 } := by
  induction run with
  | nil => rfl
  | @snoc edits frames prepared edit frame next run last base ih =>
    obtain ⟨others, own⟩ := forall_mem_append.mp header
    have named : edit.1 = headerPageId := own edit mem_cons_self
    rw [writesOf_append, map_append, ih others]
    congr 1
    cases last.records with
    | page nonzero length =>
      dsimp only at named
      subst named
      rfl
    | delta nonzero length encoded =>
      dsimp only at named
      subst named
      exact absurd (base _ _ rfl).1 (unoffered _)

section Open

/-- The handle that a coordinating process opens has every version in memory. -/
theorem Replay.Sound.allResident {offset : Nat} (sound : last.Sound config.pageSize offset)
    (index : first.index = last.index) : first.handle.AllResident := by
  refine ⟨rfl, fun pageId version member => ?_⟩
  have listed : version ∈ last.index.pages[pageId]?.getD [] := by
    rw [← index]
    exact member
  cases found : last.index.pages[pageId]? with
  | none => simp [found] at listed
  | some versions =>
    obtain ⟨page, rfl, -, -⟩ := sound.indexed pageId versions found
    rw [found] at listed
    rw [mem_singleton.mp listed]
    rfl

/-- Writes of the header page can be committed on the recovered handle. -/
theorem Accepted.commits_header (accepted : Accepted config first.storage first.endLsn frames last)
    (mainPages : ∀ pageId, (first.storage.main pageId).length = config.pageSize)
    (index : first.index = last.index) {images : List Page}
    (length : ∀ image ∈ images, image.length = config.pageSize)
    : ∃ after filed lsn offers edits, first.handle.commitPages config first.storage
      (images.map (headerPageId, ·)) = (after, filed, .ok lsn)
      ∧ CommitStored config offers (commitStart first.endLsn) first.storage filed
        (images.map (headerPageId, ·)) lsn edits (images.map fun image =>
          { frameType := .page, pageId := headerPageId, payload := image }) := by
  have sound := accepted.sound mainPages
  have writable : ∀ page ∈ images.map (headerPageId, ·), WritablePage config page := by
    intro page member
    obtain ⟨image, listed, rfl⟩ := mem_map.mp member
    exact ⟨(by decide : headerPageId ≠ 0), length image listed⟩
  obtain ⟨after, filed, lsn, committed⟩ :=
    (sound.allResident index).commitPages first.storage writable
  have reopens : Reopens config first first.handle first.storage :=
    ⟨rfl, rfl, rfl, .refl config _, id, fun _ => rfl⟩
  obtain ⟨edits, more, stored⟩ := accepted.commitStored mainPages index reopens committed
  obtain ⟨prepared, run⟩ := stored.run
  have named : ∀ edit ∈ edits, edit.1 = headerPageId := by
    intro edit member
    have written : (edit.1, edit.2.image) ∈ writesOf edits := mem_map.mpr ⟨edit, member, rfl⟩
    rw [stored.writes] at written
    obtain ⟨image, -, same⟩ := mem_map.mp written
    exact (Prod.mk.inj same).1.symm
  have made := run.header_frames (fun base offered => offered.1 rfl) named
  rw [stored.writes, map_map] at made
  rw [made] at stored
  exact ⟨after, filed, lsn, _, edits, committed, stored⟩

end Open

-- Sizes

/-- A log is bounded by its number of frames. -/
theorem framesLen_le (config : WalConfig) (frames : List WalFrame)
    : framesLen config.pageSize frames ≤ frames.length * 16397 := by
  have bounds := config.pageSize_bounds
  induction frames with
  | nil => exact Nat.le_refl 0
  | cons frame rest ih =>
    have length := (frame.encodedLen_bounds config.pageSize).2
    have sizes : frameHeaderSize = 5 ∧ frameTrailerSize = 8 ∧ deltaFramePayloadSize = 512 :=
      ⟨rfl, rfl, rfl⟩
    rw [FramesAt.framesLen_cons, length_cons]
    omega

/-- A commit that is accepted and not shown afterwards. -/
def HidesCommit (config : WalConfig) (path : String) (first : Recovered) : Prop :=
  ∃ pages after filed lsn, first.handle.commitPages config first.storage pages
    = (after, filed, .ok lsn)
    ∧ lsn < 2 ^ 64 ∧ pages.length ≤ maxPendingRecoveryFrames
    ∧ ¬ ShowsCommit config path first pages filed

section Sizes

/-- A commit within the replay limit ends where an LSN can name it. -/
theorem CommitStored.fits (stored : CommitStored config offers (commitStart first.endLsn)
      first.storage filed pages lsn edits more)
    (small : first.endLsn < 2 ^ 63) (short : more.length ≤ maxPendingRecoveryFrames)
    : lsn < 2 ^ 64 := by
  have start : commitStart first.endLsn ≤ walHeaderSize + first.endLsn := by
    unfold commitStart
    split <;> omega
  have length := framesLen_le config (more ++ [commitFrame])
  have limit : maxPendingRecoveryFrames = 1000000 := rfl
  have header : walHeaderSize = 32 := rfl
  have ends := stored.ends
  rw [length_append, length_singleton] at length
  omega

end Sizes

-- Pending frames

/-- With a page frame pending, a commit of as many frames as recovery accepts is one too many. -/
theorem Accepted.hides_after_pending {path : String}
    (accepted : Accepted config first.storage first.endLsn frames last)
    (mainPages : ∀ pageId, (first.storage.main pageId).length = config.pageSize)
    (index : first.index = last.index) (small : first.endLsn < 2 ^ 63)
    (ended : first.endLsn ≤ walHeaderSize + framesLen config.pageSize frames)
    (pending : closedAfter true frames ≠ true) : HidesCommit config path first := by
  have somePending : last.pendingFrames ≠ 0 := fun none => pending
    ((pendingFrames_eq_zero_iff (by simp [start]) accepted.replayed).mp none)
  -- The number is kept abstract, so that the list of pages is never unfolded.
  obtain ⟨count, limit⟩ : ∃ count, count = maxPendingRecoveryFrames := ⟨_, rfl⟩
  have positive : 0 < count := by
    rw [limit]
    decide
  have whole : ∀ image ∈ replicate count (replicate config.pageSize (255 : UInt8)),
    image.length = config.pageSize :=
    fun image member => by rw [eq_of_mem_replicate member, length_replicate]
  obtain ⟨after, filed, lsn, offers, edits, committed, stored⟩ :=
    accepted.commits_header mainPages index whole
  have fits := stored.fits small (by simp [limit])
  refine ⟨_, after, filed, lsn, committed, fits, by simp [limit], ?_⟩
  rintro ⟨second, ran, -⟩
  rw [accepted.recovers_again ended stored fits path] at ran
  obtain ⟨final, replayed, -⟩ := map_eq_ok.mp ran
  rw [replayList_append] at replayed
  obtain ⟨middle, pageFrames, -⟩ := bind_eq_ok.mp replayed
  have carry : ∀ frame ∈ (replicate count (replicate config.pageSize (255 : UInt8))).map
    (fun image => ({ frameType := .page, pageId := headerPageId, payload := image } : WalFrame)),
    frame.frameType.carriesPage := by
    intro frame member
    obtain ⟨image, -, rfl⟩ := mem_map.mp member
    rfl
  rcases pendingFrames_le carry pageFrames with none | bound
  · rw [map_eq_nil_iff, replicate_eq_nil_iff] at none
    omega
  · rw [length_map, length_replicate] at bound
    omega

end DecentDb.Wal
