import DecentDb.Wal.MisreadTail

/-! Recovery, a commit and recovery again, for every content that recovery accepts: commits are
shown exactly after closed content.
-/

namespace DecentDb.Wal

/-- Every commit on every handle that is opened after the first recovery is shown by the second
one, unless it has more frames than recovery accepts.
-/
def ClosedUnderCommits (config : WalConfig) (path : String) (storage : Storage)
    (first : Recovered) : Prop :=
  ∀ coordinated handle opened pages after filed lsn,
    buildHandleFromFile config path coordinated storage = .ok (handle, opened)
    → handle.commitPages config opened pages = (after, filed, .ok lsn) → lsn < 2 ^ 64
    → (ShowsCommit config path first pages filed ↔ pages.length ≤ maxPendingRecoveryFrames)

/-- For every WAL content that recovery accepts, the next commit is shown by the next recovery
with the images of the first one below it, whichever it is, exactly if the bytes before the
header's end offset are whole frames of which the last is no page frame.
-/
theorem recovery_closed_under_commits {config : WalConfig} {path : String} {storage : Storage}
    {first : Recovered} (mainPages : ∀ pageId, (storage.main pageId).length = config.pageSize)
    (small : storage.wal.size < 2 ^ 63)
    (accepts : initializeOrRecover config path storage none = .ok first)
    : ClosedUnderCommits config path storage first ↔ endsClosed config storage.wal := by
  obtain ⟨sameMain, unspilled, inside, frames, last, accepted, index, closed⟩ :=
    initializeOrRecover_accepted accepts
  rw [← sameMain] at mainPages
  rw [closed]
  constructor
  · intro shows
    by_contra open_
    have firstSmall : first.endLsn < 2 ^ 63 := by omega
    have hides : HidesCommit config path first := by
      by_cases ended : first.endLsn ≤ walHeaderSize + framesLen config.pageSize frames
      · exact accepted.hides_after_pending mainPages index firstSmall ended
          fun flag => open_ ⟨ended, flag⟩
      · exact accepted.hides_after_tail mainPages index firstSmall (not_le.mp ended)
    obtain ⟨pages, after, filed, lsn, committed, fits, short, hidden⟩ := hides
    have built : buildHandleFromFile config path true storage = .ok (first.handle, first.storage) := by
      unfold buildHandleFromFile freshSidecar
      rw [if_pos (.inr rfl), accepts]
      simp only [ok_bind, unspilled]
      rfl
    exact hidden ((shows true _ _ pages after filed lsn built committed fits).mpr short)
  · rintro ⟨ended, flag⟩ coordinated handle opened pages after filed lsn built committed fits
    exact accepted.showsCommit_iff mainPages index unspilled ended flag
      (buildHandleFromFile_reopens accepts built) committed fits

/-- A WAL to which page 2 was committed is closed. -/
theorem recovery_closed_under_commits_of_one_page : ∃ file first, endsClosed .default file
      ∧ initializeOrRecover .default "db.wal" { wal := file, main := fun _ => markedPage 0 } none
        = .ok first
      ∧ first.index.containsPage 2
      ∧ ClosedUnderCommits .default "db.wal" { wal := file, main := fun _ => markedPage 0 }
        first := by
  have evaluated : ((walSystem .default).run (.opened .default fun _ => markedPage 0)
    (commitActions [(2, markedPage 1)])).any fun final =>
    decide (final.storage.wal.size < 2 ^ 63 ∧ endsClosed .default final.storage.wal
      ∧ (initializeOrRecover .default "db.wal"
        { wal := final.storage.wal, main := fun _ => markedPage 0 } none).toOption.any
          fun first => decide (first.index.containsPage 2)) := by
    decide +kernel
  obtain ⟨final, -, small, closed, recovers⟩ := Evaluation.any_iff.mp evaluated
  obtain ⟨first, recovery, indexed⟩ := Evaluation.any_iff.mp recovers
  have accepts := eq_ok_of_toOption recovery
  refine ⟨final.storage.wal, first, closed, accepts, indexed,
    (recovery_closed_under_commits (fun _ => length_markedPage 0) ?_ accepts).mpr closed⟩
  exact small

/-- A WAL file that ends with a frame of page 2 and no marker. -/
def unmarkedFile : ByteFile :=
  let header : WalHeader := { pageSize := 4096, walEndOffset := 4141 }
  let frame : WalFrame := { frameType := .page, pageId := 2, payload := markedPage 7 }
  (ByteFile.empty.writeAllAt 0 header.encode).writeAllAt walHeaderSize frame.bytes

/-- Page 2 was never committed, and recovery shows its main-file image. Once page 3 is committed
behind the frame, recovery takes both for one transaction and shows the frame's image.
-/
theorem uncommitted_page_shown_after_next_commit : ∃ first handle opened after filed lsn second,
      initializeOrRecover .default "db.wal" { wal := unmarkedFile, main := fun _ => markedPage 0 }
        none = .ok first
      ∧ buildHandleFromFile .default "db.wal" false
        { wal := unmarkedFile, main := fun _ => markedPage 0 } = .ok (handle, opened)
      ∧ handle.commitPages .default opened [(3, markedPage 1)] = (after, filed, .ok lsn)
      ∧ initializeOrRecover .default "db.wal" filed none = .ok second
      ∧ second.pageImage 2 ≠ first.pageImage 2 := by
  have evaluated : ((initializeOrRecover .default "db.wal"
    { wal := unmarkedFile, main := fun _ => markedPage 0 } none).toOption.any fun first =>
    (buildHandleFromFile .default "db.wal" false
      { wal := unmarkedFile, main := fun _ => markedPage 0 }).toOption.any fun built =>
    (built.1.commitPages .default built.2 [(3, markedPage 1)]).2.2.toOption.isSome
    && (initializeOrRecover .default "db.wal"
      (built.1.commitPages .default built.2 [(3, markedPage 1)]).2.1 none).toOption.any fun second =>
    decide ((first.pageImage 2).map (·.take 1) = some [0])
      && decide ((second.pageImage 2).map (·.take 1) = some [7])) := by
    decide +kernel
  obtain ⟨first, recovers, rest⟩ := (Option.any_eq_true _ _).mp evaluated
  obtain ⟨⟨handle, opened⟩, builds, rest⟩ := (Option.any_eq_true _ _).mp rest
  obtain ⟨commits, rest⟩ := Bool.and_eq_true_iff.mp rest
  obtain ⟨lsn, ended⟩ := Option.isSome_iff_exists.mp commits
  obtain ⟨second, again, images⟩ := (Option.any_eq_true _ _).mp rest
  obtain ⟨old, new⟩ := Bool.and_eq_true_iff.mp images
  refine ⟨first, handle, opened, (handle.commitPages .default opened [(3, markedPage 1)]).1, _, lsn,
    second, eq_ok_of_toOption recovers, eq_ok_of_toOption builds, ?_, eq_ok_of_toOption again,
    fun same => ?_⟩
  · exact Prod.ext rfl (Prod.ext rfl (eq_ok_of_toOption ended))
  · have image := of_decide_eq_true new
    rw [same, of_decide_eq_true old] at image
    cases image

end DecentDb.Wal
