import DecentDb.Wal.CheckpointSoundness
import DecentDb.Wal.CommitWriting

/-! What holds in each phase of the writer, and that no other thread disturbs it. -/

namespace DecentDb.Wal

open List WalHandle

namespace WalState

-- The phases of the writer

/-- Reads are served from the ledger's versions over the settled pages. -/
structure Serving (config : WalConfig) (state : WalState) (entries : List LedgerEntry)
    : Prop where
  tracks : state.Tracks config entries
  main : ∀ pageId, state.storage.main pageId = state.spec.settled pageId

/-- What holds while the writer is in a phase. -/
inductive PhaseSound (config : WalConfig) (state : WalState) : WriterPhase → Prop where
  | idle {entries : List LedgerEntry} (serving : state.Serving config entries)
    : PhaseSound config state .idle
  | committing {entries : List LedgerEntry} {pages written : List (PageId × Page)}
    {progress : WalHandle.CommitProgress} {frames : List WalFrame}
    (serving : state.Serving config entries)
    (committing : state.Committing config entries pages progress written frames)
    : PhaseSound config state (.committing pages progress)
  | checkpointStarted {entries : List LedgerEntry} (serving : state.Serving config entries)
    (pending : state.handle.checkpointPending)
    : PhaseSound config state .checkpointStarted
  | checkpointCollecting {entries : List LedgerEntry} {safeLsn : Nat}
    (serving : state.Serving config entries) (quiet : state.Quiet)
    (safe : safeLsn = state.handle.walEndLsn)
    : PhaseSound config state (.checkpointCollecting safeLsn)
  | checkpointSpilled {entries : List LedgerEntry} {safeLsn : Nat}
    {list : List (PageId × WalVersion)} (serving : state.Serving config entries)
    (quiet : state.Quiet) (safe : safeLsn = state.handle.walEndLsn)
    (listed : state.Listed config entries list) (covered : state.Covered entries list)
    : PhaseSound config state (.checkpointSpilled safeLsn list)
  | checkpointCopying {entries : List LedgerEntry} {list : List (PageId × WalVersion)}
    (tracks : state.Tracks config entries) (quiet : state.Quiet)
    (copying : state.Copying config entries list)
    : PhaseSound config state (.checkpointCopying list)
  | checkpointCopied (restarted : state.Restarted config)
    : PhaseSound config state .checkpointCopied
  | checkpointTruncated (restarted : state.Restarted config)
    (walEnd : state.handle.walEndLsn = 0)
    : PhaseSound config state .checkpointTruncated
  | checkpointIndexCleared (restarted : state.Restarted config)
    (walEnd : state.handle.walEndLsn = 0) (index : state.handle.index = .empty)
    : PhaseSound config state .checkpointIndexCleared
  | checkpointCleared (restarted : state.Restarted config)
    (walEnd : state.handle.walEndLsn = 0) (index : state.handle.index = .empty)
    (records : ∀ pageId, state.handle.sidecarRecord pageId = none)
    : PhaseSound config state .checkpointCleared

/-- The invariant of the system. -/
def Sound (config : WalConfig) (state : WalState) : Prop :=
  state.PhaseSound config state.writer

-- Steps of the other threads

/-- What the other threads can still do once a checkpoint has found no reader. -/
structure QuietChange (before after : WalHandle) : Prop where
  readers : after.readerRegistry.readers = []
  records : ∀ pageId, (before.sidecarRecord pageId).isSome → (after.sidecarRecord pageId).isSome
  empty : before.index = .empty
    → after.index = .empty ∧ after.indexSidecar = before.indexSidecar

/-- What the other threads do at any time. -/
structure Background (config : WalConfig) (before after : WalState) : Prop where
  writer : after.writer = before.writer
  storage : after.storage = before.storage
  spec : after.spec = before.spec
  walEndLsn : after.handle.walEndLsn = before.handle.walEndLsn
  checkpointPending : after.handle.checkpointPending = before.handle.checkpointPending
  tracks : ∀ entries, before.Tracks config entries → after.Tracks config entries
  quiet : before.Quiet → QuietChange before.handle after.handle

variable {config : WalConfig} {state before after : WalState} {entries : List LedgerEntry}

namespace Background

variable (change : Background config before after)
include change

/-- A background step leaves the readers served. -/
theorem serving (serving : before.Serving config entries) : after.Serving config entries := by
  refine ⟨change.tracks entries serving.tracks, fun pageId => ?_⟩
  rw [change.storage, change.spec]
  exact serving.main pageId

/-- A background step starts no reader while a checkpoint is pending. -/
theorem staysQuiet (quiet : before.Quiet) : after.Quiet :=
  ⟨change.checkpointPending.trans quiet.pending, (change.quiet quiet).readers⟩

/-- In a quiet state the ledger is the same, since the end is the only snapshot. -/
theorem ledger (quiet : before.Quiet)
    : after.ledger config entries = before.ledger config entries := by
  simp [WalState.ledger, snapshots, change.storage, change.spec, change.walEndLsn, (change.staysQuiet quiet).readers, quiet.readers]

/-- What a checkpoint has listed stays what it has to copy. -/
theorem listed (quiet : before.Quiet) {list : List (PageId × WalVersion)}
    (listed : before.Listed config entries list)
    : after.Listed config entries list := by
  unfold Listed
  rw [change.ledger quiet, change.walEndLsn]
  exact listed

/-- A log that has started over stays so. -/
theorem restarted (restarted : before.Restarted config) : after.Restarted config := by
  refine ⟨change.staysQuiet restarted.quiet, ?_, ?_, ?_⟩
  · rw [change.storage, change.spec]
    exact restarted.main
  · rw [change.spec]
    exact restarted.commits
  · rw [change.spec]
    exact restarted.settledPages

/-- A background step keeps the invariant. -/
theorem sound (sound : before.Sound config) : after.Sound config := by
  unfold Sound at *
  rw [change.writer]
  generalize before.writer = phase at sound ⊢
  cases sound with
  | idle serving => exact .idle (change.serving serving)
  | committing serving committing =>
    exact .committing (change.serving serving)
      (committing.congr change.walEndLsn (by rw [change.storage]) change.spec)
  | checkpointStarted serving pending =>
    exact .checkpointStarted (change.serving serving) (change.checkpointPending.trans pending)
  | checkpointCollecting serving quiet safe =>
    exact .checkpointCollecting (change.serving serving) (change.staysQuiet quiet)
      (safe.trans change.walEndLsn.symm)
  | checkpointSpilled serving quiet safe listed covered =>
    refine .checkpointSpilled (change.serving serving) (change.staysQuiet quiet)
      (safe.trans change.walEndLsn.symm) (change.listed quiet listed) ?_
    intro pageId written
    rw [change.walEndLsn] at written
    exact (covered pageId written).imp_right ((change.quiet quiet).records pageId)
  | checkpointCopying tracks quiet copying =>
    refine .checkpointCopying (change.tracks _ tracks) (change.staysQuiet quiet)
      ⟨change.listed quiet copying.listed, ?_, ?_⟩
    · rw [change.storage, change.spec, change.walEndLsn]
      exact copying.main
    · rw [change.storage, change.spec, change.walEndLsn]
      exact copying.copied
  | checkpointCopied restarted => exact .checkpointCopied (change.restarted restarted)
  | checkpointTruncated restarted walEnd =>
    exact .checkpointTruncated (change.restarted restarted) (change.walEndLsn.trans walEnd)
  | checkpointIndexCleared restarted walEnd index =>
    exact .checkpointIndexCleared (change.restarted restarted) (change.walEndLsn.trans walEnd)
      ((change.quiet restarted.quiet).empty index).1
  | checkpointCleared restarted walEnd index records =>
    obtain ⟨stillEmpty, sidecar⟩ := (change.quiet restarted.quiet).empty index
    refine .checkpointCleared (change.restarted restarted) (change.walEndLsn.trans walEnd)
      stillEmpty fun pageId => ?_
    rw [sidecarRecord, sidecar]
    exact records pageId

end Background

section Threads

/-- Counting demotions that are owed is a background step. -/
theorem background_checks (owedDemotions checkedDemotions : Nat)
    (checkedResidentDemotions : List Nat)
    : Background config state
      { state with owedDemotions, checkedDemotions, checkedResidentDemotions } :=
  ⟨rfl, rfl, rfl, rfl, rfl, fun _ tracks => { tracks with },
    fun quiet => ⟨quiet.readers, fun _ => id, fun empty => ⟨empty, rfl⟩⟩⟩

/-- Demoting cold versions is a background step if no reader needs a chained delta. -/
theorem background_demote (checkedDemotions : Nat)
    (atEnd : config.Chained → ∀ reader ∈ state.handle.readerRegistry.readers,
      reader.snapshotLsn = state.handle.walEndLsn)
    : Background config state
      { state with handle := state.handle.demoteColdVersions config, checkedDemotions } := by
  have cache := state.handle.demoteColdVersions_cacheOnly config
  refine ⟨rfl, rfl, rfl, cache.walEndLsn, cache.checkpointPending, fun _ tracks => ?_,
    fun quiet => ⟨?_, fun _ => state.handle.demoteColdVersions_records, demoteColdVersions_empty⟩⟩
  · exact { tracks.demoteColdVersions atEnd with }
  · rw [cache.readerRegistry]
    exact quiet.readers

/-- Freeing memory is a background step. -/
theorem background_demoteResident (targetBytes : Nat) (checkedResidentDemotions : List Nat)
    : Background config state
      { state with
        handle := state.handle.demoteResidentVersions targetBytes
        checkedResidentDemotions } := by
  refine ⟨rfl, rfl, rfl, rfl, rfl, fun _ tracks => ?_, fun quiet => ⟨quiet.readers,
    fun _ => id, fun empty => ⟨?_, rfl⟩⟩⟩
  · exact { tracks.demoteResidentVersions targetBytes with }
  · unfold WalHandle.demoteResidentVersions WalIndex.demoteHighPageIdsResidentBytes
    rw [empty]
    split <;> rfl

/-- A reader that begins is a background step. -/
theorem background_beginReader (unpended : state.handle.checkpointPending = false)
    : Background config state
      { state with
        handle := { state.handle with
          readerRegistry := state.handle.readerRegistry.register state.handle.latestSnapshot } } := by
  refine ⟨rfl, rfl, rfl, rfl, rfl, fun _ tracks => tracks.of_readers fun reader member => ?_,
    fun quiet => ?_⟩
  · rcases mem_append.mp member with old | new
    · exact mem_cons_of_mem _ (mem_map_of_mem old)
    · rw [mem_singleton.mp new]
      exact mem_cons_self
  · have pending := quiet.pending
    rw [unpended] at pending
    cases pending

/-- A reader that is dropped is a background step. -/
theorem background_dropReader (readerId : Nat) : Background config state
      { state with
        handle := { state.handle with
          readerRegistry := state.handle.readerRegistry.drop readerId } } := by
  refine ⟨rfl, rfl, rfl, rfl, rfl, fun _ tracks => tracks.of_readers fun reader member => ?_,
    fun quiet => ⟨?_, fun _ => id, fun empty => ⟨empty, rfl⟩⟩⟩
  · exact mem_cons_of_mem _ (mem_map_of_mem (mem_filter.mp member).1)
  · simp [ReaderRegistry.drop, quiet.readers]

/-- A read is a background step. -/
theorem background_readPage (pageId : PageId) {reader : ReaderInfo}
    (registered : reader ∈ state.handle.readerRegistry.readers)
    : Background config state
        { state with
          handle := (state.handle.readPageAtSnapshot config state.storage pageId
            reader.snapshotLsn).1 } := by
  have cache := state.handle.readPageAtSnapshot_cacheOnly config state.storage pageId
    reader.snapshotLsn
  refine ⟨rfl, rfl, rfl, cache.walEndLsn, cache.checkpointPending, fun _ tracks => ?_,
    fun quiet => ?_⟩
  · exact tracks.of_cache
      (state.handle.readPageAtSnapshot_moved config state.storage pageId reader.snapshotLsn) cache
      (readPageAtSnapshot_wellQueued config state.storage pageId reader.snapshotLsn
        tracks.queued)
  · rw [quiet.readers] at registered
    cases registered

end Threads

end WalState

end DecentDb.Wal
