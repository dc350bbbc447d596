import DecentDb.Wal.BatchCalls
import DecentDb.Wal.RecoveryExact

/-! Failed commits are atomic as long as no commit follows a failed sync: what a commit writes
before the header's end lies past the log, and the header's end covers all of it.
-/

namespace DecentDb.Wal

open List WalHandle

open LittleEndian (leBytes)
open Overlays (fromLastImage)

-- The invariant

/-- No sync has failed: the handle follows the file, and a batch belongs to the commit that is
being written.
-/
structure CommitState.InStep (config : WalConfig) (main : PageId → Page) (state : CommitState)
    (log : List (List PageEdit)) (frames : List WalFrame) : Prop where
  logged : state.wal.Logged config main fromLastImage (NewestKept config main) log frames
  small : ∀ edits ∈ log, edits.length ≤ maxPendingRecoveryFrames
  smallCommit : ∀ pages progress, state.wal.writer = .committing pages progress
    → pages.length ≤ maxPendingRecoveryFrames
  transactions : WholeTransactions state.calls (log.map writesOf)
  batch : ∀ batch, state.batch = some batch → ∃ pages progress,
    state.wal.writer = .committing pages progress ∧ progress.logicalEndWritten = false
    ∧ state.wal.BatchUnderWay config
      (fun pageId => fromLastImage (main pageId) (editsOf pageId log.flatten))
      (walHeaderSize + framesLen config.pageSize frames) pages progress batch

/-- A sync has failed: the file holds a transaction that the handle does not have. -/
structure CommitState.Stranded (config : WalConfig) (main : PageId → Page) (state : CommitState)
    (log : List (List PageEdit)) (frames : List WalFrame) : Prop where
  idle : state.wal.writer = .idle
  unbatched : state.batch = none
  failed : ∃ call ∈ state.calls, call.2 = .syncFailed
  disk : DiskLog config main state.wal.storage log frames
  small : ∀ edits ∈ log, edits.length ≤ maxPendingRecoveryFrames
  transactions : WholeTransactions state.calls (log.map writesOf)

/-- A write to the header is not cut short. -/
def FileCall.HeaderWhole (count : Nat) : FileCall → Prop
  | .setLen _ => True
  | .writeAt offset bytes => walHeaderSize ≤ offset ∨ bytes.length ≤ count

instance (count : Nat) (call : FileCall) : Decidable (call.HeaderWhole count) := by
  cases call <;> unfold FileCall.HeaderWhole <;> infer_instance

/-- No commit follows a failed sync or exceeds the replay limit, the pages that base lookups
promote stay in the index, and the header's end is written at once.
-/
def CommitGuard (config : WalConfig) (state : CommitState) : CommitAction → Prop
  | .commitPages pages => pages.length ≤ maxPendingRecoveryFrames
    ∧ ∀ call ∈ state.calls, call.2 ≠ .syncFailed
  | .prepareChunk => state.wal.handle.PromotionsStay config (state.wal.writer.nextChunk config)
  | .write count => ∀ batch ∈ state.batch, ∀ call ∈ batch.remaining.head?, call.HeaderWhole count
  | _ => True

instance (config : WalConfig) (state : CommitState) (action : CommitAction)
    : Decidable (CommitGuard config state action) := by
  cases action <;> unfold CommitGuard <;> infer_instance

variable {handle : WalHandle} {config : WalConfig} {log : List (List PageEdit)}
  {main : PageId → Page} {frames written : List WalFrame} {wal state following : WalState}
  {action : WalAction}

namespace CommitState.InStep

variable {state : CommitState} {pages : List (PageId × Page)}
  {progress staged after : CommitProgress} {batch : BatchWriting}

section

variable (inStep : state.InStep config main log frames)
include inStep

/-- Where a batch is under way, its commit is the writer's. -/
theorem underWay (committing : state.wal.writer = .committing pages progress)
    (writing : state.batch = some batch)
    : progress.logicalEndWritten = false ∧ state.wal.BatchUnderWay config
      (fun pageId => fromLastImage (main pageId) (editsOf pageId log.flatten))
      (walHeaderSize + framesLen config.pageSize frames) pages progress batch := by
  obtain ⟨_, _, same, unfinished, underWay⟩ := inStep.batch batch writing
  rw [committing] at same
  cases same
  exact ⟨unfinished, underWay⟩

/-- A commit that is given up before its end is written is absent. -/
theorem giveUp
    (logged : ({ state.wal with handle, writer := .idle }).Logged config main fromLastImage
      (NewestKept config main) log frames) (pages : List (PageId × Page)) {outcome : CommitOutcome}
    (notOk : outcome ≠ .returnedOk)
    : (state.giveUp handle pages outcome).InStep config main log frames where
  logged := logged
  small := inStep.small
  smallCommit := nofun
  transactions := inStep.transactions.absent pages notOk
  batch := nofun

/-- A commit begins in step with the file. -/
theorem commitPages (idle : state.wal.writer = .idle)
    (short : pages.length ≤ maxPendingRecoveryFrames)
    : ({ state with
      wal := { state.wal with
        writer := .committing pages (state.wal.handle.beginCommit pages) } }).InStep config main
      log frames where
  logged := inStep.logged.beginCommit idle pages
  small := inStep.small
  smallCommit := by
    rintro _ _ ⟨⟩
    exact short
  transactions := inStep.transactions
  batch batch writing := by
    obtain ⟨_, _, committing, _⟩ := inStep.batch batch writing
    rw [idle] at committing
    cases committing

end

section

variable (mainPages : ∀ pageId, (main pageId).length = config.pageSize)
  (inStep : state.InStep config main log frames)
  (committing : state.wal.writer = .committing pages progress)
  (unfinished : progress.logicalEndWritten = false)
  (stay : state.wal.handle.PromotionsStay config (state.wal.writer.nextChunk config))
include mainPages inStep committing unfinished stay

/-- The next chunk is staged. -/
theorem prepareChunk {pageBatch : List UInt8}
    (stages : state.wal.handle.stageBatch config state.wal.storage progress
      = (handle, .ok (staged, pageBatch)))
    : ({ state with
        wal := { state.wal with handle }
        batch := some {
          remaining := handle.batchCalls staged pageBatch staged.inputPages.isEmpty
          next := staged.afterBatch pageBatch staged.inputPages.isEmpty } }).InStep config main log
        frames := by
  have rule := (indexRule_fromLastImage mainPages).basesOffered inStep.logged.logFrames.sized
  obtain ⟨edits, written, commit⟩ := inStep.logged.committing_logged committing
  rw [committing] at stay
  obtain ⟨index, walEnd, found⟩ :=
    commit.stageBatch rule inStep.logged.index inStep.logged.mainFile stay stages
  obtain ⟨chunk, batch, more, batched, staging, writes, encoded, rfl⟩ := found _ _ rfl
  have looked : ({ state.wal with handle } : WalState).CommitLogged config _ _ pages progress
      edits written := commit.congr walEnd rfl
  refine { inStep with
    logged := ?_
    batch := ?_ }
  · have phase := inStep.logged.of_file rfl walEnd (fun _ _ _ _ stored => stored) index
      (.committing looked)
    rw [← committing] at phase
    exact phase
  · rintro _ ⟨⟩
    exact ⟨pages, progress, committing, unfinished,
      .of_staged looked unfinished staging writes encoded⟩

/-- A commit that fails while it prepares a chunk has not moved the end of the log. -/
theorem failPrepare {error : DbError}
    (stages : state.wal.handle.stageBatch config state.wal.storage progress
      = (handle, .error error))
    : (state.giveUp handle pages .prepareFailed).InStep config main log frames := by
  refine inStep.giveUp ?_ pages (by decide)
  rw [committing] at stay
  unfold stageBatch at stages
  split at stages
  · cases stages
  split at stages <;> cases stages
  next prepares =>
    exact inStep.logged.abandonPrepared (indexRule_fromLastImage mainPages) committing
      unfinished stay prepares

end

/-- A commit that fails while it writes has not moved the end of the log. -/
theorem failWrite (inStep : state.InStep config main log frames)
    (committing : state.wal.writer = .committing pages progress)
    (unfinished : progress.logicalEndWritten = false)
    : (state.giveUp state.wal.handle pages .writeFailed).InStep config main log frames := by
  refine inStep.giveUp ?_ pages (by decide)
  obtain ⟨edits, written, commit⟩ := inStep.logged.committing_logged committing
  have header := commit.header
  rw [unfinished] at header
  exact inStep.logged.of_file rfl rfl (fun _ _ _ _ stored => stored) inStep.logged.index
    (.idle header)

variable (mainPages : ∀ pageId, (main pageId).length = config.pageSize)
  (inStep : state.InStep config main log frames) {edits : List PageEdit}
include inStep

/-- The log stays small with the commit that is being written. -/
theorem small_snoc (committing : state.wal.writer = .committing pages progress)
    (writes : writesOf edits = pages)
    : ∀ transaction ∈ log ++ [edits], transaction.length ≤ maxPendingRecoveryFrames := by
  refine forall_mem_append.mpr ⟨inStep.small, forall_mem_singleton.mpr ?_⟩
  have short := inStep.smallCommit pages progress committing
  rwa [← writes, writesOf, length_map] at short

include mainPages

/-- A call that keeps the log takes the writer to the progress whose frames are then stored. -/
theorem logged_afterCall {made : FileCall} (kept : ∀ offset frame, walHeaderSize ≤ offset
      → offset + frame.encodedLen config.pageSize ≤ walHeaderSize + framesLen config.pageSize frames
      → FrameAt state.wal.storage.wal offset config.pageSize frame
      → FrameAt (made.apply state.wal.storage.wal) offset config.pageSize frame)
    (commit : (state.wal.afterCall made).CommitLogged config
      (fun pageId => fromLastImage (main pageId) (editsOf pageId log.flatten))
      (walHeaderSize + framesLen config.pageSize frames) pages after edits written)
    : ({ state.wal.afterCall made with writer := .committing pages after }).Logged config main
      fromLastImage (NewestKept config main) log frames := by
  have walEnd := state.wal.walEndLsn_afterCall made
  refine inStep.logged.of_file rfl walEnd kept ?_ (.committing commit)
  exact (indexRule_fromLastImage mainPages).same inStep.logged.index
    (by cases made <;> rfl) (by cases made <;> rfl) walEnd

variable (committing : state.wal.writer = .committing pages progress)
include committing

/-- A call to the file that is not the last of its batch, or is. -/
theorem write (writing : state.batch = some batch) {call : FileCall} {rest : List FileCall}
    (calls : batch.remaining = call :: rest) {count : Nat} (whole : call.HeaderWhole count)
    : (state.makeCall pages progress batch count call rest).InStep config main log frames := by
  obtain ⟨unfinished, underWay⟩ := inStep.underWay committing writing
  obtain ⟨edits, written, commit⟩ := inStep.logged.committing_logged committing
  obtain ⟨past, closing, shape, pasts, closes⟩ := underWay.calls
  obtain ⟨newEdits, newFrames, stores⟩ := underWay.stores
  have begins := commit.start_le_offset
  have parts := call.split_apply state.wal.storage.wal count
  have short := inStep.smallCommit pages progress committing
  rw [calls] at shape stores
  unfold makeCall
  -- Either the call is past the frames of the commit, or it is the one that writes the end.
  have kinds : (call.Past progress.offset ∧ ∃ more, rest = more ++ closing
        ∧ ∀ other ∈ more, other.Past progress.offset)
      ∨ rest = [] ∧ ∃ endLsn, call = .writeAt 16 (leBytes 8 endLsn) := by
    cases past with
    | nil =>
      rcases closes with rfl | ⟨endLsn, rfl⟩
      · cases shape
      · cases shape
        exact .inr ⟨rfl, endLsn, rfl⟩
    | cons first more =>
      cases shape
      obtain ⟨here, others⟩ := forall_mem_cons.mp pasts
      exact .inl ⟨here, more, rfl, others⟩
  rcases kinds with ⟨pastHere, more, rfl, others⟩ | ⟨rfl, endLsn, rfl⟩
  · obtain ⟨madePast, leftPast⟩ := pastHere.split count
    generalize call.split count = split at parts madePast leftPast ⊢
    obtain ⟨made, left⟩ := split
    dsimp only at parts madePast leftPast ⊢
    have kept : ∀ offset frame, walHeaderSize ≤ offset → offset + frame.encodedLen config.pageSize
          ≤ walHeaderSize + framesLen config.pageSize frames
        → FrameAt state.wal.storage.wal offset config.pageSize frame
        → FrameAt (made.apply state.wal.storage.wal) offset config.pageSize frame :=
      fun offset frame _ below stored => stored.past (le_trans below begins) madePast
    have applied : (left ++ (more ++ closing)).foldl FileCall.apply
          (made.apply state.wal.storage.wal)
        = (call :: (more ++ closing)).foldl FileCall.apply state.wal.storage.wal := by
      rw [foldl_append, parts, foldl_cons]
    split
    next ended =>
      rw [List.isEmpty_iff] at ended
      rw [ended] at applied
      refine { inStep with
        logged := inStep.logged_afterCall mainPages kept (stores.congr ?_ applied)
        smallCommit := ?_
        batch := by simp }
      · exact state.wal.walEndLsn_afterCall made
      · rintro _ _ ⟨⟩
        exact short
    next =>
      refine { inStep with
        logged := inStep.logged_afterCall mainPages kept (commit.past unfinished madePast)
        smallCommit := ?_
        batch := ?_ }
      · rintro _ _ ⟨⟩
        exact short
      rintro _ ⟨⟩
      refine ⟨pages, progress, rfl, unfinished, ⟨left ++ more, closing, ?_, ?_, closes⟩,
        newEdits, newFrames, stores.congr ?_ applied⟩
      · rw [append_assoc]
      · exact forall_mem_append.mpr ⟨leftPast, others⟩
      · exact state.wal.walEndLsn_afterCall made
  have unsplit : (FileCall.writeAt 16 (leBytes 8 endLsn)).split count
      = (.writeAt 16 (leBytes 8 endLsn), []) := by
    rw [FileCall.split, if_pos (whole.resolve_left (by decide))]
  rw [unsplit]
  refine { inStep with
    logged := inStep.logged_afterCall mainPages
      (fun _ _ low _ stored => stored.writeEnd low endLsn) (stores.congr rfl rfl)
    smallCommit := ?_
    batch := by simp }
  rintro _ _ ⟨⟩
  exact short

/-- Publication makes the commit the last transaction. -/
theorem publish (unbatched : state.batch = none)
    (taken : state.wal.nextWriter config .publish = some wal) (outcome : CommitOutcome)
    : ∃ edits more, ({ state with wal, calls := state.calls ++ [(pages, outcome)] }).InStep config
        main (log ++ [edits]) more := by
  cases nextWriter_step taken with
  | publish owed committing' finished =>
    rw [committing] at committing'
    cases committing'
    obtain ⟨edits, more, published⟩ := inStep.logged.publish
      (indexRule_fromLastImage mainPages) mainPages committing finished owed
    have transactions : (log ++ [edits]).map writesOf = log.map writesOf ++ [pages] := by
      rw [← published.commits, ← inStep.logged.commits]
      exact map_append
    refine ⟨edits, more, {
      logged := published
      small := inStep.small_snoc committing ?_
      smallCommit := nofun
      transactions := ?_
      batch := fun batch writing => by simp [unbatched] at writing
    }⟩
    · rw [map_append, map_singleton] at transactions
      exact singleton_inj.mp (append_cancel_left transactions)
    · rw [transactions]
      exact inStep.transactions.applied pages outcome

/-- A commit whose sync fails is on disk as a whole. -/
theorem failSync (finished : progress.logicalEndWritten)
    : ∃ edits more, (state.giveUp state.wal.handle pages .syncFailed).Stranded config main
      (log ++ [edits]) more := by
  obtain ⟨edits, more, writes, disk⟩ := inStep.logged.diskLog_finished
    (indexRule_fromLastImage mainPages) mainPages committing finished
  refine ⟨edits, more, {
    idle := rfl
    unbatched := rfl
    failed := ⟨(pages, .syncFailed), by simp [CommitState.giveUp], rfl⟩
    disk
    small := inStep.small_snoc committing writes
    transactions := ?_
  }⟩
  rw [map_append, map_singleton, writes]
  exact inStep.transactions.applied pages .syncFailed

end CommitState.InStep

/-- The steps of other threads leave the files, the writer and the end alone. -/
theorem nextOther_keeps (taken : state.nextOther config action = some following)
    : following.storage = state.storage ∧ following.writer = state.writer
      ∧ following.handle.walEndLsn = state.handle.walEndLsn := by
  cases action <;> simp only [WalState.nextOther, reduceCtorEq] at taken
  case readPage readerId pageId =>
    split at taken <;> cases taken
    next reader found =>
      exact ⟨rfl, rfl, (state.handle.readPageAtSnapshot_cacheOnly config _ _ _).walEndLsn⟩
  case demote =>
    split at taken <;> cases taken
    next => exact ⟨rfl, rfl, (state.handle.demoteColdVersions_cacheOnly config).walEndLsn⟩
  all_goals
    first
    | (split at taken <;> cases taken <;> exact ⟨rfl, rfl, rfl⟩)
    | (cases taken; exact ⟨rfl, rfl, rfl⟩)

namespace CommitState

/-- The file is a log of whole transactions, known to the handle or not. -/
def Atomic (config : WalConfig) (main : PageId → Page) (state : CommitState) : Prop :=
  (∃ log frames, state.InStep config main log frames)
    ∨ ∃ log frames, state.Stranded config main log frames

variable {state following : CommitState}

/-- Other steps of the log keep in step with the file. -/
theorem InStep.background (mainPages : ∀ pageId, (main pageId).length = config.pageSize)
    (inStep : state.InStep config main log frames)
    (taken : state.wal.nextOther config action = some wal)
    : ({ state with wal }).InStep config main log frames := by
  obtain ⟨storage, writer, walEnd⟩ := nextOther_keeps taken
  obtain ⟨_, _, logged, same⟩ := inStep.logged.step (indexRule_fromLastImage mainPages) mainPages
    (by cases action <;> trivial) (nextOther_step taken)
  obtain ⟨rfl, rfl⟩ := same fun publishes => by
    subst publishes
    cases taken
  refine { inStep with
    logged
    smallCommit := fun pages progress committing => ?_
    batch := fun batch writing => ?_ }
  · exact inStep.smallCommit pages progress (writer ▸ committing)
  · obtain ⟨pages, progress, committing, unfinished, underWay⟩ := inStep.batch batch writing
    exact ⟨pages, progress, writer.trans committing, unfinished, underWay.congr walEnd storage⟩

/-- A new log is in step with its file. -/
theorem opened_inStep (config : WalConfig) (main : PageId → Page)
    : (opened config main).InStep config main [] [] where
  logged := opened_logged config main (opened_newestKept config main)
  small := nofun
  smallCommit := nofun
  transactions := .nil
  batch := nofun

/-- Every guarded step leaves the file a log of whole transactions. -/
theorem Atomic.step (mainPages : ∀ pageId, (main pageId).length = config.pageSize)
    {action : CommitAction} (atomic : state.Atomic config main)
    (guarded : CommitGuard config state action) (step : CommitStep config state action following)
    : following.Atomic config main := by
  rcases atomic with ⟨log, frames, inStep⟩ | ⟨log, frames, stranded⟩
  · cases step
    case commitPages pages idle => exact .inl ⟨_, _, inStep.commitPages idle guarded.1⟩
    case prepareChunk committing unbatched unfinished stages =>
      exact .inl ⟨_, _, inStep.prepareChunk mainPages committing unfinished guarded stages⟩
    case failPrepare committing unfinished stages =>
      exact .inl ⟨_, _, inStep.failPrepare mainPages committing unfinished guarded stages⟩
    case write batch call rest count committing writing calls =>
      have whole := guarded batch writing call (by rw [calls]; rfl)
      exact .inl ⟨_, _, inStep.write mainPages committing writing calls whole⟩
    case failWrite committing writing =>
      exact .inl ⟨_, _, inStep.failWrite committing (inStep.underWay committing writing).1⟩
    case publish returnsOk committing unbatched taken =>
      obtain ⟨edits, more, published⟩ := inStep.publish mainPages committing unbatched taken _
      exact .inl ⟨_, _, published⟩
    case failSync committing unbatched finished =>
      obtain ⟨edits, more, failed⟩ := inStep.failSync mainPages committing finished
      exact .inr ⟨_, _, failed⟩
    case background taken => exact .inl ⟨_, _, inStep.background mainPages taken⟩
  have idle := stranded.idle
  cases step
  case commitPages pages _ =>
    obtain ⟨call, returned, failed⟩ := stranded.failed
    exact absurd failed (guarded.2 call returned)
  case background taken =>
    obtain ⟨storage, writer, _⟩ := nextOther_keeps taken
    refine .inr ⟨log, frames, { stranded with
      idle := writer.trans idle
      disk := ?_ }⟩
    rw [storage]
    exact stranded.disk
  -- The writer is idle, so no other step is enabled.
  case prepareChunk committing _ _ _ | failPrepare committing _ _ | write committing _ _
    | failWrite committing _ | publish committing _ _ | failSync committing _ _ =>
    simp [idle] at committing

variable (mainPages : ∀ pageId, (main pageId).length = config.pageSize)
include mainPages

/-- A log of whole transactions on disk is recovered as whole transactions. -/
theorem recoversWhole_of_disk (fits : state.wal.storage.wal.size < 2 ^ 64)
    (disk : DiskLog config main state.wal.storage log frames)
    (small : ∀ edits ∈ log, edits.length ≤ maxPendingRecoveryFrames)
    (transactions : WholeTransactions state.history (log.map writesOf)) (path : String)
    : state.RecoversWhole config path main := by
  have inside := disk.header.inside
  obtain ⟨recovered, ran, _, images, _⟩ := disk.recovers mainPages small (by omega) path
  refine ⟨_, recovered, transactions, ran, fun pageId => ?_⟩
  have flat : (log.map writesOf).flatten = writesOf log.flatten := by
    rw [writesOf, map_flatten]
    rfl
  rw [images, imageAfter, flat, VersionedStore.lastWritten, find?_reverse_writesOf,
    Overlays.lastImage, Option.map_map]
  rfl

/-- Wherever the process stops, what is on disk is a log of whole transactions. -/
theorem Atomic.recoversWhole
    (atomic : state.Atomic config main) (fits : state.wal.storage.wal.size < 2 ^ 64) (path : String)
    : state.RecoversWhole config path main := by
  rcases atomic with ⟨log, frames, inStep⟩ | ⟨log, frames, stranded⟩
  · have logged := inStep.logged
    have phase := logged.phase
    generalize reached : state.wal.writer = writer at phase
    cases phase with
    | idle header =>
      refine recoversWhole_of_disk mainPages fits (logged.diskLog header) inStep.small ?_ path
      rw [history, reached]
      exact inStep.transactions
    | @committing pages progress edits written commit =>
      cases finished : progress.logicalEndWritten with
      | false =>
        have header := commit.header
        rw [finished] at header
        refine recoversWhole_of_disk mainPages fits (logged.diskLog header) inStep.small ?_ path
        rw [history, reached]
        exact inStep.transactions.absent pages (by decide)
      | true =>
        obtain ⟨last, more, writes, disk⟩ := logged.diskLog_finished
          (indexRule_fromLastImage mainPages) mainPages reached finished
        refine recoversWhole_of_disk mainPages fits disk (inStep.small_snoc reached writes) ?_ path
        rw [history, reached, map_append, map_singleton, writes]
        exact inStep.transactions.applied pages .inFlight
  · refine recoversWhole_of_disk mainPages fits stranded.disk stranded.small ?_ path
    rw [history, stranded.idle]
    exact stranded.transactions

end CommitState

-- Results

/-- In every run in which no commit follows a failed sync or exceeds the replay limit, promoted
pages stay and the header's end is written at once: wherever the process stops, recovery yields
the images of whole transactions, with all that returned `Ok` and none in part.
-/
theorem failed_commits_recover_whole {config : WalConfig} {main : PageId → Page}
    (mainPages : ∀ pageId, (main pageId).length = config.pageSize) {actions : List CommitAction}
    {final : CommitState}
    (guarded : (commitSystem config).Meets (CommitGuard config) (.opened config main) actions)
    (ran : (commitSystem config).run (.opened config main) actions = some final)
    (fits : final.wal.storage.wal.size < 2 ^ 64) (path : String)
    : final.RecoversWhole config path main := by
  have atomic : final.Atomic config main := by
    refine (commitSystem config).run_preserves (CommitState.Atomic config main) ?_
      (.inl ⟨[], [], CommitState.opened_inStep config main⟩) guarded ran
    intro state action following holds meets taken
    exact holds.step mainPages meets (commitSystem_step taken)
  exact atomic.recoversWhole mainPages fits path

/-- A commit of one batch whose calls each write all their bytes. -/
def wholeCalls (pages : List (PageId × Page)) (calls : Nat) : List CommitAction :=
  [.commitPages pages, .prepareChunk] ++ replicate calls (.write (2 ^ 13))

/-- A commit with a short write returns `Ok`, the write of the next one fails in the middle, and
the sync of the last one fails.
-/
theorem failed_commits_recover_whole_each_way
    : ∃ final, (commitSystem .default).run (.opened .default fun _ => markedPage 0)
      ([.commitPages [(2, markedPage 1)], .prepareChunk, .write 1, .write 100, .write (2 ^ 13),
        .write 8, .publish true]
        ++ [.commitPages [(3, markedPage 1)], .prepareChunk, .write 7, .failWrite]
        ++ wholeCalls [(2, markedPage 2)] 2 ++ [.failSync]) = some final
      ∧ final.RecoversWhole .default "db.wal" fun _ => markedPage 0 := by
  refine Evaluation.exists_of_checked (fun final => final.wal.storage.wal.size < 2 ^ 64)
    (by decide +kernel) ?_
  intro final ran fits
  exact failed_commits_recover_whole (fun _ => length_markedPage 0) (by decide +kernel) ran fits
    "db.wal"

/-- A commit returns `Ok`, the sync of the next one fails, and the process stops when a third one
has overwritten its first frame but not the header's end: recovery takes a byte of the
failed commit's page for a frame type and gives nothing, not even the commit that returned `Ok`.
-/
theorem recovery_lost_after_failed_sync
    : ∃ final, (commitSystem .default).run (.opened .default fun _ => markedPage 0)
      (wholeCalls [(2, markedPage 1)] 3 ++ [.publish true]
        ++ wholeCalls [(3, 255 :: 255 :: 255 :: replicate 4093 0)] 2 ++ [.failSync]
        ++ wholeCalls [] 1) = some final
      ∧ final.calls.map Prod.snd = [.returnedOk, .syncFailed]
      ∧ ¬final.RecoversWhole .default "db.wal" fun _ => markedPage 0 := by
  refine Evaluation.exists_of_checked (fun final =>
    final.calls.map Prod.snd = [.returnedOk, .syncFailed]
    ∧ (initializeOrRecover .default "db.wal" final.wal.storage none).toOption.isNone)
    (by decide +kernel) ?_
  rintro final ran ⟨returned, failed⟩
  refine ⟨returned, ?_⟩
  rintro ⟨transactions, recovered, -, recovers, -⟩
  rw [recovers] at failed
  cases failed

end DecentDb.Wal
