import DecentDb.Wal.CommitFailures
import DecentDb.Wal.WrittenCommit

/-! The calls of a batch: all but the one that writes the header's end go past the frames that
are in the file, and together they store the frames of the batch.
-/

namespace DecentDb.Wal

open List WalHandle
open LittleEndian (leBytes)

-- Calls past the log

/-- The call changes no byte before the offset. -/
def FileCall.Past (offset : Nat) : FileCall → Prop
  | .setLen length => offset ≤ length
  | .writeAt start _ => offset ≤ start

variable {call : FileCall} {guard : WalHandle → List (PageId × Page) → Prop}
  {offers : PageId → Page → Prop} {condition : WalHandle → Prop}
  {pages chunk : List (PageId × Page)} {progress staged : CommitProgress} {main : PageId → Page}
  {config : WalConfig} {state other : WalState} {start bound offset pageSize endOffset : Nat}
  {batch : BatchWriting} {edits : List PageEdit} {frames : List WalFrame} {file : ByteFile}

section Past

/-- Both parts of a file call that is cut in two write past the bound. -/
theorem FileCall.Past.split (past : call.Past bound) (count : Nat)
    : (call.split count).1.Past bound ∧ ∀ left ∈ (call.split count).2, left.Past bound := by
  cases call with
  | setLen length => exact ⟨past, by intros; contradiction⟩
  | writeAt start bytes =>
    rw [FileCall.split]
    split
    · exact ⟨past, by simp⟩
    · refine ⟨past, forall_mem_singleton.mpr ?_⟩
      exact Nat.le_trans past (Nat.le_add_right _ _)

/-- A call past a frame leaves it alone. -/
theorem FrameAt.past {frame : WalFrame} (stored : FrameAt file offset pageSize frame)
    (below : offset + frame.encodedLen pageSize ≤ bound) (past : call.Past bound)
    : FrameAt (call.apply file) offset pageSize frame := by
  cases call with
  | setLen length => exact stored.setLen (le_trans below past)
  | writeAt start bytes => exact stored.writeAllAt (.inl (le_trans below past))

/-- A call past the log leaves the header alone. -/
theorem HeaderAt.past (header : HeaderAt file pageSize endOffset)
    (room : walHeaderSize ≤ bound) (inside : endOffset ≤ bound) (past : call.Past bound)
    : HeaderAt (call.apply file) pageSize endOffset := by
  cases call with
  | setLen length => exact header.setLen (le_trans room past) (le_trans inside past)
  | writeAt start bytes => exact header.writeAllAt (le_trans room past) bytes

end Past

namespace WalState

variable (state : WalState) (call : FileCall)

/-- A file call does not move the end of the log. -/
@[simp]
theorem walEndLsn_afterCall : (state.afterCall call).handle.walEndLsn = state.handle.walEndLsn := by
  cases call <;> rfl

end WalState

namespace WalState.CommitLogged

section

variable (commit : state.CommitLogged config offers start pages progress edits frames)
include commit

/-- A commit writes behind the log. -/
theorem start_le_offset : start ≤ progress.offset := by
  rw [commit.offset]
  exact Nat.le_add_right _ _

/-- A call past the frames of a commit keeps them. -/
theorem past (unfinished : progress.logicalEndWritten = false) (past : call.Past progress.offset)
    : (state.afterCall call).CommitLogged config offers start pages progress edits frames := by
  have begins := commit.start_le_offset
  refine { commit with
    afterEnd := by rw [walEndLsn_afterCall]; exact commit.afterEnd
    snapshot := by rw [walEndLsn_afterCall]; exact commit.snapshot
    stored := commit.stored.imp le_rfl fun offset frame _ below stored => ?_
    header := ?_ }
  · exact stored.past (commit.offset ▸ below) past
  have header := commit.header
  rw [unfinished] at header ⊢
  rw [walEndLsn_afterCall]
  exact header.past (le_trans commit.afterHeader begins)
    (le_trans commit.afterEnd begins) past

end

/-- What the part of a turn before its calls leaves to them. -/
theorem stageBatch (offered : BasesOffered config main offers guard condition)
    (commit : state.CommitLogged config offers start pages progress edits frames)
    (index : condition state.handle) (mainFile : state.storage.main = main)
    (guarded : guard state.handle
      (progress.inputPages.take (walPrepareBatchPageLimit config.pageSize)))
    {handle : WalHandle} {result : DbResult (WalHandle.CommitProgress × List UInt8)}
    (stages : state.handle.stageBatch config state.storage progress = (handle, result))
    : condition handle ∧ handle.walEndLsn = state.handle.walEndLsn
      ∧ ∀ staged pageBatch, result = .ok (staged, pageBatch) → ∃ chunk batch more batched,
        Staged progress staged chunk batch ∧ writesOf more = chunk
        ∧ ChunkEdits config offers (edits ++ more) frames batched batch
        ∧ batch.pageBatch = pageBatch := by
  unfold WalHandle.stageBatch at stages
  split at stages
  next empty =>
    cases stages
    refine ⟨index, rfl, ?_⟩
    rintro staged pageBatch ⟨⟩
    refine ⟨[], _, [], [], staged_empty progress, rfl, ?_, rfl⟩
    rw [append_nil]
    exact commit.chunkEdits
  next =>
    have cache := state.handle.prepareNext_cacheOnly config state.storage progress
    split at stages <;> cases stages
    next consulted error prepares =>
      rw [prepares] at cache
      exact ⟨(commit.prepareNext offered index mainFile guarded prepares).1, cache.walEndLsn, nofun⟩
    next consulted batch prepares =>
      rw [prepares] at cache
      obtain ⟨kept, found⟩ := commit.prepareNext offered index mainFile guarded prepares
      obtain ⟨more, batched, writes, chunk⟩ := found batch rfl
      refine ⟨kept, cache.walEndLsn, ?_⟩
      rintro staged pageBatch ⟨⟩
      exact ⟨_, batch, more, batched, staged_chunk progress _ _ batch, writes, chunk, rfl⟩

end WalState.CommitLogged

-- A batch under way

/-- The calls that are left of a batch go past the frames before it, but for the last one, which
may write the header's end; all of them together store the batch.
-/
structure WalState.BatchUnderWay (config : WalConfig) (offers : PageId → Page → Prop)
    (start : Nat) (state : WalState) (pages : List (PageId × Page))
    (progress : WalHandle.CommitProgress) (batch : BatchWriting) : Prop where
  calls : ∃ past closing, batch.remaining = past ++ closing
    ∧ (∀ call ∈ past, call.Past progress.offset)
    ∧ (closing = [] ∨ ∃ endLsn, closing = [.writeAt 16 (leBytes 8 endLsn)])
  stores : ∃ edits frames, ({ state with
    storage := { state.storage with
      wal := batch.remaining.foldl FileCall.apply state.storage.wal }
    }).CommitLogged config offers start pages batch.next edits frames

namespace WalState.BatchUnderWay

/-- Only the file and the end of the handle matter. -/
theorem congr (underWay : state.BatchUnderWay config offers start pages progress batch)
    (walEnd : other.handle.walEndLsn = state.handle.walEndLsn)
    (storage : other.storage = state.storage)
    : other.BatchUnderWay config offers start pages progress batch := by
  obtain ⟨edits, frames, commit⟩ := underWay.stores
  refine ⟨underWay.calls, edits, frames, commit.congr walEnd ?_⟩
  rw [storage]

/-- The calls of a staged batch. -/
theorem of_staged {edits more : List PageEdit} {written batched : List WalFrame}
    (commit : state.CommitLogged config offers start pages progress edits written)
    (unfinished : progress.logicalEndWritten = false) {prepared : ChunkBatch}
    (stages : Staged progress staged chunk prepared) (writes : writesOf more = chunk)
    (encoded : ChunkEdits config offers (edits ++ more) written batched prepared)
    : state.BatchUnderWay config offers start pages progress {
      remaining := state.handle.batchCalls staged prepared.pageBatch staged.inputPages.isEmpty
      next := staged.afterBatch prepared.pageBatch staged.inputPages.isEmpty
      } := by
  have here := stages.offset
  refine ⟨⟨_, _, rfl, ?_, ?_⟩, edits ++ more, written ++ batched, ?_⟩
  · refine forall_mem_append.mpr ⟨?_, forall_mem_singleton.mpr (le_of_eq here.symm)⟩
    intro call member
    rw [mem_ite_nil_left, mem_singleton] at member
    rw [member.2]
    refine le_trans ?_ (le_preallocatedLen _)
    rw [here]
    exact Nat.le_add_right _ _
  · split
    · exact .inr ⟨_, rfl⟩
    · exact .inl rfl
  have next := (commit.writeBatch unfinished stages writes encoded rfl).1
  refine next.congr ?_ ?_
  · exact ((writeBatch_spec config rfl).control.walEndLsn).symm
  · exact state.handle.batchCalls_apply state.storage staged prepared.pageBatch _

end WalState.BatchUnderWay

end DecentDb.Wal
