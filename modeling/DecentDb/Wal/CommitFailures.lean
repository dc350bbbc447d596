import DecentDb.Wal.LogReplay
import DecentDb.Wal.System

/-! Commits whose calls to the WAL file may fail. A batch is written by separate calls, each
write may be short, and the sync and the publication that follow may fail: every step between
two calls is a state in which the process can stop.
-/

namespace DecentDb.Wal

open LittleEndian (leBytes)
open TransitionSystem (System)

-- Calls to the file

/-- A call that the writer makes to the WAL file. -/
inductive FileCall where
  | setLen (length : Nat)
  | writeAt (offset : Nat) (bytes : List UInt8)
  deriving DecidableEq

namespace FileCall

def apply (file : ByteFile) : FileCall → ByteFile
  | .setLen length => file.setLen length
  | .writeAt offset bytes => file.writeAllAt offset bytes

/-- What the call does when it writes at most `count` bytes, and the call that is left. -/
def split (count : Nat) : FileCall → FileCall × List FileCall
  | .setLen length => (.setLen length, [])
  | .writeAt offset bytes =>
    if bytes.length ≤ count then (.writeAt offset bytes, [])
    else (.writeAt offset (bytes.take count), [.writeAt (offset + count) (bytes.drop count)])

/-- A short write and the rest of it make the whole write. -/
theorem split_apply (file : ByteFile) (count : Nat) (call : FileCall)
    : (call.split count).2.foldl apply (apply file (call.split count).1) = apply file call := by
  cases call with
  | setLen length => rfl
  | writeAt offset bytes =>
    rw [split]
    split
    · rfl
    next short =>
      have length : (bytes.take count).length = count := by
        rw [List.length_take]
        omega
      have parts := file.writeAllAt_append offset (bytes.take count) (bytes.drop count)
      rw [List.take_append_drop, length] at parts
      exact parts.symm

end FileCall

namespace WalHandle

variable (config : WalConfig)

/-- The calls of `ensure_capacity` and `write_all_at_many` for a batch. -/
def batchCalls (handle : WalHandle) (progress : CommitProgress) (pageBatch : List UInt8)
    (last : Bool) : List FileCall :=
  let bytes := if last then pageBatch ++ commitFrame.bytes else pageBatch
  let endLsn := progress.offset + bytes.length
  (if endLsn ≤ handle.allocatedLen then [] else [.setLen (preallocatedLen endLsn)])
    ++ [.writeAt progress.offset bytes]
    ++ (if last then [.writeAt 16 (leBytes 8 endLsn)] else [])

/-- The progress once all calls of a batch are made. -/
def CommitProgress.afterBatch (progress : CommitProgress) (pageBatch : List UInt8) (last : Bool)
    : CommitProgress :=
  { progress with
    offset := progress.offset
      + (if last then pageBatch ++ commitFrame.bytes else pageBatch).length
    logicalEndWritten := last }

/-- The part of a turn of the preparation loop that comes before its calls to the file. -/
def stageBatch (handle : WalHandle) (storage : Storage) (progress : CommitProgress)
    : WalHandle × DbResult (CommitProgress × List UInt8) :=
  if progress.inputPages.isEmpty then (handle, .ok (progress, []))
  else
    match prepareNext config handle storage progress with
    | (consulted, .error error) => (consulted, .error error)
    | (consulted, .ok batch) =>
      (consulted, .ok ({ progress with
        inputPages := progress.inputPages.drop (walPrepareBatchPageLimit config.pageSize)
        retainHistoryHint := progress.retainHistoryHint || handle.historyNeeded
        seenPageIds := batch.seenPageIds
        preparedPages := batch.preparedPages }, batch.pageBatch))

/-- All calls of a batch together do to the file what the batch does. -/
theorem batchCalls_apply (handle : WalHandle) (storage : Storage) (progress : CommitProgress)
    (pageBatch : List UInt8) (last : Bool)
    : (handle.batchCalls progress pageBatch last).foldl FileCall.apply storage.wal
      = (handle.writeBatch storage progress pageBatch last).2.1.wal := by
  unfold batchCalls writeBatch ensureCapacity
  dsimp only
  by_cases fits : progress.offset
    + (if last then pageBatch ++ commitFrame.bytes else pageBatch).length ≤ handle.allocatedLen
  · rw [if_pos fits, if_pos fits]
    cases last <;> rfl
  · rw [if_neg fits, if_neg fits]
    cases last <;> rfl

end WalHandle

/-- The state after a call to the file; `set_len` also moves the allocated length. -/
def WalState.afterCall (state : WalState) (call : FileCall) : WalState :=
  { state with
    handle := match call with
      | .setLen length => { state.handle with allocatedLen := length }
      | .writeAt .. => state.handle
    storage := { state.storage with wal := call.apply state.storage.wal } }

-- Calls of commit_pages

/-- How a call of `commit_pages` ended, or that it has not. -/
inductive CommitOutcome where
  | returnedOk
  | prepareFailed
  | writeFailed
  | syncFailed
  | publicationFailed
  | inFlight
  deriving DecidableEq

abbrev CommitCall := List (PageId × Page) × CommitOutcome

/-- A batch with the calls to the file that are still to be made. -/
structure BatchWriting where
  remaining : List FileCall
  next : WalHandle.CommitProgress

structure CommitState where
  wal : WalState
  batch : Option BatchWriting
  /-- The calls that have returned, oldest first. -/
  calls : List CommitCall

inductive CommitAction where
  | commitPages (pages : List (PageId × Page))
  | prepareChunk
  | write (count : Nat)
  | failWrite
  | publish (returnsOk : Bool)
  | failSync
  | background (action : WalAction)

namespace CommitState

variable (config : WalConfig)

def opened (main : PageId → Page) : CommitState :=
  { wal := .opened config main, batch := none, calls := [] }

variable (state : CommitState)

/-- The calls that have returned, and the one that holds the write lock. -/
def history : List CommitCall :=
  match state.wal.writer with
  | .committing pages _ => state.calls ++ [(pages, .inFlight)]
  | _ => state.calls

/-- `discard_prepared_commit_state`, and the error that the caller gets. -/
def giveUp (handle : WalHandle) (pages : List (PageId × Page))
    (outcome : CommitOutcome) : CommitState :=
  {
    wal := { state.wal with handle, writer := .idle }
    batch := none
    calls := state.calls ++ [(pages, outcome)]
  }

/-- One call to the file, of which at most `count` bytes are written; the last one ends the
batch.
-/
def makeCall (pages : List (PageId × Page))
    (progress : WalHandle.CommitProgress) (batch : BatchWriting) (count : Nat) (call : FileCall)
    (rest : List FileCall) : CommitState :=
  let (made, left) := call.split count
  if (left ++ rest).isEmpty then
    { state with
      wal := { state.wal.afterCall made with writer := .committing pages batch.next }
      batch := none }
  else
    { state with
      wal := { state.wal.afterCall made with writer := .committing pages progress }
      batch := some { batch with remaining := left ++ rest } }

def next (state : CommitState) : CommitAction → Option CommitState
  | .commitPages pages =>
    match state.wal.writer with
    | .idle =>
      some { state with
        wal := { state.wal with
          writer := .committing pages (state.wal.handle.beginCommit pages) } }
    | _ => none
  | .prepareChunk =>
    match state.wal.writer, state.batch with
    | .committing pages progress, none =>
      if progress.logicalEndWritten then none
      else
        match state.wal.handle.stageBatch config state.wal.storage progress with
        | (handle, .error _) => some (state.giveUp handle pages .prepareFailed)
        | (handle, .ok (staged, pageBatch)) =>
          some { state with
            wal := { state.wal with handle }
            batch := some {
              remaining := handle.batchCalls staged pageBatch staged.inputPages.isEmpty
              next := staged.afterBatch pageBatch staged.inputPages.isEmpty } }
    | _, _ => none
  | .write count =>
    match state.wal.writer, state.batch with
    | .committing pages progress, some batch =>
      match batch.remaining with
      | [] => none
      | call :: rest =>
        -- A write of no bytes is an error.
        if count = 0 then none
        else some (state.makeCall pages progress batch count call rest)
    | _, _ => none
  | .failWrite =>
    match state.wal.writer, state.batch with
    | .committing pages _, some _ =>
      some (state.giveUp state.wal.handle pages .writeFailed)
    | _, _ => none
  | .publish returnsOk =>
    match state.wal.writer, state.batch with
    | .committing pages _, none =>
      (state.wal.nextWriter config .publish).map fun wal =>
        { state with
          wal
          calls := state.calls
            ++ [(pages, if returnsOk then .returnedOk else .publicationFailed)] }
    | _, _ => none
  | .failSync =>
    match state.wal.writer, state.batch with
    | .committing pages progress, none =>
      if progress.logicalEndWritten then
        some (state.giveUp state.wal.handle pages .syncFailed)
      else none
    | _, _ => none
  | .background action =>
    (state.wal.nextOther config action).map fun wal => { state with wal }

end CommitState

/-- One handle on which `commit_pages` is called again and again, whatever the calls return. -/
def commitSystem (config : WalConfig) : System CommitState CommitAction where
  next := CommitState.next config

-- What a step can do

/-- The steps of the system, one constructor for each way an action can go. -/
inductive CommitStep (config : WalConfig) (state : CommitState)
    : CommitAction → CommitState → Prop where
  | commitPages (pages : List (PageId × Page)) (idle : state.wal.writer = .idle)
    : CommitStep config state (.commitPages pages)
      { state with
        wal := { state.wal with
          writer := .committing pages (state.wal.handle.beginCommit pages) } }
  | prepareChunk {pages : List (PageId × Page)} {progress staged : WalHandle.CommitProgress}
    {handle : WalHandle} {pageBatch : List UInt8}
    (committing : state.wal.writer = .committing pages progress) (unbatched : state.batch = none)
    (unfinished : progress.logicalEndWritten = false)
    (stages : state.wal.handle.stageBatch config state.wal.storage progress
      = (handle, .ok (staged, pageBatch)))
    : CommitStep config state .prepareChunk
      { state with
        wal := { state.wal with handle }
        batch := some {
          remaining := handle.batchCalls staged pageBatch staged.inputPages.isEmpty
          next := staged.afterBatch pageBatch staged.inputPages.isEmpty } }
  | failPrepare {pages : List (PageId × Page)} {progress : WalHandle.CommitProgress}
    {handle : WalHandle} {error : DbError}
    (committing : state.wal.writer = .committing pages progress)
    (unfinished : progress.logicalEndWritten = false)
    (stages : state.wal.handle.stageBatch config state.wal.storage progress
      = (handle, .error error))
    : CommitStep config state .prepareChunk (state.giveUp handle pages .prepareFailed)
  | write {pages : List (PageId × Page)} {progress : WalHandle.CommitProgress}
    {batch : BatchWriting} {call : FileCall} {rest : List FileCall} (count : Nat)
    (committing : state.wal.writer = .committing pages progress)
    (writing : state.batch = some batch) (calls : batch.remaining = call :: rest)
    : CommitStep config state (.write count)
      (state.makeCall pages progress batch count call rest)
  | failWrite {pages : List (PageId × Page)} {progress : WalHandle.CommitProgress}
    {batch : BatchWriting} (committing : state.wal.writer = .committing pages progress)
    (writing : state.batch = some batch)
    : CommitStep config state .failWrite (state.giveUp state.wal.handle pages .writeFailed)
  | publish {pages : List (PageId × Page)} {progress : WalHandle.CommitProgress} {wal : WalState}
    (returnsOk : Bool) (committing : state.wal.writer = .committing pages progress)
    (unbatched : state.batch = none) (taken : state.wal.nextWriter config .publish = some wal)
    : CommitStep config state (.publish returnsOk)
      { state with
        wal
        calls := state.calls
          ++ [(pages, if returnsOk then .returnedOk else .publicationFailed)] }
  | failSync {pages : List (PageId × Page)} {progress : WalHandle.CommitProgress}
    (committing : state.wal.writer = .committing pages progress) (unbatched : state.batch = none)
    (finished : progress.logicalEndWritten)
    : CommitStep config state .failSync (state.giveUp state.wal.handle pages .syncFailed)
  | background {action : WalAction} {wal : WalState}
    (taken : state.wal.nextOther config action = some wal)
    : CommitStep config state (.background action) { state with wal }

/-- Every enabled action is one of the steps. -/
theorem commitSystem_step {config : WalConfig} {state following : CommitState}
    {action : CommitAction} (taken : (commitSystem config).next state action = some following)
    : CommitStep config state action following := by
  cases action <;> simp only [commitSystem, CommitState.next] at taken
  case background action =>
    obtain ⟨wal, moved, rfl⟩ := Option.map_eq_some_iff.mp taken
    exact .background moved
  case publish returnsOk =>
    split at taken
    next committing unbatched =>
      obtain ⟨wal, published, rfl⟩ := Option.map_eq_some_iff.mp taken
      exact .publish returnsOk committing unbatched published
    next => cases taken
  -- One goal is left for each other branch that goes on.
  all_goals repeat' split at taken
  all_goals cases taken
  next idle => exact .commitPages _ idle
  next committing _ unfinished _ _ _ stages =>
    exact .failPrepare committing (by simpa using unfinished) stages
  next committing unbatched unfinished _ _ _ _ stages =>
    exact .prepareChunk committing unbatched (by simpa using unfinished) stages
  next committing writing _ _ _ calls _ => exact .write _ committing writing calls
  next committing writing => exact .failWrite committing writing
  next committing unbatched finished => exact .failSync committing unbatched finished

-- What the calls mean

/-- Transactions that are applied as a whole, in the order of their calls: all that returned
`Ok`, and any of the others.
-/
inductive WholeTransactions : List CommitCall → List (List (PageId × Page)) → Prop where
  | nil : WholeTransactions [] []
  | applied {calls : List CommitCall} {transactions : List (List (PageId × Page))}
    (earlier : WholeTransactions calls transactions) (pages : List (PageId × Page))
    (outcome : CommitOutcome)
    : WholeTransactions (calls ++ [(pages, outcome)]) (transactions ++ [pages])
  | absent {calls : List CommitCall} {transactions : List (List (PageId × Page))}
    (earlier : WholeTransactions calls transactions) (pages : List (PageId × Page))
    {outcome : CommitOutcome} (notOk : outcome ≠ .returnedOk)
    : WholeTransactions (calls ++ [(pages, outcome)]) transactions

/-- The image of a page after the transactions. -/
def imageAfter (main : PageId → Page) (transactions : List (List (PageId × Page)))
    (pageId : PageId) : Page :=
  VersionedStore.lastWritten main transactions.flatten pageId

/-- If the process stops here, recovery of the file gives the images of whole transactions. -/
def CommitState.RecoversWhole (config : WalConfig) (path : String) (main : PageId → Page)
    (state : CommitState) : Prop :=
  ∃ transactions recovered, WholeTransactions state.history transactions
    ∧ initializeOrRecover config path state.wal.storage none = .ok recovered
    ∧ ∀ pageId, recovered.pageImage pageId = some (imageAfter main transactions pageId)

end DecentDb.Wal
