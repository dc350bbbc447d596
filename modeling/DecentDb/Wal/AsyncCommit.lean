import DecentDb.Library.TransitionSystem
import DecentDb.Wal.Format

/-! The asynchronous commit mode, in which a commit returns once its frames are written. A
background thread syncs the log from time to time, and a caller of `flush_to_durable` waits
until what was committed before its call is durable. All of them go by two watermarks, which a
checkpoint sets back to zero because the log starts over.

Every load, store and lock of a thread is a step of its own. Beside the state of the code the
model keeps which commits were noted and how many of them a sync or a checkpoint covers.
-/

namespace DecentDb.Wal.AsyncCommit

open TransitionSystem (System)

-- The shared state

/-- The threads that take the flush lock. -/
inductive Holder where
  | flusher
  | call (index : Nat)
  | checkpoint
  deriving DecidableEq, Repr

/-- The watermarks and the flush lock, with the commits in the order in which they were
noted, by the end of the log after them: `rebasedAt` of them when the watermarks were last set
back. A sync of the log covers the first `synced` of them, and the synced main file holds the
pages of the first `copied`.
-/
structure Shared where
  dirtyLsn : Nat
  durableLsn : Nat
  flushLock : Option Holder
  noted : List Nat
  rebasedAt : Nat
  synced : Nat
  copied : Nat
  deriving DecidableEq, Repr

/-- The commits that are durable in the log or in the main file. -/
def Shared.Covers (shared : Shared) (commit : Nat) : Prop :=
  commit < shared.synced ∨ commit < shared.copied

instance (shared : Shared) (commit : Nat) : Decidable (shared.Covers commit) :=
  inferInstanceAs (Decidable (_ ∨ _))

-- `perform_flush`

/-- Where a thread is in `perform_flush`. The sync covers the commits that were noted when it
started.
-/
inductive FlushPhase where
  | locking
  | locked
  | loaded (target : Nat)
  | syncing (target before : Nat)
  | synced (target : Nat)
  | notifying
  deriving DecidableEq, Repr

inductive FlushOutcome where
  | running (phase : FlushPhase)
  | done
  | failed
  deriving DecidableEq, Repr

/-- The next step of a flush; `syncOk` is what the sync returns, if it is one. -/
def flushStep (holder : Holder) (syncOk : Bool) (shared : Shared)
    : FlushPhase → Option (Shared × FlushOutcome)
  | .locking =>
    if shared.flushLock = none then
      some ({ shared with flushLock := some holder }, .running .locked)
    else none
  | .locked => some (shared, .running (.loaded shared.dirtyLsn))
  | .loaded target =>
    if target ≤ shared.durableLsn then some ({ shared with flushLock := none }, .done)
    else some (shared, .running (.syncing target shared.noted.length))
  | .syncing target before =>
    if syncOk then some ({ shared with synced := max shared.synced before }, .running (.synced target))
    else some ({ shared with flushLock := none }, .failed)
  | .synced target =>
    some ({ shared with durableLsn := max shared.durableLsn target }, .running .notifying)
  | .notifying => some ({ shared with flushLock := none }, .done)

-- `flush_to_durable`

/-- Where a caller is in `flush_to_durable`. -/
inductive CallPhase where
  | called
  | captured (target : Nat)
  | looping (target : Nat) (flushed : Bool)
  | entered (target : Nat) (flushed : Bool)
  | flushing (target : Nat) (phase : FlushPhase)
  | returned (flushed : Bool)
  | failed
  deriving DecidableEq, Repr

/-- A call, with the number of commits that were noted when it started. -/
structure Call where
  before : Nat
  phase : CallPhase
  deriving DecidableEq, Repr

/-- What a caller does with the outcome of its flush. -/
def afterFlush (target : Nat) : FlushOutcome → CallPhase
  | .running phase => .flushing target phase
  | .done => .looping target true
  | .failed => .failed

variable (index : Nat)

/-- The next step of a call. -/
def callStep (syncOk shutdown : Bool) (shared : Shared)
    : CallPhase → Option (Shared × CallPhase)
  | .called => some (shared, .captured shared.dirtyLsn)
  | .captured target =>
    if target ≤ shared.durableLsn then some (shared, .returned false)
    else some (shared, .looping target false)
  | .looping target flushed =>
    if shared.durableLsn < target then some (shared, .entered target flushed)
    else some (shared, .returned flushed)
  | .entered target flushed =>
    if shutdown then some (shared, .returned flushed)
    else some (shared, .flushing target .locking)
  | .flushing target phase =>
    (flushStep (.call index) syncOk shared phase).map fun (following, outcome) =>
      (following, afterFlush target outcome)
  | .returned _ | .failed => none

-- All threads

/-- The background thread. -/
inductive Flusher where
  | asleep
  | flushing (phase : FlushPhase)
  | exited
  deriving DecidableEq, Repr

/-- The thread that holds the write lock: a commit between the writing of its frames, the
note of its end and its publication, or a checkpoint, which first calls `flush_to_durable`
itself.
-/
inductive Writer where
  | idle
  | written (endLsn : Nat)
  | noted (endLsn : Nat)
  | checkpointing (call : Nat)
  | copied
  | rebasing
  | rebased
  | truncating
  deriving DecidableEq, Repr

structure State where
  shared : Shared
  shutdown : Bool
  flusher : Flusher
  calls : List Call
  writer : Writer
  walEndLsn : Nat
  deriving DecidableEq, Repr

/-- The state of `AsyncCommitState::new` over a log with the given end. -/
def new (initialLsn : Nat) : State where
  shared :=
    { dirtyLsn := initialLsn, durableLsn := initialLsn, flushLock := none, noted := [],
      rebasedAt := 0, synced := 0, copied := 0 }
  shutdown := false
  flusher := .asleep
  calls := []
  writer := .idle
  walEndLsn := initialLsn

/-- The actions: `startCall` and `stepCall` of the callers, `stepFlusher` of the background
thread, the writing, the note and the publication of a commit, the steps of a checkpoint, and
the shutdown, which waits until nobody uses the state.
-/
inductive Action where
  | startCall
  | stepCall (index : Nat) (syncOk : Bool)
  | stepFlusher (syncOk : Bool)
  | writeFrames (size : Nat)
  | noteWrite
  | publish
  | startCheckpoint
  | copyBack (ok : Bool)
  | lockRebase
  | storeDirty
  | storeDurable
  | persistHeader (ok : Bool)
  | shutDown
  deriving DecidableEq, Repr

def CallPhase.finished : CallPhase → Bool
  | .returned _ | .failed => true
  | _ => false

def stepFlusher (syncOk : Bool) (state : State) : Option State :=
  match state.flusher with
  | .asleep =>
    some { state with flusher := if state.shutdown then .exited else .flushing .locking }
  | .flushing phase =>
    (flushStep .flusher syncOk state.shared phase).map fun (shared, outcome) =>
      { state with
        shared
        flusher := match outcome with
          | .running phase => .flushing phase
          | .done | .failed => .asleep }
  | .exited => none

def stepCall (syncOk : Bool) (state : State) : Option State := do
  let call ← state.calls[index]?
  let (shared, phase) ← callStep index syncOk state.shutdown state.shared call.phase
  some { state with shared, calls := state.calls.set index { call with phase } }

variable (state : State)

/-- A commit: the frames are written after the end of the log, the new end is noted, and then
published.
-/
def commitStep : Action → Option State
  | .writeFrames size =>
    if state.writer = .idle ∧ 0 < size then
      let offset := if state.walEndLsn = 0 then walHeaderSize else state.walEndLsn
      some { state with writer := .written (offset + size) }
    else none
  | .noteWrite =>
    match state.writer with
    | .written endLsn =>
      some { state with
        shared :=
          { state.shared with
            dirtyLsn := max state.shared.dirtyLsn endLsn
            noted := state.shared.noted ++ [endLsn] }
        writer := .noted endLsn }
    | _ => none
  | .publish =>
    match state.writer with
    | .noted endLsn => some { state with writer := .idle, walEndLsn := endLsn }
    | _ => none
  | _ => none

/-- The call that a checkpoint waits for. -/
def State.checkpointCall : Option CallPhase :=
  match state.writer with
  | .checkpointing call => (state.calls[call]?).map Call.phase
  | _ => none

/-- A checkpoint: its own flush, the copy of all pages into the main file and the sync of it,
the two stores that set the watermarks back, and the new header of the log.
-/
def checkpointStep : Action → Option State
  | .startCheckpoint =>
    if state.writer = .idle then
      some { state with
        writer := .checkpointing state.calls.length
        calls := state.calls ++ [⟨state.shared.noted.length, .called⟩] }
    else none
  | .copyBack ok =>
    match state.checkpointCall with
    | some (.returned _) =>
      if ok then
        some { state with
          shared := { state.shared with copied := state.shared.noted.length }
          writer := .copied }
      else some { state with writer := .idle }
    | some .failed => some { state with writer := .idle }
    | _ => none
  | .lockRebase =>
    if state.writer = .copied ∧ state.shared.flushLock = none then
      some { state with
        shared := { state.shared with flushLock := some .checkpoint }
        writer := .rebasing }
    else none
  | .storeDirty =>
    if state.writer = .rebasing then
      some { state with
        shared := { state.shared with dirtyLsn := 0, rebasedAt := state.shared.noted.length }
        writer := .rebased }
    else none
  | .storeDurable =>
    if state.writer = .rebased then
      some { state with
        shared := { state.shared with durableLsn := 0, flushLock := none }
        writer := .truncating }
    else none
  | .persistHeader ok =>
    if state.writer = .truncating then
      some { state with writer := .idle, walEndLsn := if ok then 0 else state.walEndLsn }
    else none
  | _ => none

def system : System State Action where
  next state action :=
    match action with
    | .startCall =>
      if state.shutdown then none
      else some { state with
        calls := state.calls ++ [⟨state.shared.noted.length, .called⟩] }
    | .stepCall index syncOk => stepCall index syncOk state
    | .stepFlusher syncOk => stepFlusher syncOk state
    | .writeFrames _ | .noteWrite | .publish =>
      if state.shutdown then none else commitStep state action
    | .startCheckpoint | .copyBack _ | .lockRebase | .storeDirty | .storeDurable
    | .persistHeader _ =>
      if state.shutdown then none else checkpointStep state action
    | .shutDown =>
      if state.writer = .idle ∧ state.calls.all (·.phase.finished) then
        some { state with shutdown := true }
      else none

/-- How many steps of a run are steps of the call. -/
def ownSteps (actions : List Action) : Nat :=
  actions.countP fun
    | .stepCall stepped _ => stepped = index
    | _ => false

end DecentDb.Wal.AsyncCommit
