import DecentDb.Library.TransitionSystem
import DecentDb.Sync.Batches

/-! Watches on tables, key ranges and queries: how a commit's changes are taken, published and
queued, how a watch is created, and the steps of committers, subscribers and receivers that
can interleave. A query is the function of the committed data that it evaluates to.
-/

namespace DecentDb.Reactive

open TransitionSystem (System)

-- Changes and filters

structure RowChange where
  table : String
  primaryKey : Json

structure PrimaryKeyRange where
  table : String
  lower : Option Json
  upper : Option Json
  lowerInclusive : Bool
  upperInclusive : Bool

def primaryKeySingleValue (primaryKey : Json) : Option Json :=
  match primaryKey.asObject with
  | some [(_, value)] => some value
  | _ => none

/-- A number literal that is an integer of 64 bits. -/
def asI64 (literal : String) : Option Int :=
  literal.toInt?.filter fun value => -9223372036854775808 ≤ value && value ≤ 9223372036854775807

def compareJsonKey : Json → Json → Option Ordering
  | .number left, .number right => do
    let leftValue ← asI64 left
    let rightValue ← asI64 right
    some (compare leftValue rightValue)
  | .string left, .string right => some (compare left right)
  | _, _ => none

/-- A key that cannot be compared with a bound is taken to be inside. -/
def PrimaryKeyRange.includesChange (range : PrimaryKeyRange) (change : RowChange) : Bool :=
  if change.table ≠ range.table then false
  else
    match primaryKeySingleValue change.primaryKey with
    | none => true
    | some value =>
      let lowerOk := range.lower.all fun lower =>
        (compareJsonKey value lower).all fun ordering =>
          ordering = .gt || (range.lowerInclusive && ordering = .eq)
      let upperOk := range.upper.all fun upper =>
        (compareJsonKey value upper).all fun ordering =>
          ordering = .lt || (range.upperInclusive && ordering = .eq)
      lowerOk && upperOk

/-- What a watch is about; a query comes with the tables that it depends on. -/
inductive WatchFilter (Data Result : Type) where
  | tables (watched : List String)
  | range (keys : PrimaryKeyRange)
  | query (dependencies : List String) (evaluate : Data → Result)

/-- A transaction: what it does to the data and what the executor recorded about that. -/
structure Commit (Data : Type) where
  dirtyTables : List String
  rowChanges : List RowChange
  schemaChanged : Bool
  change : Data → Data

structure PendingReactiveCommit where
  changedTables : List String
  rowChanges : List RowChange
  rowChangesTruncated : Bool
  schemaChanged : Bool

section Hub

variable {Data Result : Type}

def WatchFilter.matches (filter : WatchFilter Data Result) (changedTables : List String)
    (rowChanges : List RowChange) (schemaChanged : Bool) : Bool :=
  match filter with
  | .tables watched | .query watched _ =>
    schemaChanged || changedTables.any fun table => watched.contains table
  | .range keys =>
    (schemaChanged || changedTables.any (· = keys.table))
      && (rowChanges.isEmpty || rowChanges.any keys.includesChange)

def WatchFilter.isQuery : WatchFilter Data Result → Bool
  | .query _ _ => true
  | _ => false

/-- Nothing is taken while nobody watches. -/
def takeReactivePendingCommit (maxRows : Nat) (hasWatchers : Bool) (commit : Commit Data)
    : Option PendingReactiveCommit :=
  let changed := (commit.dirtyTables.filter fun table => !Sync.isInternalTableName table)
    ++ commit.rowChanges.map (·.table)
  let truncated := decide (0 < maxRows ∧ maxRows < commit.rowChanges.length)
  if !hasWatchers then none
  else if changed.isEmpty && commit.rowChanges.isEmpty && !commit.schemaChanged then none
  else some {
    changedTables := changed
    rowChanges := if truncated then [] else commit.rowChanges
    rowChangesTruncated := truncated
    schemaChanged := commit.schemaChanged
  }

-- Watches

inductive WatchEvent (Result : Type) where
  | initial (snapshotLsn : Nat) (result : Option Result)
  | invalidate (eventId commitLsn : Nat)
  | lagged (lastSeenEventId latestEventId latestCommitLsn : Nat)
deriving DecidableEq

def WatchEvent.eventId : WatchEvent Result → Option Nat
  | .initial _ _ => none
  | .invalidate eventId _ => some eventId
  | .lagged _ latestEventId _ => some latestEventId

/-- A watch with its queue, and all the events that were received from it. -/
structure Watch (Data Result : Type) where
  id : Nat
  filter : WatchFilter Data Result
  queueCapacity : Nat
  snapshotLsn : Nat
  result : Option Result
  events : List (WatchEvent Result)
  lastDeliveredEventId : Nat
  received : List (WatchEvent Result)

namespace Watch

variable (watch : Watch Data Result)

/-- A full queue is replaced by one event that says so. -/
def enqueue (event : WatchEvent Result) (latestEventId latestCommitLsn : Nat) : Watch Data Result :=
  if watch.queueCapacity ≤ watch.events.length then
    { watch with
      events := [.lagged watch.lastDeliveredEventId latestEventId latestCommitLsn] }
  else { watch with events := watch.events ++ [event] }

def tryRecv : Watch Data Result :=
  match watch.events with
  | [] => watch
  | event :: rest => { watch with
    events := rest
    lastDeliveredEventId := event.eventId.getD watch.lastDeliveredEventId
    received := watch.received ++ [event] }

/-- What one commit does to a watch. -/
def offer (pending : PendingReactiveCommit) (eventId commitLsn : Nat) : Watch Data Result :=
  if watch.filter.matches pending.changedTables pending.rowChanges pending.schemaChanged then
    watch.enqueue (.invalidate eventId commitLsn) eventId commitLsn
  else watch

end Watch

-- Interleaved steps

/-- How far a commit has come: its changes are taken, it is in the WAL, or it has its event id
and goes through the watches that were there then.
-/
inductive CommitPhase (Data : Type) where
  | taken (commit : Commit Data) (pending : Option PendingReactiveCommit)
  | committed (lsn : Nat) (pending : Option PendingReactiveCommit)
  | publishing (lsn eventId : Nat) (pending : PendingReactiveCommit) (remaining : List Nat)

/-- How far a watch creation has come: the query has run, or the LSN has been read. -/
inductive Creation (Data Result : Type) where
  | queried (dependencies : List String) (evaluate : Data → Result) (queueCapacity : Nat)
    (result : Result)
  | ready (filter : WatchFilter Data Result) (queueCapacity : Nat) (result : Option Result)
    (snapshotLsn : Nat)

/-- The committed data now and at every LSN, the log of commits, the hub, and what is under
way. `assigned` keeps the event id of each published LSN.
-/
structure ReactiveState (Data Result : Type) where
  data : Data
  dataAt : Nat → Data
  latestLsn : Nat
  commits : List (Nat × Commit Data)
  nextEventId : Nat
  nextWatchId : Nat
  watches : List (Watch Data Result)
  assigned : List (Nat × Nat)
  committers : List (Nat × CommitPhase Data)
  creations : List (Nat × Creation Data Result)

def initialState (data : Data) : ReactiveState Data Result where
  data
  dataAt := fun _ => data
  latestLsn := 0
  commits := []
  nextEventId := 0
  nextWatchId := 0
  watches := []
  assigned := []
  committers := []
  creations := []

inductive ReactiveAction (Data Result : Type) where
  | take (committer : Nat) (commit : Commit Data)
  | commit (committer lsn : Nat)
  | assign (committer : Nat)
  | enqueue (committer : Nat)
  | runQuery (creator : Nat) (dependencies : List String) (evaluate : Data → Result)
    (queueCapacity : Nat)
  | readLsn (creator : Nat)
  | observe (creator : Nat) (filter : WatchFilter Data Result) (queueCapacity : Nat)
  | createWatch (creator : Nat)
  | receive (watchId : Nat)

/-- Replaces the entry of a process, or removes it. -/
@[irreducible]
def replace {Phase : Type} (entries : List (Nat × Phase)) (key : Nat) (phase : Option Phase)
    : List (Nat × Phase) :=
  let others := entries.filter fun entry => entry.1 ≠ key
  match phase with
  | some phase => (key, phase) :: others
  | none => others

namespace ReactiveState

/-- The changes of a transaction are taken if somebody watches now. -/
def take (maxRows : Nat) (state : ReactiveState Data Result) (committer : Nat)
    (commit : Commit Data) : Option (ReactiveState Data Result) :=
  match state.committers.lookup committer with
  | some _ => none
  | none =>
    let pending := takeReactivePendingCommit maxRows (!state.watches.isEmpty) commit
    some { state with
      committers := replace state.committers committer (some (.taken commit pending)) }

variable (state : ReactiveState Data Result)

/-- The data at the LSN of the commit and above is the new one. -/
def install (committer lsn : Nat) (commit : Commit Data)
    (pending : Option PendingReactiveCommit) : ReactiveState Data Result :=
  { state with
    data := commit.change state.data
    dataAt := fun snapshot =>
      if lsn ≤ snapshot then commit.change state.data else state.dataAt snapshot
    latestLsn := lsn
    commits := state.commits ++ [(lsn, commit)]
    committers := replace state.committers committer (some (.committed lsn pending)) }

def commit (state : ReactiveState Data Result) (committer lsn : Nat)
    : Option (ReactiveState Data Result) :=
  match state.committers.lookup committer with
  | some (.taken commit pending) =>
    if state.latestLsn < lsn then some (state.install committer lsn commit pending) else none
  | _ => none

def finish (committer : Nat) : ReactiveState Data Result :=
  { state with committers := replace state.committers committer none }

/-- The part of a publication under the lock of the hub. -/
def assignEvent (committer lsn : Nat)
    (pending : PendingReactiveCommit) : ReactiveState Data Result :=
  let eventId := state.nextEventId + 1
  { state with
    nextEventId := eventId
    assigned := (lsn, eventId) :: state.assigned
    committers := replace state.committers committer
      (some (.publishing lsn eventId pending (state.watches.map (·.id)))) }

def assign (committer : Nat) : Option (ReactiveState Data Result) :=
  match state.committers.lookup committer with
  | some (.committed _ none) => some (state.finish committer)
  | some (.committed lsn (some pending)) =>
    if state.watches.isEmpty then some (state.finish committer)
    else some (state.assignEvent committer lsn pending)
  | _ => none

def updateWatch (watchId : Nat)
    (update : Watch Data Result → Watch Data Result) : ReactiveState Data Result :=
  { state with
    watches := state.watches.map fun watch => if watch.id = watchId then update watch else watch }

/-- The event goes to the next of the watches that were there when it got its id. -/
def enqueue (committer : Nat) : Option (ReactiveState Data Result) :=
  match state.committers.lookup committer with
  | some (.publishing _ _ _ []) => some (state.finish committer)
  | some (.publishing lsn eventId pending (watchId :: rest)) =>
    some { state.updateWatch watchId (·.offer pending eventId lsn) with
      committers := replace state.committers committer
        (some (.publishing lsn eventId pending rest)) }
  | _ => none

variable (creator : Nat)

def setCreation (creation : Creation Data Result) : ReactiveState Data Result :=
  { state with creations := replace state.creations creator (some creation) }

def runQuery (dependencies : List String)
    (evaluate : Data → Result) (queueCapacity : Nat) : Option (ReactiveState Data Result) :=
  match state.creations.lookup creator with
  | some _ => none
  | none =>
    some (state.setCreation creator
      (.queried dependencies evaluate queueCapacity (evaluate state.data)))

def readLsn : Option (ReactiveState Data Result) :=
  match state.creations.lookup creator with
  | some (.queried dependencies evaluate queueCapacity result) =>
    some (state.setCreation creator
      (.ready (.query dependencies evaluate) queueCapacity (some result) state.latestLsn))
  | _ => none

/-- A watch on tables or on a range runs no query. -/
def observe (filter : WatchFilter Data Result) (queueCapacity : Nat)
    : Option (ReactiveState Data Result) :=
  match state.creations.lookup creator with
  | some _ => none
  | none =>
    if filter.isQuery then none
    else some (state.setCreation creator (.ready filter queueCapacity none state.latestLsn))

def addWatch (filter : WatchFilter Data Result) (queueCapacity : Nat) (result : Option Result)
    (snapshotLsn : Nat) : ReactiveState Data Result :=
  { state with
    nextWatchId := state.nextWatchId + 1
    watches := state.watches ++ [{
      id := state.nextWatchId + 1
      filter
      queueCapacity := max 1 queueCapacity
      snapshotLsn
      result
      events := [.initial snapshotLsn result]
      lastDeliveredEventId := 0
      received := []
    }]
    creations := replace state.creations creator none }

def createWatch : Option (ReactiveState Data Result) :=
  match state.creations.lookup creator with
  | some (.ready filter queueCapacity result snapshotLsn) =>
    some (state.addWatch creator filter queueCapacity result snapshotLsn)
  | _ => none

end ReactiveState

def reactiveSystem (Data Result : Type) (maxRows : Nat)
    : System (ReactiveState Data Result) (ReactiveAction Data Result) where
  next state
    | .take committer commit => state.take maxRows committer commit
    | .commit committer lsn => state.commit committer lsn
    | .assign committer => state.assign committer
    | .enqueue committer => state.enqueue committer
    | .runQuery creator dependencies evaluate queueCapacity =>
      state.runQuery creator dependencies evaluate queueCapacity
    | .readLsn creator => state.readLsn creator
    | .observe creator filter queueCapacity => state.observe creator filter queueCapacity
    | .createWatch creator => state.createWatch creator
    | .receive watchId => some (state.updateWatch watchId Watch.tryRecv)

end Hub

end DecentDb.Reactive
