import DecentDb.Library.Lines
import DecentDb.Library.TransitionSystem
import DecentDb.Sync.Batches
import DecentDb.Vfs.EncryptedFile

/-! The sync journal file: what a handle appends to it after a commit, how it is read and
pruned, and the steps that the threads of one process take on it. A file operation can fail
halfway, calls of different threads interleave, and a crash ends every handle.
-/

namespace DecentDb.Sync

open Lines (lines joinLines)
open TransitionSystem (System)
open Vfs

-- Lines

def newline : UInt8 := 10

def isBlank (byte : UInt8) : Bool := (9 ≤ byte && byte ≤ 13) || byte = 32

def trim (line : List UInt8) : List UInt8 :=
  ((line.dropWhile isBlank).reverse.dropWhile isBlank).reverse

/-- The serializer: a record that it can encode is one trimmed line and is parsed back. -/
class JournalCodec where
  encode : SyncJournalRecord → List UInt8
  parse : List UInt8 → Option SyncJournalRecord
  canEncode : SyncJournalRecord → Bool
  newline_not_mem : ∀ record, canEncode record → newline ∉ encode record
  trim_encode : ∀ record, canEncode record → trim (encode record) = encode record
  encode_ne_nil : ∀ record, canEncode record → encode record ≠ []
  parse_encode : ∀ record, canEncode record → parse (encode record) = some record

section Journal

variable [JournalCodec]

/-- The bytes of some records: a line for each. -/
def encodeRecords (records : List SyncJournalRecord) : List UInt8 :=
  joinLines newline (records.map JournalCodec.encode)

def parseLines : List (List UInt8) → DbResult (List SyncJournalRecord)
  | [] => .ok []
  | line :: rest =>
    if (trim line).isEmpty then parseLines rest
    else
      match JournalCodec.parse (trim line) with
      | none => .error (.corruption "failed to parse sync journal record")
      | some record => do
        let others ← parseLines rest
        .ok (record :: others)

variable (file : List UInt8)

def readJournalRecords (sinceSeq : Nat) (limit : Option Nat)
    : DbResult (List SyncJournalRecord) := do
  let records ← parseLines (lines newline file)
  let newer := records.filter (sinceSeq < ·.sequence)
  .ok (match limit with
    | none => newer
    | some limit => newer.take limit)

/-- The last sequence of the integrity report, which passes over malformed lines. -/
def lastSequence : Option Nat :=
  let records := (lines newline file).filterMap fun line =>
    if (trim line).isEmpty then none else JournalCodec.parse (trim line)
  records.getLast?.map (·.sequence)

/-- The sequence that a handle goes on with; the one stored in the metadata is always 1. -/
def effectiveSyncNextSequence : Nat :=
  max 1 (((lastSequence file).map (· + 1)).getD 1)

-- Operations of a handle

/-- What a handle keeps about the journal once capture is active on it. -/
structure SyncContext where
  nextSequence : Nat
  journalOpen : Bool
  journalWriteOffset : Nat
  deriving DecidableEq, Repr

structure SyncMutation where
  table : String
  operation : String
  primaryKey : Json
  after : Option Json
  schemaCookie : Nat

/-- The file operation that fails, if any: a write fails after some of its bytes. -/
inductive FileFault where
  | setLen
  | write (count : Nat)
  | sync
  deriving DecidableEq, Repr

def ioError : DbError := .io "sync journal"

/-- Writes all the bytes and makes them durable. -/
def writeAllAt (fault : Option FileFault) (file : List UInt8) (offset : Nat) (bytes : List UInt8)
    : List UInt8 × DbResult Unit :=
  match fault with
  | some (.write count) =>
    (if count = 0 then file else MemFile.writeAt file offset (bytes.take count), .error ioError)
  | some .sync => (MemFile.writeAt file offset bytes, .error ioError)
  | _ => (MemFile.writeAt file offset bytes, .ok ())

def ensureJournalOpen (context : SyncContext) : SyncContext :=
  if context.journalOpen then context
  else { context with journalOpen := true, journalWriteOffset := file.length }

/-- The origin of a flush: the replica, the commit and the clock. -/
structure FlushOrigin where
  replicaId : String
  transactionLsn : Nat
  nowMicros : Int

variable (origin : FlushOrigin)

def journalRecord (sequence : Nat) (mutation : SyncMutation)
    : SyncJournalRecord where
  schemaVersion := 1
  sequence
  replicaId := origin.replicaId
  transactionLsn := origin.transactionLsn
  table := mutation.table
  operation := mutation.operation
  primaryKey := mutation.primaryKey
  after := mutation.after
  schemaCookie := mutation.schemaCookie
  committedAtMicros := origin.nowMicros

def journalRecords (origin : FlushOrigin) : Nat → List SyncMutation → List SyncJournalRecord
  | _, [] => []
  | sequence, mutation :: rest =>
    journalRecord origin sequence mutation :: journalRecords origin (sequence + 1) rest

/-- The arguments of a prune and what the retention report says about the peers. -/
structure PruneRequest where
  through : Nat
  dryRun : Bool
  allowDataLoss : Bool
  safePruneThrough : Option Nat
  blockedBy : List String
  deriving DecidableEq, Repr

variable (request : PruneRequest)

def pruneRefusal : DbError :=
  match request.safePruneThrough with
  | some safe =>
    .sql s!"cannot prune through {request.through}; lowest peer watermark is {safe + 1}"
  | none =>
    if request.blockedBy.isEmpty then
      .sql s!"cannot prune through {request.through}; no peer watermarks are known"
    else .sql s!"cannot prune through {request.through}; lowest peer watermark is 0"

/-- Truncates the file and writes the retained records again. Only the handle that prunes
learns the new end of the file.
-/
def rewriteJournal (retained : List SyncJournalRecord) (fault : Option FileFault)
    (file : List UInt8) (context : Option SyncContext)
    : List UInt8 × Option SyncContext × DbResult Unit :=
  let buffer := encodeRecords retained
  match fault with
  | some .setLen => (file, context, .error ioError)
  | _ =>
    match writeAllAt fault (MemFile.resize file 0) 0 buffer with
    | (written, .error error) => (written, context, .error error)
    | (written, .ok ()) =>
      (written, context.map fun kept => { kept with journalWriteOffset := buffer.length },
        .ok ())

/-- What a prune retains, if it is to rewrite the file. -/
def planPrune (file : List UInt8) : DbResult (Option (List SyncJournalRecord)) :=
  if !request.allowDataLoss ∧ request.safePruneThrough.getD 0 < request.through then
    .error (pruneRefusal request)
  else do
    let records ← readJournalRecords file 0 none
    let retained := records.filter (request.through < ·.sequence)
    .ok (if request.dryRun || retained.length = records.length then none else some retained)

/-- A prune without anything in between. Returns the sequence through which it removed records, if
it did.
-/
def syncPruneJournal (fault : Option FileFault) (file : List UInt8)
    (context : Option SyncContext)
    : List UInt8 × Option SyncContext × DbResult (Option Nat) :=
  match planPrune request file with
  | .error error => (file, context, .error error)
  | .ok none => (file, context, .ok none)
  | .ok (some retained) =>
    match rewriteJournal retained fault file context with
    | (written, kept, .ok ()) => (written, kept, .ok (some request.through))
    | (written, kept, .error error) => (written, kept, .error error)

-- The handles of a process

/-- A call under way. A flush has numbered its records, has locked the file and read the offset, or
has written. A prune, which takes no lock, has read what it retains, has truncated the file, or has
written it again.
-/
inductive JournalJob where
  | numbered (handle : Nat) (records : List SyncJournalRecord) (next : Nat)
  | located (handle : Nat) (records : List SyncJournalRecord) (next offset : Nat)
  | written (handle : Nat) (records : List SyncJournalRecord) (next offset : Nat)
  | planned (handle : Nat) (retained : List SyncJournalRecord) (through : Nat)
  | truncated (handle : Nat) (retained : List SyncJournalRecord) (through : Nat)
  | rewritten (handle : Nat) (retained : List SyncJournalRecord) (through : Nat)

namespace JournalJob

def handle : JournalJob → Nat
  | .numbered handle _ _ | .located handle _ _ _ | .written handle _ _ _ | .planned handle _ _
  | .truncated handle _ _ | .rewritten handle _ _ => handle

/-- A flush holds the lock on the handle's file from reading the offset to its end. -/
def locks (lock : Nat) : JournalJob → Bool
  | .located handle _ _ _ | .written handle _ _ _ => handle = lock
  | _ => false

end JournalJob

inductive JournalAction where
  | attach (handle : Nat)
  | beginFlush (thread handle : Nat) (origin : FlushOrigin) (mutations : List SyncMutation)
  | beginPrune (thread handle : Nat) (request : PruneRequest)
  | advance (thread : Nat) (fault : Option FileFault)
  | close (handle : Nat)
  | crash

/-- The file, the contexts and the calls under way, with the records of all flushes that have
returned successfully and those of them that no completed prune removed.
-/
structure JournalState where
  file : List UInt8
  contexts : List (Nat × SyncContext)
  jobs : List (Nat × JournalJob)
  flushed : List SyncJournalRecord
  kept : List SyncJournalRecord

def initialJournal : JournalState where
  file := []
  contexts := []
  jobs := []
  flushed := []
  kept := []

variable (contexts : List (Nat × SyncContext))

def modifyContext (handle : Nat) (change : SyncContext → SyncContext)
    : List (Nat × SyncContext) :=
  contexts.map fun entry => if entry.1 = handle then (handle, change entry.2) else entry

/-- Replaces the call of a thread, or ends it. -/
def setJob (jobs : List (Nat × JournalJob)) (thread : Nat) (job : Option JournalJob)
    : List (Nat × JournalJob) :=
  job.toList.map (thread, ·) ++ jobs.filter (·.1 ≠ thread)

variable (state : JournalState) (thread handle : Nat)

/-- Capture becomes active on a handle, which takes its sequence from the file. -/
def attachHandle : JournalState :=
  match state.contexts.lookup handle with
  | some _ => state
  | none =>
    let context : SyncContext := {
      nextSequence := effectiveSyncNextSequence state.file
      journalOpen := false
      journalWriteOffset := 0
    }
    { state with contexts := (handle, context) :: state.contexts }

def JournalState.locked : Bool := state.jobs.any (·.2.locks handle)

/-- The start of `flush_journal`: opens the file and numbers the mutations, which are taken from
the handle before, so that a failed flush loses them.
-/
def beginFlush (origin : FlushOrigin) (mutations : List SyncMutation) : Option JournalState :=
  match state.jobs.lookup thread, state.contexts.lookup handle with
  | none, some context =>
    if mutations.isEmpty then some state
    else if state.locked handle then none
    else
      let opened := ensureJournalOpen state.file context
      some { state with
        contexts := modifyContext state.contexts handle fun _ => opened
        jobs := setJob state.jobs thread (some (.numbered handle
          (journalRecords origin opened.nextSequence mutations)
          (opened.nextSequence + mutations.length))) }
  | _, _ => none

/-- The start of `sync_prune_journal`, which can be asked of a handle without capture. -/
def beginPrune (request : PruneRequest) : Option JournalState :=
  match state.jobs.lookup thread with
  | some _ => none
  | none =>
    match planPrune request state.file with
    | .ok (some retained) => some { state with
      jobs := setJob state.jobs thread (some (.planned handle retained request.through)) }
    | _ => some state

/-- The next step of a call: a flush locks the file and reads the offset, writes, and stores the
new offset and sequence; a prune truncates the file, writes it again, and stores the new offset.
-/
def advanceJob (fault : Option FileFault) : JournalJob → Option JournalState
  | .numbered handle records next =>
    if state.locked handle then none
    else (state.contexts.lookup handle).map fun context => { state with
      jobs := setJob state.jobs thread
        (some (.located handle records next context.journalWriteOffset)) }
  | .located handle records next offset =>
    match writeAllAt fault state.file offset (encodeRecords records) with
    | (file, .error _) => some { state with file, jobs := setJob state.jobs thread none }
    | (file, .ok ()) => some { state with
      file
      jobs := setJob state.jobs thread (some (.written handle records next offset)) }
  | .written handle records next offset => some { state with
    contexts := modifyContext state.contexts handle fun context => { context with
      journalWriteOffset := offset + (encodeRecords records).length
      nextSequence := next }
    jobs := setJob state.jobs thread none
    flushed := state.flushed ++ records
    kept := state.kept ++ records }
  | .planned handle retained through =>
    match fault with
    | some .setLen => some { state with jobs := setJob state.jobs thread none }
    | _ => some { state with
      file := MemFile.resize state.file 0
      jobs := setJob state.jobs thread (some (.truncated handle retained through)) }
  | .truncated handle retained through =>
    match writeAllAt fault state.file 0 (encodeRecords retained) with
    | (file, .error _) => some { state with file, jobs := setJob state.jobs thread none }
    | (file, .ok ()) => some { state with
      file
      jobs := setJob state.jobs thread (some (.rewritten handle retained through)) }
  | .rewritten handle retained through => some { state with
    contexts := modifyContext state.contexts handle fun context => { context with
      journalWriteOffset := (encodeRecords retained).length }
    jobs := setJob state.jobs thread none
    kept := state.kept.filter (through < ·.sequence) }

/-- The threads of a process on the handles of one database. -/
def journalSystem : System JournalState JournalAction where
  next state
    | .attach handle => some (attachHandle state handle)
    | .beginFlush thread handle origin mutations => beginFlush state thread handle origin mutations
    | .beginPrune thread handle request => beginPrune state thread handle request
    | .advance thread fault => (state.jobs.lookup thread).bind (advanceJob state thread fault)
    | .close handle =>
      if state.jobs.any (·.2.handle = handle) then none
      else some { state with contexts := state.contexts.filter fun entry => entry.1 ≠ handle }
    | .crash => some { state with contexts := [], jobs := [] }

end Journal

end DecentDb.Sync
