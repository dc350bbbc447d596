import DecentDb.Library.TransitionSystem
import DecentDb.Wal.AdmissionGate

/-! The reader slots of the coordination file. A reader takes a slot under the shared admission
gate: it reserves the slot in its process, locks the byte of the slot against other processes,
and writes its record. A scan looks at all slots, and clears those that nobody owns. Every read,
write, lock and reservation is a step of its own, and a process may end at any of them.
-/

namespace DecentDb.Wal.Coordination

open Function

open TransitionSystem (System)

-- The slots

def readerSlotCount : Nat := 64

inductive ReaderState where
  | empty
  | active
  | initializing
  deriving DecidableEq, Repr

structure ReaderSlotRecord where
  state : ReaderState
  processId : Nat
  readerId : Nat
  snapshotLsn : Nat
  deriving DecidableEq, Repr

def emptyReaderSlotRecord : ReaderSlotRecord where
  state := .empty
  processId := 0
  readerId := 0
  snapshotLsn := 0

/-- The records in the coordination file, the processes that have locked the byte of a slot, and
the slots that are reserved within a process.
-/
structure SlotTable where
  slots : Nat → ReaderSlotRecord
  locks : Nat → Option Nat
  reservations : Nat → Nat → Bool

namespace SlotTable

variable (table : SlotTable)

def write (slot : Nat) (record : ReaderSlotRecord) : SlotTable :=
  { table with slots := update table.slots slot record }

variable (process slot : Nat)

/-- Whether the system grants a process the lock of a slot. The locks of one process do not
conflict with each other.
-/
def granted : Bool :=
  table.locks slot = none || table.locks slot = some process

def lock : SlotTable :=
  { table with locks := update table.locks slot (some process) }

def unlock (slot : Nat) : SlotTable :=
  { table with locks := update table.locks slot none }

def setReservation (reserved : Bool) : SlotTable :=
  { table with
    reservations := update table.reservations process
      (update (table.reservations process) slot reserved) }

/-- When a process ends, its locks and its reservations are gone; the records stay. -/
def crash (process : Nat) : SlotTable :=
  { table with
    locks := fun slot => if table.locks slot = some process then none else table.locks slot
    reservations := update table.reservations process fun _ => false }

end SlotTable

-- Readers and scans

structure Reader where
  slot : Nat
  readerId : Nat
  snapshotLsn : Nat
  deriving DecidableEq, Repr

structure ReaderRetentionSnapshot where
  minSnapshotLsn : Option Nat
  activeCount : Nat
  truncationBlocked : Bool
  deriving DecidableEq, Repr

/-- A scan at a slot: the records that it read at once, unless that read failed, and what it has
found so far. A record that cannot be decoded is `none`.
-/
structure Scan where
  records : Option (List (Option ReaderSlotRecord))
  slot : Nat
  retention : ReaderRetentionSnapshot
  deriving DecidableEq, Repr

/-- What a thread is doing: registering a reader from `seeking` to `registered`, dropping it from
`clearing` on, or scanning the slots from `reading` to `scanned`.
-/
inductive Job where
  | idle
  | seeking (reader : Reader)
  | reserved (reader : Reader)
  | refused (reader : Reader)
  | locked (reader : Reader)
  | initialized (reader : Reader)
  | registered (reader : Reader)
  | clearing (reader : Reader)
  | unlocking (slot : Nat)
  | releasing (slot : Nat)
  | reading (records : List (Option ReaderSlotRecord))
  | atSlot (scan : Scan)
  | probing (scan : Scan) (record : ReaderSlotRecord)
  | probeReserved (scan : Scan) (record : ReaderSlotRecord)
  | probeLocked (scan : Scan)
  | probeUnlocking (scan : Scan)
  | probeReleasing (scan : Scan)
  | scanned (retention : ReaderRetentionSnapshot)
  deriving DecidableEq, Repr

def Reader.record (reader : Reader) (process : Nat) : ReaderSlotRecord where
  state := .active
  processId := process
  readerId := reader.readerId
  snapshotLsn := reader.snapshotLsn

variable (scan : Scan)

def Scan.blocked : Scan :=
  { scan with retention := { scan.retention with truncationBlocked := true } }

def Scan.next : Scan := { scan with slot := scan.slot + 1 }

/-- A slot that has an owner: an active reader counts, and any other record blocks the
truncation.
-/
def Scan.owned (record : ReaderSlotRecord) : Scan :=
  match record.state with
  | .active =>
    { scan with
      retention :=
        { scan.retention with
          activeCount := scan.retention.activeCount + 1
          minSnapshotLsn := some ((scan.retention.minSnapshotLsn.map
            (min · record.snapshotLsn)).getD record.snapshotLsn) } }
  | .initializing | .empty => scan.blocked

/-- The record that a scan sees at its slot; `ok` tells whether a single read succeeds. -/
def Scan.record (table : SlotTable) (ok : Bool) : Option ReaderSlotRecord :=
  match scan.records with
  | some records => (records[scan.slot]?).join
  | none => if ok then some (table.slots scan.slot) else none

/-- The next step of a thread; `ok` tells whether the read, write or lock call of the step
succeeds.
-/
def jobStep (process : Nat) (ok : Bool) (table : SlotTable) : Job → Option (SlotTable × Job)
  | .idle | .registered _ => none
  | .seeking reader =>
    if readerSlotCount ≤ reader.slot then some (table, .idle)
    else if table.reservations process reader.slot then
      some (table, .seeking { reader with slot := reader.slot + 1 })
    else some (table.setReservation process reader.slot true, .reserved reader)
  | .reserved reader =>
    if !ok then some (table, .releasing reader.slot)
    else if table.granted process reader.slot then
      some (table.lock process reader.slot, .locked reader)
    else some (table, .refused reader)
  | .refused reader =>
    some (table.setReservation process reader.slot false,
      .seeking { reader with slot := reader.slot + 1 })
  | .locked reader =>
    if ok then
      some (table.write reader.slot
        { reader.record process with state := .initializing, snapshotLsn := 0 },
        .initialized reader)
    else some (table, .unlocking reader.slot)
  | .initialized reader =>
    if ok then some (table.write reader.slot (reader.record process), .registered reader)
    else some (table, .unlocking reader.slot)
  | .clearing reader =>
    some (if ok then table.write reader.slot emptyReaderSlotRecord else table,
      .unlocking reader.slot)
  | .unlocking slot => some (table.unlock slot, .releasing slot)
  | .releasing slot => some (table.setReservation process slot false, .idle)
  | .reading records =>
    if records.length < readerSlotCount then
      some (table, .reading
        (records ++ [if ok then some (table.slots records.length) else none]))
    else some (table, .atSlot ⟨some records, 0, ⟨none, 0, false⟩⟩)
  | .atSlot scan =>
    if readerSlotCount ≤ scan.slot then some (table, .scanned scan.retention)
    else
      match scan.record table ok with
      | none => some (table, .atSlot scan.blocked.next)
      | some record => some (table, .probing scan record)
  | .probing scan record =>
    if table.reservations process scan.slot then
      some (table, .atSlot (scan.owned record).next)
    else some (table.setReservation process scan.slot true, .probeReserved scan record)
  | .probeReserved scan record =>
    if record.state = .empty then some (table, .probeReleasing scan)
    else if !ok then some (table, .releasing scan.slot)
    else if table.granted process scan.slot then
      some (table.lock process scan.slot, .probeLocked scan)
    else some (table, .probeReleasing (scan.owned record))
  | .probeLocked scan =>
    if ok then some (table.write scan.slot emptyReaderSlotRecord, .probeUnlocking scan)
    else some (table, .unlocking scan.slot)
  | .probeUnlocking scan => some (table.unlock scan.slot, .probeReleasing scan)
  | .probeReleasing scan =>
    some (table.setReservation process scan.slot false, .atSlot scan.next)
  | .scanned _ => some (table, .idle)

-- All processes

structure Thread where
  process : Nat
  gate : Gate
  job : Job
  deriving DecidableEq, Repr

structure State where
  gates : Gates
  table : SlotTable
  threads : List Thread

/-- No process runs yet; the file may hold any records. -/
def start (slots : Nat → ReaderSlotRecord) : State where
  gates := { processes := fun _ => newGate, osLocks := [] }
  table := { slots, locks := fun _ => none, reservations := fun _ _ => false }
  threads := []

inductive Action where
  | spawn (process : Nat)
  | gate (thread : Nat) (action : GateAction)
  | beginReader (thread readerId snapshotLsn : Nat)
  | dropReader (thread : Nat)
  | beginScan (thread : Nat) (readAtOnce : Bool)
  | step (thread : Nat) (ok : Bool)
  | crash (process : Nat)
  deriving DecidableEq, Repr

/-- A thread enters the gate before it registers a reader or scans, and it does not drop its
guard in between.
-/
def Job.allows : Job → GateAction → Bool
  | .idle, _ | .registered _, _ => true
  | .scanned _, .leave => true
  | _, .announce _ | _, .leave => false
  | _, _ => true

/-- A step of one thread in the gate. -/
def stepGate (index : Nat) (action : GateAction) (state : State) : Option State := do
  let thread ← state.threads[index]?
  if thread.job.allows action then
    let (gates, gate) ← gateStep thread.process state.gates thread.gate action
    some { state with gates, threads := state.threads.set index { thread with gate } }
  else none

/-- A step of one thread at the slots. -/
def stepJob (index : Nat) (state : State)
    (next : Thread → Option (SlotTable × Job)) : Option State := do
  let thread ← state.threads[index]?
  let (table, job) ← next thread
  some { state with table, threads := state.threads.set index { thread with job } }

/-- A reader registers inside the shared gate. A scan runs inside the exclusive gate, for a
checkpoint, or outside of it, for a report.
-/
def system : System State Action where
  next state action :=
    match action with
    | .spawn process =>
      some { state with threads := state.threads ++ [⟨process, .outside, .idle⟩] }
    | .gate index action => stepGate index action state
    | .beginReader index readerId snapshotLsn =>
      stepJob index state fun thread =>
        if thread.job = .idle ∧ thread.gate = .holding false then
          some (state.table, .seeking ⟨0, readerId, snapshotLsn⟩)
        else none
    | .dropReader index =>
      stepJob index state fun thread =>
        match thread.job with
        | .registered reader => some (state.table, .clearing reader)
        | _ => none
    | .beginScan index readAtOnce =>
      stepJob index state fun thread =>
        if thread.job = .idle ∧ (thread.gate = .holding true ∨ thread.gate = .outside) then
          some (state.table,
            if readAtOnce then .reading [] else .atSlot ⟨none, 0, ⟨none, 0, false⟩⟩)
        else none
    | .step index ok =>
      stepJob index state fun thread => jobStep thread.process ok state.table thread.job
    | .crash process =>
      some {
        gates := state.gates.crash process
        table := state.table.crash process
        threads := state.threads.filter (·.process ≠ process) }

end DecentDb.Wal.Coordination
