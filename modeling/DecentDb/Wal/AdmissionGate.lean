import Mathlib.Logic.Function.Basic

/-! The reader-admission gate between processes. Readers register under the shared gate and a
checkpoint scans them under the exclusive one. The operating system locks a byte of the
coordination file for a whole process, so each process counts its own threads in a local gate
and takes or releases the byte lock for all of them.
-/

namespace DecentDb.Wal.Coordination

-- The gate

/-- Where a thread is in `lock_admission_gate`: it has announced itself, it leads the attempt
to take the lock of the process, it got that lock, or it is inside.
-/
inductive Gate where
  | outside
  | waiting (exclusive : Bool)
  | leading (exclusive : Bool)
  | locked (exclusive : Bool)
  | holding (exclusive : Bool)
  deriving DecidableEq, Repr

structure LocalAdmissionGateState where
  readers : Nat
  writer : Bool
  waitingReaders : Nat
  waitingWriters : Nat
  pendingOsAttempt : Option Bool
  deriving DecidableEq, Repr

/-- The local gates of the processes, and the locks on the byte of the gate: the process and
whether its lock is exclusive.
-/
structure Gates where
  processes : Nat → LocalAdmissionGateState
  osLocks : List (Nat × Bool)

inductive GateAction where
  | announce (exclusive : Bool)
  | join
  | lead
  | lockOs
  | failOs
  | enter
  | giveUp
  | leave
  deriving DecidableEq, Repr

variable (state : LocalAdmissionGateState) (exclusive : Bool)

def addAdmissionWaiter : LocalAdmissionGateState :=
  if exclusive then { state with waitingWriters := state.waitingWriters + 1 }
  else { state with waitingReaders := state.waitingReaders + 1 }

def decrementAdmissionWaiter : LocalAdmissionGateState :=
  if exclusive then { state with waitingWriters := state.waitingWriters - 1 }
  else { state with waitingReaders := state.waitingReaders - 1 }

def LocalAdmissionGateState.canJoinShared : Bool :=
  !exclusive && !state.writer && state.waitingWriters = 0 && state.pendingOsAttempt.isNone
    && 0 < state.readers

def LocalAdmissionGateState.canLeadOsAttempt : Bool :=
  state.pendingOsAttempt.isNone && !state.writer && state.readers = 0
    && (exclusive || state.waitingWriters = 0)

variable (gates : Gates) (process : Nat)

/-- Whether the system grants a process the lock. The locks of one process do not conflict. -/
def Gates.granted (exclusive : Bool) : Bool :=
  gates.osLocks.all fun (owner, ownerExclusive) =>
    owner = process || (!exclusive && !ownerExclusive)

def Gates.lockOs (exclusive : Bool) : Gates :=
  { gates with osLocks := (process, exclusive) :: gates.osLocks.filter (·.1 ≠ process) }

def Gates.unlockOs : Gates :=
  { gates with osLocks := gates.osLocks.filter (·.1 ≠ process) }

def Gates.set (state : LocalAdmissionGateState) : Gates :=
  { gates with processes := Function.update gates.processes process state }

/-- One step of a thread of the process in `lock_admission_gate`, or the drop of its guard. -/
def gateStep (gates : Gates) : Gate → GateAction → Option (Gates × Gate)
  | .outside, .announce exclusive =>
    some (gates.set process (addAdmissionWaiter (gates.processes process) exclusive),
      .waiting exclusive)
  | .waiting exclusive, .join =>
    let state := gates.processes process
    if state.canJoinShared exclusive then
      some (gates.set process
        { decrementAdmissionWaiter state exclusive with readers := state.readers + 1 },
        .holding false)
    else none
  | .waiting exclusive, .lead =>
    let state := gates.processes process
    if state.canLeadOsAttempt exclusive then
      some (gates.set process { state with pendingOsAttempt := some exclusive },
        .leading exclusive)
    else none
  | .waiting exclusive, .giveUp =>
    some (gates.set process (decrementAdmissionWaiter (gates.processes process) exclusive),
      .outside)
  | .leading exclusive, .lockOs =>
    if gates.granted process exclusive then
      some (gates.lockOs process exclusive, .locked exclusive)
    else none
  | .leading exclusive, .failOs =>
    some (gates.set process
      { decrementAdmissionWaiter (gates.processes process) exclusive with
        pendingOsAttempt := none }, .outside)
  | .locked exclusive, .enter =>
    let state :=
      { decrementAdmissionWaiter (gates.processes process) exclusive with
        pendingOsAttempt := none }
    some (gates.set process
      (if exclusive then { state with writer := true } else { state with readers := 1 }),
      .holding exclusive)
  | .holding true, .leave =>
    let state := { gates.processes process with writer := false }
    some ((gates.unlockOs process).set process state, .outside)
  | .holding false, .leave =>
    let state :=
      { gates.processes process with readers := (gates.processes process).readers - 1 }
    if state.readers = 0 then some ((gates.unlockOs process).set process state, .outside)
    else some (gates.set process state, .outside)
  | _, _ => none

/-- The gate of a process that has just started. -/
def newGate : LocalAdmissionGateState where
  readers := 0
  writer := false
  waitingReaders := 0
  waitingWriters := 0
  pendingOsAttempt := none

/-- When a process ends, the system releases its lock. -/
def Gates.crash : Gates :=
  (gates.unlockOs process).set process newGate

end DecentDb.Wal.Coordination
