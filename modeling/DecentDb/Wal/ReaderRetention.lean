import DecentDb.Library.Evaluation
import DecentDb.Wal.GateCounters
import DecentDb.Wal.RetentionScan

/-! A checkpoint and the readers of all processes. A scan inside the exclusive gate that counts
no reader and finds no slot that blocks the truncation has missed nobody: while it runs no reader
can register, so a slot it has passed stays without one. And no scan clears the slot of a live
reader, since it writes a record only with the lock of the slot's byte.
-/

namespace DecentDb.Wal.Coordination

open List Option State
open TransitionSystem.System (run_invariant)

-- The threads and the gate

/-- Readers register inside the shared gate, and no scan is on the way into the gate. -/
structure Thread.Fits (thread : Thread) : Prop where
  registering : thread.job.registering → thread.gate = .holding false
  scanning : thread.job.scanning → thread.gate = .outside ∨ thread.gate = .holding true

def State.positions (state : State) : List (Nat × Gate) :=
  state.threads.map fun thread => (thread.process, thread.gate)

def State.jobs (state : State) : List (Nat × Job) :=
  state.threads.map fun thread => (thread.process, thread.job)

/-- The gate and the slots are sound, and every scan inside the exclusive gate knows of the
registered readers.
-/
structure State.Sound (state : State) : Prop where
  gate : GateSound state.gates state.positions
  slots : SlotSound state.table state.jobs
  fits : ∀ thread ∈ state.threads, thread.Fits
  scans : ∀ thread ∈ state.threads, thread.gate = .holding true
    → thread.job.ScanSound (Registered state.threads)

-- Steps of one thread

section

variable {state following : State} {index slot readerId snapshotLsn : Nat}
  {thread after holder other : Thread} {action : GateAction}

section

variable (found : state.threads[index]? = some thread)
include found

/-- The place of a thread in the gate. -/
theorem State.positions_at : state.positions[index]? = some (thread.process, thread.gate) := by
  simp [positions, found]

/-- The job of a thread. -/
theorem State.jobs_at : state.jobs[index]? = some (thread.process, thread.job) := by
  simp [jobs, found]

end

/-- Replacing a thread by one that registers nothing new leaves no more readers. -/
theorem Registered.of_set {threads : List Thread} (found : threads[index]? = some thread)
    (kept : ∀ reader, after.job = .registered reader → thread.job = .registered reader)
    (holds : Registered (threads.set index after) slot) : Registered threads slot := by
  obtain ⟨holder, member, reader, registered, atSlot⟩ := holds
  rcases mem_or_eq_of_mem_set member with old | rfl
  · exact ⟨holder, old, reader, registered, atSlot⟩
  · exact ⟨thread, mem_of_getElem? found, reader, kept reader registered, atSlot⟩

section

variable (sound : state.Sound)
include sound

/-- No registered reader has the slot that a scan has locked. -/
theorem State.Sound.not_registered
    (found : state.threads[index]? = some thread) (locks : thread.job.lockedSlot = some slot)
    (other : ∀ reader, thread.job ≠ .registered reader) : ¬Registered state.threads slot := by
  rintro ⟨holder, member, reader, registered, rfl⟩
  obtain ⟨place, there⟩ := getElem?_of_mem member
  have same := sound.slots.owner_unique (jobs_at there) (jobs_at found)
    (by rw [registered]; rfl) locks
  subst same
  rw [there] at found
  cases found
  exact other reader registered

/-- Inside the exclusive gate nobody is inside the shared one. -/
theorem State.Sound.none_shared
    (member : holder ∈ state.threads) (exclusive : holder.gate = .holding true)
    (otherMember : other ∈ state.threads) : other.gate ≠ .holding false := by
  intro shared
  have holderAt : (holder.process, Gate.holding true) ∈ state.positions :=
    exclusive ▸ mem_map_of_mem (f := fun t : Thread => (t.process, t.gate)) member
  have otherAt : (other.process, Gate.holding false) ∈ state.positions :=
    shared ▸ mem_map_of_mem (f := fun t : Thread => (t.process, t.gate)) otherMember
  cases (sound.gate.holding_alone holderAt otherAt).2

/-- A thread goes on at the slots or in the gate. A reader becomes registered only inside the
shared gate, where no scan inside the exclusive one can miss it.
-/
theorem State.Sound.set {gates : Gates} {table : SlotTable}
    (found : state.threads[index]? = some thread) (process : after.process = thread.process)
    (gateSound : GateSound gates (state.positions.set index (thread.process, after.gate)))
    (slotSound : SlotSound table (state.jobs.set index (thread.process, after.job)))
    (fits : after.Fits)
    (registers : ∀ reader, after.job = .registered reader → thread.job = .registered reader
      ∨ thread.gate = .holding false ∧ after.gate = .holding false)
    (scans : after.gate = .holding true → after.job.ScanSound (Registered state.threads))
    : Sound ⟨gates, table, state.threads.set index after⟩ := by
  refine ⟨?_, ?_, ?_, ?_⟩
  · simpa only [positions, map_set, process] using gateSound
  · simpa only [jobs, map_set, process] using slotSound
  · intro other member
    rcases mem_or_eq_of_mem_set member with old | rfl
    · exact sound.fits other old
    · exact fits
  intro other member exclusive
  have fewer (slot : Nat) : Registered (state.threads.set index after) slot
      → Registered state.threads slot := by
    refine Registered.of_set found fun reader isRegistered => ?_
    rcases registers reader isRegistered with before | ⟨shared, stays⟩
    · exact before
    rcases mem_or_eq_of_mem_set member with old | rfl
    · exact absurd shared (sound.none_shared old exclusive (mem_of_getElem? found))
    · rw [exclusive] at stays
      cases stays
  rcases mem_or_eq_of_mem_set member with old | rfl
  · exact (sound.scans other old exclusive).mono fewer
  · exact (scans exclusive).mono fewer

end

-- Every step

/-- The gate is not left or entered during a registration or a scan. -/
theorem Thread.Fits.gateStep (fits : thread.Fits) {gates following : Gates} {gate : Gate}
    (allowed : thread.job.allows action)
    (stepped : gateStep thread.process gates thread.gate action = some (following, gate))
    : Thread.Fits { thread with gate } ∧ (gate = .holding true → thread.job.scanning = false) := by
  have registers : thread.job.registering = false := by
    by_contra registering
    rw [Bool.not_eq_false] at registering
    rw [fits.registering registering] at stepped
    cases action with
    | leave => generalize thread.job = job at allowed registering; cases job <;> trivial
    | _ => cases stepped
  have scans : thread.job.scanning → gate = .outside := by
    intro scanning
    rcases fits.scanning scanning with outside | exclusive
    · rw [outside] at stepped
      cases action with
      | announce => generalize thread.job = job at allowed scanning; cases job <;> trivial
      | _ => cases stepped
    rw [exclusive] at stepped
    cases action with
    | leave =>
      cases stepped
      rfl
    | _ => cases stepped
  refine ⟨⟨fun registering => ?_, fun scanning => .inl (scans scanning)⟩, fun inside => ?_⟩
  · exact absurd (registering.symm.trans registers) nofun
  by_contra scanning
  rw [Bool.not_eq_false] at scanning
  rw [scans scanning] at inside
  cases inside

variable (sound : state.Sound)
include sound

/-- A step in the gate keeps the state sound. -/
theorem stepGate_sound
    (stepped : stepGate index action state = some following) : following.Sound := by
  obtain ⟨thread, found, stepped⟩ := bind_eq_some_iff.mp stepped
  split at stepped
  next allowed =>
    obtain ⟨⟨gates, gate⟩, moved, isFollowing⟩ := bind_eq_some_iff.mp stepped
    cases isFollowing
    obtain ⟨fits, quiet⟩ := (sound.fits thread (mem_of_getElem? found)).gateStep allowed moved
    refine sound.set found rfl (gateStep_sound (positions_at found) gate sound.gate moved) ?_ fits
      (fun _ registered => .inl registered) fun inside => .of_not_scanning (quiet inside)
    rw [set_of_getElem? (jobs_at found)]
    exact sound.slots
  next => cases stepped

/-- A step at the slots keeps the state sound if the move of its thread does. -/
theorem stepJob_sound {next : Thread → Option (SlotTable × Job)}
    (stepped : stepJob index state next = some following)
    (moves : ∀ thread table job, state.threads[index]? = some thread
      → next thread = some (table, job) → SlotEffect thread.process state.table table thread.job job
      ∧ Owns table thread.process job ∧ Thread.Fits { thread with job }
      ∧ (∀ reader, job = .registered reader → thread.gate = .holding false)
      ∧ (thread.gate = .holding true → job.ScanSound (Registered state.threads)))
    : following.Sound := by
  obtain ⟨thread, found, stepped⟩ := bind_eq_some_iff.mp stepped
  obtain ⟨⟨table, job⟩, moved, isFollowing⟩ := bind_eq_some_iff.mp stepped
  cases isFollowing
  obtain ⟨effect, owns, fits, registers, scans⟩ := moves thread table job found moved
  refine sound.set found rfl ?_ (sound.slots.step (jobs_at found) effect owns) fits
    (fun reader registered => .inr ⟨registers reader registered, registers reader registered⟩) scans
  rw [set_of_getElem? (positions_at found)]
  exact sound.gate

/-- A reader begins inside of the gate and holds no slot yet. -/
theorem beginReader_sound
    (stepped : system.next state (.beginReader index readerId snapshotLsn) = some following)
    : following.Sound := by
  refine stepJob_sound sound stepped fun thread table job found moved => ?_
  split at moved <;> cases moved
  next enabled =>
    exact ⟨.keep nofun, ⟨nofun, nofun, nofun, nofun⟩, ⟨fun _ => enabled.2, nofun⟩, nofun,
      fun _ => trivial⟩

/-- A reader that is dropped still owns its slot until it is cleared. -/
theorem dropReader_sound (stepped : system.next state (.dropReader index) = some following)
    : following.Sound := by
  refine stepJob_sound sound stepped fun thread table job found moved => ?_
  split at moved <;> cases moved
  next reader registered =>
    have owns := sound.slots.owns _ _ (mem_of_getElem? (jobs_at found))
    rw [registered] at owns ⊢
    exact ⟨.keep fun _ held => held, { owns with active := nofun },
      ⟨nofun, nofun⟩, nofun, fun _ => trivial⟩

/-- A scan begins with the gate to itself. -/
theorem beginScan_sound {readAtOnce : Bool}
    (stepped : system.next state (.beginScan index readAtOnce) = some following)
    : following.Sound := by
  refine stepJob_sound sound stepped fun thread table job found moved => ?_
  split at moved
  next enabled =>
    have outside := enabled.2.symm
    cases readAtOnce with
    | false =>
      cases moved
      exact ⟨.keep nofun, ⟨nofun, nofun, nofun, nofun⟩, ⟨nofun, fun _ => outside⟩, nofun,
        fun _ => ⟨nofun, fun _ slot before => absurd before (Nat.not_lt_zero slot)⟩⟩
    | true =>
      cases moved
      exact ⟨.keep nofun, ⟨nofun, nofun, nofun, nofun⟩, ⟨nofun, fun _ => outside⟩, nofun,
        fun _ => nofun⟩
  next => cases moved

/-- A step of a job keeps the state sound. -/
theorem step_sound {ok : Bool} (stepped : system.next state (.step index ok) = some following)
    : following.Sound := by
  refine stepJob_sound sound stepped fun thread table job found moved => ?_
  have member := mem_of_getElem? found
  have fits := sound.fits thread member
  obtain ⟨registering, scanning, registered⟩ := jobStep_phase moved
  refine ⟨jobStep_effect moved,
    jobStep_owns (sound.slots.owns _ _ (mem_of_getElem? (jobs_at found))) moved,
    ⟨fun registers => fits.registering (registering registers),
      fun scans => fits.scanning (scanning scans)⟩, ?_, ?_⟩
  · intro reader isRegistered
    refine fits.registering ?_
    rw [registered reader isRegistered]
    rfl
  intro exclusive
  refine jobStep_scanSound (sound.scans thread member exclusive)
    (fun slot holds => ?_) (fun scan isProbe => ?_) moved
  · obtain ⟨holder, member, reader, registered, rfl⟩ := holds
    exact (sound.slots.owns _ _ (mem_map_of_mem member)).active reader registered
  refine sound.not_registered found ?_ ?_
  · rw [isProbe]
    rfl
  · rw [isProbe]
    nofun

end

variable {state : State}

/-- A new thread holds nothing. -/
theorem spawn_sound (sound : state.Sound) (process : Nat)
    : Sound { state with threads := state.threads ++ [⟨process, .outside, .idle⟩] } := by
  refine ⟨?_, ?_, ?_, ?_⟩
  · simpa only [positions, map_append, map_cons, map_nil]
    using sound.gate.spawn process
  · simpa only [jobs, map_append, map_cons, map_nil]
    using sound.slots.spawn process
  · exact forall_mem_append.mpr ⟨sound.fits, forall_mem_singleton.mpr ⟨nofun, nofun⟩⟩
  intro thread member exclusive
  rcases mem_append.mp member with old | new
  · refine (sound.scans thread old exclusive).mono ?_
    rintro slot ⟨holder, isThere, reader, registered, atSlot⟩
    rcases mem_append.mp isThere with before | added
    · exact ⟨holder, before, reader, registered, atSlot⟩
    · cases mem_singleton.mp added
      cases registered
  · cases mem_singleton.mp new
    cases exclusive

/-- A process that ends takes its threads, its locks and its reservations with it. -/
theorem crash_sound (sound : state.Sound) (process : Nat) : State.Sound {
      gates := state.gates.crash process
      table := state.table.crash process
      threads := state.threads.filter (·.process ≠ process) } := by
  refine ⟨?_, ?_, ?_, ?_⟩
  · have kept := sound.gate.crash process
    rwa [State.positions, List.filter_map] at kept
  · have kept := sound.slots.crash process
    rwa [State.jobs, List.filter_map] at kept
  · exact fun thread member => sound.fits thread (List.mem_filter.mp member).1
  intro thread member exclusive
  refine (sound.scans thread (List.mem_filter.mp member).1 exclusive).mono ?_
  rintro slot ⟨holder, isThere, rest⟩
  exact ⟨holder, (List.mem_filter.mp isThere).1, rest⟩

/-- Every step keeps the state sound. -/
theorem next_sound (state : State) (action : Action) (following : State) (sound : state.Sound)
    (stepped : system.next state action = some following) : following.Sound := by
  cases action with
  | spawn process =>
    cases stepped
    exact spawn_sound sound process
  | gate index action => exact stepGate_sound sound stepped
  | beginReader index readerId snapshotLsn => exact beginReader_sound sound stepped
  | dropReader index => exact dropReader_sound sound stepped
  | beginScan index readAtOnce => exact beginScan_sound sound stepped
  | step index ok => exact step_sound sound stepped
  | crash process =>
    cases stepped
    exact crash_sound sound process

/-- Without threads there is nothing to hold. -/
theorem start_sound (slots : Nat → ReaderSlotRecord) : (start slots).Sound := by
  have positions : (start slots).positions = [] := rfl
  have jobs : (start slots).jobs = [] := rfl
  have noThread (thread : Thread) : thread ∉ (start slots).threads := not_mem_nil
  refine ⟨?_, ?_, fun thread member => absurd member (noThread thread),
    fun thread member => absurd member (noThread thread)⟩
  · rw [positions]
    exact ⟨fun _ => ⟨rfl, rfl, rfl, .inl rfl, Nat.zero_le _⟩,
      fun _ _ _ member => absurd member not_mem_nil,
      fun _ _ _ member => absurd member not_mem_nil⟩
  rw [jobs]
  refine ⟨fun _ _ member => absurd member not_mem_nil, fun first _ _ _ _ _ there => ?_⟩
  rw [getElem?_nil] at there
  cases there

/-- Every reachable state is sound. -/
theorem run_sound {slots : Nat → ReaderSlotRecord} {actions : List Action}
    (ran : system.run (start slots) actions = some state) : state.Sound :=
  run_invariant system Sound next_sound (start_sound slots) ran

-- Checkpoints and readers

/-- In every interleaving of readers, scans and ends of processes, over a file with any records:
while a thread holds the exclusive gate with the result of a scan that counts no reader and is
not blocked, no live process has a registered reader; and no step of a scan changes the record of
a slot that a live reader has locked.
-/
theorem scan_reader_retention_sees_readers {slots : Nat → ReaderSlotRecord}
    {actions : List Action} {state : State} (ran : system.run (start slots) actions = some state)
    : (∀ thread ∈ state.threads, ∀ retention, thread.gate = .holding true
        → thread.job = .scanned retention → retention.activeCount = 0
        → retention.truncationBlocked = false
        → ∀ other ∈ state.threads, ∀ reader, other.job ≠ .registered reader)
      ∧ ∀ index thread ok following, state.threads[index]? = some thread
        → thread.job.scanning → system.next state (.step index ok) = some following
        → ∀ other ∈ state.threads, ∀ reader, other.job.reader? = some reader
        → other.job.lockedSlot = some reader.slot
        → following.table.slots reader.slot = state.table.slots reader.slot := by
  have sound := run_sound ran
  refine ⟨?_, ?_⟩
  · intro thread member retention exclusive scanned none unblocked other otherMember reader
      registered
    have known := sound.scans thread member exclusive
    rw [scanned] at known
    have owns := sound.slots.owns other.process other.job (mem_map_of_mem otherMember)
    have inside : reader.slot < readerSlotCount := owns.inside reader (by rw [registered]; rfl)
    exact known ⟨none, unblocked⟩ reader.slot inside ⟨other, otherMember, reader, registered, rfl⟩
  intro index thread ok following found scanning stepped other otherMember reader isReader locks
  obtain ⟨current, foundAgain, stepped⟩ := bind_eq_some_iff.mp stepped
  obtain ⟨⟨table, job⟩, moved, isFollowing⟩ := bind_eq_some_iff.mp stepped
  cases isFollowing
  obtain rfl : thread = current := some.inj (found.symm.trans foundAgain)
  refine ((jobStep_effect moved).slots reader.slot).resolve_right fun scanLocks => ?_
  obtain ⟨place, there⟩ := getElem?_of_mem otherMember
  have same := sound.slots.owner_unique (jobs_at there) (jobs_at found) locks
    scanLocks
  subst same
  obtain rfl : other = thread := some.inj (there.symm.trans found)
  rw [Job.reader?_of_scanning scanning] at isReader
  cases isReader

/-- Slot 3 still has the record of a reader whose process has ended. -/
def staleSlots (slot : Nat) : ReaderSlotRecord :=
  if slot = 3 then ⟨.active, 9, 1, 50⟩ else emptyReaderSlotRecord

/-- A process registers a reader and drops it, and another one scans all slots for a
checkpoint.
-/
def checkpointRun : List Action :=
  [.spawn 1, .gate 0 (.announce false), .gate 0 .lead, .gate 0 .lockOs, .gate 0 .enter,
    .beginReader 0 7 100] ++ replicate 4 (.step 0 true) ++ [.gate 0 .leave, .dropReader 0]
    ++ replicate 3 (.step 0 true) ++ [.spawn 2, .gate 1 (.announce true), .gate 1 .lead,
      .gate 1 .lockOs, .gate 1 .enter, .beginScan 1 true]
    ++ replicate (65 + 64 * 4 + 2 + 1) (.step 1 true)

/-- A checkpoint alone among two processes sees no reader, and there is none. -/
theorem scan_reader_retention_sees_readers_of_checkpointRun
    : ∃ state, system.run (start staleSlots) checkpointRun = some state
      ∧ state.threads = [⟨1, .outside, .idle⟩, ⟨2, .holding true, .scanned ⟨none, 0, false⟩⟩]
      ∧ ∀ other ∈ state.threads, ∀ reader, other.job ≠ .registered reader := by
  refine Evaluation.exists_of_checked (fun state => state.threads
    = [⟨1, .outside, .idle⟩, ⟨2, .holding true, .scanned ⟨none, 0, false⟩⟩]) (by decide +kernel) ?_
  intro state ran threads
  refine ⟨threads, ?_⟩
  refine (scan_reader_retention_sees_readers ran).1 ⟨2, .holding true, .scanned ⟨none, 0, false⟩⟩
    ?_ ⟨none, 0, false⟩ rfl rfl rfl rfl
  rw [threads]
  simp

-- Exclusion

/-- A thread inside the exclusive gate is the only one inside the gate. -/
def State.ExclusiveAlone (state : State) : Prop :=
  ∀ (first second : Nat) (thread other : Thread) (mode : Bool), state.threads[first]? = some thread
    → state.threads[second]? = some other → thread.gate = .holding true
    → other.gate = .holding mode → first = second

/-- The gate excludes in every interleaving of the threads of all processes, whichever of these
end: the lock of the byte keeps out other processes, and the counter the threads of its own.
-/
theorem admission_gate_exclusive {slots : Nat → ReaderSlotRecord} {actions : List Action}
    {state : State} (ran : system.run (start slots) actions = some state)
    : state.ExclusiveAlone := by
  intro first second thread other mode found otherFound exclusive inside
  have gate := (run_sound ran).gate
  have holder := positions_at found
  have another := positions_at otherFound
  rw [exclusive] at holder
  rw [inside] at another
  obtain ⟨same, rfl⟩ := gate.holding_alone (mem_of_getElem? holder) (mem_of_getElem? another)
  rw [same] at another
  by_contra different
  -- Without the first thread the second one is still counted.
  have fewer := holders_set holder .outside thread.process true
  have left : 0 < holders (state.positions.set first (thread.process, .outside)) thread.process
      true :=
    countP_pos_iff.mpr ⟨_, mem_of_getElem? ((getElem?_set_ne different).trans another), by simp⟩
  have counted := (gate.processes thread.process).writer
  have one := Bool.toNat_le (state.gates.processes thread.process).writer
  simp at fewer
  omega

/-- The same run has the exclusive holder alone. -/
theorem admission_gate_exclusive_of_checkpointRun : ∃ state,
      system.run (start staleSlots) checkpointRun = some state ∧ state.ExclusiveAlone :=
  Evaluation.exists_of_checked (fun _ => True) (by decide +kernel) fun _ ran _ =>
    admission_gate_exclusive ran

-- The records of the readers

/-- The file has for each registered reader the record that it wrote. -/
def State.Recorded (state : State) : Prop :=
  ∀ thread ∈ state.threads, ∀ reader, thread.job = .registered reader
    → state.table.slots reader.slot = reader.record thread.process

/-- A thread that goes on at the slots writes no record of another reader. -/
theorem State.Recorded.stepJob {state following : State} {index : Nat}
    {next : Thread → Option (SlotTable × Job)} (recorded : state.Recorded) (sound : state.Sound)
    (stepped : stepJob index state next = some following)
    (moves : ∀ thread table job, next thread = some (table, job)
      → (∀ slot, table.slots slot = state.table.slots slot ∨ thread.job.lockedSlot = some slot)
        ∧ ∀ reader, job = .registered reader
          → table.slots reader.slot = reader.record thread.process)
    : following.Recorded := by
  obtain ⟨thread, found, stepped⟩ := bind_eq_some_iff.mp stepped
  obtain ⟨⟨table, job⟩, moved, isFollowing⟩ := bind_eq_some_iff.mp stepped
  cases isFollowing
  obtain ⟨kept, registers⟩ := moves thread table job moved
  intro other member reader registered
  obtain ⟨place, there⟩ := getElem?_of_mem member
  by_cases same : index = place
  · subst same
    rw [getElem?_set_self (List.getElem?_eq_some_iff.mp found).1] at there
    cases there
    exact registers reader registered
  rw [getElem?_set_ne same] at there
  refine ((kept reader.slot).resolve_right fun locks => same ?_).trans
    (recorded other (mem_of_getElem? there) reader registered)
  exact sound.slots.owner_unique (jobs_at found) (jobs_at there) locks (by rw [registered]; rfl)

/-- Every step keeps the records of the registered readers. -/
theorem State.Recorded.next {state following : State} {action : Action} (recorded : state.Recorded)
    (sound : state.Sound) (stepped : system.next state action = some following)
    : following.Recorded := by
  cases action with
  | spawn process =>
    cases stepped
    refine forall_mem_append.mpr ⟨recorded, forall_mem_singleton.mpr ?_⟩
    rintro reader ⟨⟩
  | gate index action =>
    obtain ⟨thread, found, stepped⟩ := bind_eq_some_iff.mp stepped
    split at stepped
    · obtain ⟨⟨gates, gate⟩, -, isFollowing⟩ := bind_eq_some_iff.mp stepped
      cases isFollowing
      intro other member
      rcases mem_or_eq_of_mem_set member with old | rfl
      · exact recorded other old
      · exact recorded thread (mem_of_getElem? found)
    · cases stepped
  | crash process =>
    cases stepped
    exact fun thread member => recorded thread (List.mem_filter.mp member).1
  | step index ok =>
    refine recorded.stepJob sound stepped fun thread table job moved =>
      ⟨(jobStep_effect moved).slots, ?_⟩
    rintro reader rfl
    rw [(jobStep_phase moved).2.2 reader rfl, jobStep] at moved
    split at moved <;> cases moved
    exact Function.update_self ..
  | beginReader | dropReader | beginScan =>
    refine recorded.stepJob sound stepped fun thread table job moved => ?_
    split at moved <;> cases moved
    exact ⟨fun _ => .inl rfl, by grind⟩

/-- In every interleaving the file has for each registered reader of a live process the record that
it wrote, with its snapshot, and no two readers have one slot.
-/
theorem registered_readers_recorded {slots : Nat → ReaderSlotRecord} {actions : List Action}
    {state : State} (ran : system.run (start slots) actions = some state)
    : state.Recorded ∧ ∀ (first second : Nat) (thread other : Thread) (reader another : Reader),
      state.threads[first]? = some thread → state.threads[second]? = some other
      → thread.job = .registered reader → other.job = .registered another
      → reader.slot = another.slot → first = second := by
  have both := run_invariant system (fun state => state.Sound ∧ state.Recorded)
    (fun _ _ _ holds taken => ⟨next_sound _ _ _ holds.1 taken, holds.2.next holds.1 taken⟩)
    ⟨start_sound slots, nofun⟩ ran
  refine ⟨both.2, ?_⟩
  intro first second thread other reader another found there registered alsoRegistered same
  exact both.1.slots.owner_unique (jobs_at found) (jobs_at there) (by rw [registered]; rfl)
    (by rw [alsoRegistered, same]; rfl)

/-- Slot 0 has the reader of the first process, which has not dropped it yet. -/
theorem registered_readers_recorded_of_first : ∃ state,
      system.run (start staleSlots) (checkpointRun.take 10) = some state
      ∧ state.threads.map Thread.job = [.registered ⟨0, 7, 100⟩] ∧ state.Recorded :=
  Evaluation.exists_of_checked
    (fun state => state.threads.map Thread.job = [.registered ⟨0, 7, 100⟩]) (by decide +kernel)
    fun _ ran jobs => ⟨jobs, (registered_readers_recorded ran).1⟩

end DecentDb.Wal.Coordination
