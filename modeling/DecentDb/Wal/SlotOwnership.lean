import DecentDb.Wal.ReaderSlots

/-! Who owns a reader slot. Within a process the reservation keeps the threads apart, and between
processes the lock of the slot's byte does. So at most one thread holds the lock of a slot, and
only that thread writes its record.
-/

namespace DecentDb.Wal.Coordination

open List SlotTable

-- What a thread holds

/-- The slot that a thread has reserved in its process. -/
def Job.reservedSlot : Job → Option Nat
  | .reserved reader | .refused reader | .locked reader | .initialized reader
  | .registered reader | .clearing reader => some reader.slot
  | .unlocking slot | .releasing slot => some slot
  | .probeReserved scan _ | .probeLocked scan | .probeUnlocking scan | .probeReleasing scan =>
    some scan.slot
  | .idle | .seeking _ | .reading _ | .atSlot _ | .probing _ _ | .scanned _ => none

/-- The slot whose byte a thread has locked. -/
def Job.lockedSlot : Job → Option Nat
  | .locked reader | .initialized reader | .registered reader | .clearing reader =>
    some reader.slot
  | .unlocking slot => some slot
  | .probeLocked scan | .probeUnlocking scan => some scan.slot
  | _ => none

variable {slot index process first second left right : Nat} {table following : SlotTable}
  {jobs : List (Nat × Job)} {job next leftJob rightJob : Job} {ok : Bool}

/-- A thread reserves a slot before it locks it. -/
theorem Job.reservedSlot_of_lockedSlot {job : Job} (locks : job.lockedSlot = some slot)
    : job.reservedSlot = some slot := by
  cases job <;> first | exact locks | cases locks

/-- Finding a slot owned does not move the scan. -/
@[simp]
theorem Scan.owned_slot (scan : Scan) (record : ReaderSlotRecord)
    : (scan.owned record).slot = scan.slot := by
  cases state : record.state <;> simp [Scan.owned, state, Scan.blocked]

/-- The reader that a thread registers, once it has reserved a slot. -/
def Job.reader? : Job → Option Reader
  | .reserved reader | .refused reader | .locked reader | .initialized reader
  | .registered reader | .clearing reader => some reader
  | _ => none

/-- What the table has for a thread: its reservation, its lock, and the active record of its
registered reader.
-/
structure Owns (table : SlotTable) (process : Nat) (job : Job) : Prop where
  reserved : ∀ slot, job.reservedSlot = some slot → table.reservations process slot
  locked : ∀ slot, job.lockedSlot = some slot → table.locks slot = some process
  active : ∀ reader, job = .registered reader → (table.slots reader.slot).state = .active
  inside : ∀ reader, job.reader? = some reader → reader.slot < readerSlotCount

/-- Every thread owns what it holds, and no two threads of a process have reserved the same
slot.
-/
structure SlotSound (table : SlotTable) (jobs : List (Nat × Job)) : Prop where
  owns : ∀ process job, (process, job) ∈ jobs → Owns table process job
  apart : ∀ (first second process : Nat) (left right : Job) (slot : Nat),
    jobs[first]? = some (process, left) → jobs[second]? = some (process, right)
    → left.reservedSlot = some slot → right.reservedSlot = some slot → first = second

/-- What a move of a thread does at the slots: it changes the reservation of its process only at
a slot that it has or takes, and the lock and the record of a slot only as the owner of the lock,
or when the system grants it the lock.
-/
structure SlotEffect (process : Nat) (table following : SlotTable) (job next : Job) : Prop where
  reservations : ∀ owner slot, following.reservations owner slot = table.reservations owner slot
    ∨ owner = process ∧ (job.reservedSlot = some slot ∨ following.reservations owner slot)
  locks : ∀ slot, following.locks slot = table.locks slot ∨ job.lockedSlot = some slot
    ∨ table.granted process slot ∧ following.locks slot = some process
  slots : ∀ slot, following.slots slot = table.slots slot ∨ job.lockedSlot = some slot
  takes : ∀ slot, next.reservedSlot = some slot
    → job.reservedSlot = some slot ∨ table.reservations process slot = false

section

/-- A move that leaves the table alone and takes no slot. -/
theorem SlotEffect.keep
    (takes : ∀ slot, next.reservedSlot = some slot → job.reservedSlot = some slot)
    : SlotEffect process table table job next :=
  ⟨fun _ _ => .inl rfl, fun _ => .inl rfl, fun _ => .inl rfl, fun slot held => .inl (takes slot held)⟩

/-- A reservation changes nothing at other slots and for other processes. -/
theorem reservations_setReservation {owner other : Nat}
    (elsewhere : ¬(owner = process ∧ other = slot)) (reserved : Bool)
    : (table.setReservation process slot reserved).reservations owner other
      = table.reservations owner other := by
  by_cases mine : owner = process
  · subst mine
    have different : other ≠ slot := fun same => elsewhere ⟨rfl, same⟩
    simp [setReservation, different]
  · simp [setReservation, mine]

/-- A thread takes a slot that no thread of its process has reserved. -/
theorem SlotEffect.reserve (free : table.reservations process slot = false)
    (takes : next.reservedSlot = some slot)
    : SlotEffect process table (table.setReservation process slot true) job next := by
  refine ⟨fun owner other => ?_, fun _ => .inl rfl, fun _ => .inl rfl, fun other held => .inr ?_⟩
  · by_cases here : owner = process ∧ other = slot
    · exact .inr ⟨here.1, .inr (by simp [setReservation, here])⟩
    · exact .inl (reservations_setReservation here _)
  · cases takes.symm.trans held
    exact free

/-- A thread gives up the slot that it has reserved. -/
theorem SlotEffect.release (held : job.reservedSlot = some slot) (none : next.reservedSlot = none)
    : SlotEffect process table (table.setReservation process slot false) job next := by
  refine ⟨fun owner other => ?_, fun _ => .inl rfl, fun _ => .inl rfl, fun other held => ?_⟩
  · by_cases here : owner = process ∧ other = slot
    · exact .inr ⟨here.1, .inl (here.2 ▸ held)⟩
    · exact .inl (reservations_setReservation here _)
  · cases none.symm.trans held

section

variable {record : ReaderSlotRecord} (kept : next.reservedSlot = job.reservedSlot)
include kept

/-- The system grants a thread the lock of a slot. -/
theorem SlotEffect.lock (granted : table.granted process slot)
    : SlotEffect process table (table.lock process slot) job next := by
  refine ⟨fun _ _ => .inl rfl, fun other => ?_, fun _ => .inl rfl, fun _ held => .inl (kept ▸ held)⟩
  by_cases here : other = slot
  · subst here
    exact .inr (.inr ⟨granted, Function.update_self ..⟩)
  · exact .inl (Function.update_of_ne here ..)

/-- The owner of a slot's lock gives it up. -/
theorem SlotEffect.unlock (locked : job.lockedSlot = some slot)
    : SlotEffect process table (table.unlock slot) job next := by
  refine ⟨fun _ _ => .inl rfl, fun other => ?_, fun _ => .inl rfl, fun _ held => .inl (kept ▸ held)⟩
  by_cases here : other = slot
  · exact .inr (.inl (here ▸ locked))
  · exact .inl (Function.update_of_ne here ..)

/-- The owner of a slot's lock writes its record. -/
theorem SlotEffect.write (locked : job.lockedSlot = some slot)
    : SlotEffect process table (table.write slot record) job next := by
  refine ⟨fun _ _ => .inl rfl, fun _ => .inl rfl, fun other => ?_, fun _ held => .inl (kept ▸ held)⟩
  by_cases here : other = slot
  · exact .inr (here ▸ locked)
  · exact .inl (Function.update_of_ne here ..)

end

/-- Every step of a thread is one of these moves. -/
theorem jobStep_effect (stepped : jobStep process ok table job = some (following, next))
    : SlotEffect process table following job next := by
  cases job with
  | idle | registered reader => cases stepped
  | seeking reader =>
    simp only [jobStep] at stepped
    split at stepped
    · cases stepped
      exact .keep nofun
    split at stepped <;> cases stepped
    next => exact .keep nofun
    next free => exact .reserve (Bool.eq_false_iff.mpr free) rfl
  | reserved reader =>
    simp only [jobStep] at stepped
    split at stepped
    · cases stepped
      exact .keep fun _ held => held
    split at stepped <;> cases stepped
    next granted => exact .lock rfl granted
    next => exact .keep fun _ held => held
  | refused reader =>
    cases stepped
    exact .release rfl rfl
  | locked reader | initialized reader =>
    simp only [jobStep] at stepped
    split at stepped <;> cases stepped
    · exact .write rfl rfl
    · exact .keep fun _ held => held
  | clearing reader =>
    cases stepped
    cases ok with
    | true => exact .write rfl rfl
    | false => exact .keep fun _ held => held
  | unlocking slot =>
    cases stepped
    exact .unlock rfl rfl
  | releasing slot =>
    cases stepped
    exact .release rfl rfl
  | reading records =>
    simp only [jobStep] at stepped
    split at stepped <;> cases stepped <;> exact .keep nofun
  | atSlot scan =>
    simp only [jobStep] at stepped
    split at stepped
    · cases stepped
      exact .keep nofun
    split at stepped <;> cases stepped <;> exact .keep nofun
  | probing scan record =>
    simp only [jobStep] at stepped
    split at stepped <;> cases stepped
    next => exact .keep nofun
    next free => exact .reserve (Bool.eq_false_iff.mpr free) rfl
  | probeReserved scan record =>
    simp only [jobStep] at stepped
    split at stepped
    · cases stepped
      exact .keep fun _ held => held
    split at stepped
    · cases stepped
      exact .keep fun _ held => held
    split at stepped <;> cases stepped
    next granted => exact .lock rfl granted
    next => exact .keep fun _ held => by simpa [Job.reservedSlot] using held
  | probeLocked scan =>
    simp only [jobStep] at stepped
    split at stepped <;> cases stepped
    · exact .write rfl rfl
    · exact .keep fun _ held => held
  | probeUnlocking scan =>
    cases stepped
    exact .unlock rfl rfl
  | probeReleasing scan =>
    cases stepped
    exact .release rfl rfl
  | scanned retention =>
    cases stepped
    exact .keep nofun

/-- A thread without a reservation holds nothing that the table would have to have. -/
theorem Owns.of_unreserved (free : job.reservedSlot = none) : Owns table process job := by
  refine ⟨fun slot held => ?_, fun slot locked => ?_, fun reader registered => ?_,
    fun reader registers => ?_⟩
  · cases free.symm.trans held
  · cases free.symm.trans (Job.reservedSlot_of_lockedSlot locked)
  · subst registered
    cases free
  · have held : job.reservedSlot = some reader.slot := by
      cases job <;> cases registers <;> rfl
    cases free.symm.trans held

/-- A step takes a reservation before a lock, and gives them up in the opposite order; the record
is active once the reader is registered.
-/
theorem jobStep_owns (owns : Owns table process job)
    (stepped : jobStep process ok table job = some (following, next))
    : Owns following process next := by
  cases job with
  | idle | registered reader => cases stepped
  | seeking reader =>
    simp only [jobStep] at stepped
    split at stepped
    · cases stepped
      exact .of_unreserved rfl
    next beyond =>
      split at stepped <;> cases stepped
      · exact .of_unreserved rfl
      · refine ⟨fun slot held => ?_, nofun, nofun, fun reader registers => ?_⟩
        · cases held
          simp [setReservation]
        · cases registers
          exact Nat.lt_of_not_le beyond
  | reserved reader =>
    simp only [jobStep] at stepped
    split at stepped
    · cases stepped
      exact ⟨owns.reserved, nofun, nofun, nofun⟩
    split at stepped <;> cases stepped
    · refine ⟨owns.reserved, fun slot locked => ?_, nofun, owns.inside⟩
      cases locked
      exact Function.update_self ..
    · exact ⟨owns.reserved, nofun, nofun, owns.inside⟩
  | refused reader =>
    cases stepped
    exact .of_unreserved rfl
  | locked reader =>
    simp only [jobStep] at stepped
    split at stepped <;> cases stepped
    · exact ⟨owns.reserved, owns.locked, nofun, owns.inside⟩
    · exact ⟨owns.reserved, owns.locked, nofun, nofun⟩
  | initialized reader =>
    simp only [jobStep] at stepped
    split at stepped <;> cases stepped
    · refine ⟨owns.reserved, owns.locked, fun reader registered => ?_, owns.inside⟩
      cases registered
      simp [SlotTable.write, Reader.record]
    · exact ⟨owns.reserved, owns.locked, nofun, nofun⟩
  | clearing reader =>
    cases stepped
    cases ok <;> exact ⟨owns.reserved, owns.locked, nofun, nofun⟩
  | unlocking slot =>
    cases stepped
    exact ⟨owns.reserved, nofun, nofun, nofun⟩
  | releasing slot =>
    cases stepped
    exact .of_unreserved rfl
  | reading records =>
    simp only [jobStep] at stepped
    split at stepped <;> cases stepped <;> exact .of_unreserved rfl
  | atSlot scan =>
    simp only [jobStep] at stepped
    split at stepped
    · cases stepped
      exact .of_unreserved rfl
    split at stepped <;> cases stepped <;> exact .of_unreserved rfl
  | probing scan record =>
    simp only [jobStep] at stepped
    split at stepped <;> cases stepped
    · exact .of_unreserved rfl
    · refine ⟨fun slot held => ?_, nofun, nofun, nofun⟩
      cases held
      simp [setReservation]
  | probeReserved scan record =>
    simp only [jobStep] at stepped
    split at stepped
    · cases stepped
      exact ⟨owns.reserved, nofun, nofun, nofun⟩
    split at stepped
    · cases stepped
      exact ⟨owns.reserved, nofun, nofun, nofun⟩
    split at stepped <;> cases stepped
    · refine ⟨owns.reserved, fun slot locked => ?_, nofun, nofun⟩
      cases locked
      exact Function.update_self ..
    · refine ⟨fun slot held => owns.reserved slot ?_, nofun, nofun, nofun⟩
      simpa [Job.reservedSlot] using held
  | probeLocked scan =>
    simp only [jobStep] at stepped
    split at stepped <;> cases stepped <;> exact ⟨owns.reserved, owns.locked, nofun, nofun⟩
  | probeUnlocking scan =>
    cases stepped
    exact ⟨owns.reserved, nofun, nofun, nofun⟩
  | probeReleasing scan | scanned retention =>
    cases stepped
    exact .of_unreserved rfl

-- Every step

/-- The lock of a slot has one owner among all threads. -/
theorem SlotSound.owner_unique (sound : SlotSound table jobs)
    (leftFound : jobs[first]? = some (left, leftJob))
    (rightFound : jobs[second]? = some (right, rightJob))
    (leftLocks : leftJob.lockedSlot = some slot) (rightLocks : rightJob.lockedSlot = some slot)
    : first = second := by
  have leftLock := (sound.owns _ _ (mem_of_getElem? leftFound)).locked slot leftLocks
  have rightLock := (sound.owns _ _ (mem_of_getElem? rightFound)).locked slot rightLocks
  obtain rfl : left = right := Option.some.inj (leftLock.symm.trans rightLock)
  exact sound.apart first second left leftJob rightJob slot leftFound rightFound
    (Job.reservedSlot_of_lockedSlot leftLocks) (Job.reservedSlot_of_lockedSlot rightLocks)

/-- A thread that goes on leaves what the others own to them, and is alone with what it has
reserved.
-/
theorem SlotSound.step (sound : SlotSound table jobs) (found : jobs[index]? = some (process, job))
    (effect : SlotEffect process table following job next) (own : Owns following process next)
    : SlotSound following (jobs.set index (process, next)) := by
  have inside : index < jobs.length := (List.getElem?_eq_some_iff.mp found).1
  have cases {place owner : Nat} {held : Job}
      (there : (jobs.set index (process, next))[place]? = some (owner, held))
      : (place = index ∧ owner = process ∧ held = next)
        ∨ (place ≠ index ∧ jobs[place]? = some (owner, held)) := by
    by_cases same : place = index
    · subst same
      rw [getElem?_set_self inside] at there
      cases there
      exact .inl ⟨rfl, rfl, rfl⟩
    · rw [getElem?_set_ne (Ne.symm same)] at there
      exact .inr ⟨same, there⟩
  have alone {place : Nat} {held : Job} (different : place ≠ index)
      (there : jobs[place]? = some (process, held)) {slot : Nat}
      (reserved : next.reservedSlot = some slot) : held.reservedSlot ≠ some slot := by
    intro heldReserved
    rcases effect.takes slot reserved with mine | free
    · exact different (sound.apart place index process held job slot there found heldReserved mine)
    · have taken := (sound.owns _ _ (mem_of_getElem? there)).reserved slot heldReserved
      rw [free] at taken
      cases taken
  refine ⟨?_, ?_⟩
  · intro owner held member
    obtain ⟨place, there⟩ := getElem?_of_mem member
    rcases cases there with ⟨-, rfl, rfl⟩ | ⟨different, old⟩
    · exact own
    have owns := sound.owns _ _ (mem_of_getElem? old)
    have notMine {slot : Nat} (mine : job.lockedSlot = some slot) : held.lockedSlot ≠ some slot :=
      fun theirs => different (sound.owner_unique old found theirs mine)
    refine ⟨fun slot holds => ?_, fun slot holds => ?_, fun reader registered => ?_, owns.inside⟩
    · rcases effect.reservations owner slot with same | ⟨rfl, mine | taken⟩
      · rw [same]
        exact owns.reserved slot holds
      · exact absurd (sound.apart place index owner held job slot old found holds mine) different
      · exact taken
    · have theirs := owns.locked slot holds
      rcases effect.locks slot with same | mine | ⟨granted, taken⟩
      · rw [same]
        exact theirs
      · exact absurd holds (notMine mine)
      -- The system does not grant a lock that another process has.
      simp only [SlotTable.granted, theirs, reduceCtorEq, decide_false, Option.some.injEq,
        Bool.false_or, decide_eq_true_eq] at granted
      rw [taken, granted]
    have locks : held.lockedSlot = some reader.slot := by
      rw [registered]
      rfl
    rcases effect.slots reader.slot with same | mine
    · rw [same]
      exact owns.active reader registered
    · exact absurd locks (notMine mine)
  intro first second owner left right slot leftFound rightFound leftReserved rightReserved
  rcases cases leftFound with ⟨isFirst, rfl, rfl⟩ | ⟨firstOther, leftOld⟩
  · rcases cases rightFound with ⟨isSecond, -, -⟩ | ⟨secondOther, rightOld⟩
    · rw [isFirst, isSecond]
    · exact absurd rightReserved (alone secondOther rightOld leftReserved)
  rcases cases rightFound with ⟨-, rfl, rfl⟩ | ⟨secondOther, rightOld⟩
  · exact absurd leftReserved (alone firstOther leftOld rightReserved)
  · exact sound.apart first second owner left right slot leftOld rightOld leftReserved
      rightReserved

/-- A new thread holds nothing. -/
theorem SlotSound.spawn (sound : SlotSound table jobs) (process : Nat)
    : SlotSound table (jobs ++ [(process, .idle)]) := by
  have old {place owner : Nat} {held : Job} {slot : Nat}
    (there : (jobs ++ [(process, Job.idle)])[place]? = some (owner, held))
    (reserved : held.reservedSlot = some slot) : jobs[place]? = some (owner, held) := by
    rcases Nat.lt_or_ge place jobs.length with inside | outside
    · rwa [getElem?_append_left inside] at there
    rw [getElem?_append_right outside] at there
    have member := mem_of_getElem? there
    rw [mem_singleton] at member
    cases member
    cases reserved
  refine ⟨?_, ?_⟩
  · intro owner held member
    rcases mem_append.mp member with before | added
    · exact sound.owns owner held before
    · rw [mem_singleton] at added
      cases added
      exact ⟨nofun, nofun, nofun, nofun⟩
  · intro first second owner left right slot leftFound rightFound leftReserved rightReserved
    exact sound.apart first second owner left right slot (old leftFound leftReserved)
      (old rightFound rightReserved) leftReserved rightReserved

/-- Two threads of one process with one reservation. -/
def Clash (left right : Nat × Job) : Prop :=
  left.1 = right.1 ∧ ∃ slot, left.2.reservedSlot = some slot ∧ right.2.reservedSlot = some slot

/-- When a process ends, what the threads of the others hold is still theirs. -/
theorem SlotSound.crash (sound : SlotSound table jobs) (process : Nat)
    : SlotSound (table.crash process) (jobs.filter (·.1 ≠ process)) := by
  have pairwise : jobs.Pairwise fun left right => ¬Clash left right := by
    rw [pairwise_iff_getElem]
    rintro first second firstInside secondInside before ⟨sameProcess, slot, left, right⟩
    refine Nat.ne_of_lt before (sound.apart first second jobs[first].1 jobs[first].2 jobs[second].2 slot
      (getElem?_eq_getElem firstInside) ?_ left right)
    rw [sameProcess]
    exact getElem?_eq_getElem secondInside
  have kept := pairwise_iff_getElem.mp (pairwise.filter (·.1 ≠ process))
  refine ⟨?_, ?_⟩
  · intro owner held member
    obtain ⟨before, alive⟩ := List.mem_filter.mp member
    have notCrashed : owner ≠ process := of_decide_eq_true alive
    have owns := sound.owns owner held before
    refine ⟨fun slot holds => ?_, fun slot holds => ?_, owns.active, owns.inside⟩
    · simp only [SlotTable.crash, Function.update_of_ne notCrashed]
      exact owns.reserved slot holds
    · simp [SlotTable.crash, owns.locked slot holds, notCrashed]
  intro first second owner left right slot leftFound rightFound leftReserved rightReserved
  obtain ⟨firstInside, isLeft⟩ := List.getElem?_eq_some_iff.mp leftFound
  obtain ⟨secondInside, isRight⟩ := List.getElem?_eq_some_iff.mp rightFound
  rcases Nat.lt_trichotomy first second with before | same | after
  · refine absurd ?_ (kept first second firstInside secondInside before)
    rw [isLeft, isRight]
    exact ⟨rfl, slot, leftReserved, rightReserved⟩
  · exact same
  · refine absurd ?_ (kept second first secondInside firstInside after)
    rw [isLeft, isRight]
    exact ⟨rfl, slot, rightReserved, leftReserved⟩

end

end DecentDb.Wal.Coordination
