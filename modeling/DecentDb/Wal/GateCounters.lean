import DecentDb.Library.Lists
import DecentDb.Wal.AdmissionGate

/-! The counters of the admission gate agree with where the threads are, whatever steps they
take and whichever process ends. A thread inside the exclusive gate is the only one inside, in
its own process and in all others.
-/

namespace DecentDb.Wal.Coordination

open Gate List

section

variable (state : LocalAdmissionGateState) (exclusive : Bool)

/-- A waiter is counted apart from those inside. -/
@[simp]
theorem addAdmissionWaiter_counters : (addAdmissionWaiter state exclusive).readers = state.readers
    ∧ (addAdmissionWaiter state exclusive).writer = state.writer
    ∧ (addAdmissionWaiter state exclusive).pendingOsAttempt = state.pendingOsAttempt := by
  cases exclusive <;> exact ⟨rfl, rfl, rfl⟩

/-- A waiter that leaves changes nothing for those inside. -/
@[simp]
theorem decrementAdmissionWaiter_counters
    : (decrementAdmissionWaiter state exclusive).readers = state.readers
      ∧ (decrementAdmissionWaiter state exclusive).writer = state.writer
      ∧ (decrementAdmissionWaiter state exclusive).pendingOsAttempt = state.pendingOsAttempt := by
  cases exclusive <;> exact ⟨rfl, rfl, rfl⟩

end

-- The threads behind the counters

/-- The threads that try to get the lock of their process. -/
def Gate.attempting : Gate → Bool
  | .leading _ | .locked _ => true
  | _ => false

/-- The threads that rely on the lock of their process. -/
def Gate.relies (exclusive : Bool) : Gate → Bool
  | .locked mode | .holding mode => mode = exclusive
  | _ => false

section

variable (positions : List (Nat × Gate))

/-- The threads of a process inside the gate. -/
def holders (process : Nat) (exclusive : Bool) : Nat :=
  positions.countP fun position => position = (process, .holding exclusive)

def attempts (process : Nat) : Nat :=
  positions.countP fun position => position.1 = process && position.2.attempting

end

/-- The local gate counts the threads of its process: any number of readers, or one writer, or
one attempt at the lock.
-/
structure LocalSound (positions : List (Nat × Gate)) (process : Nat)
    (state : LocalAdmissionGateState) : Prop where
  readers : holders positions process false = state.readers
  writer : holders positions process true = state.writer.toNat
  pending : attempts positions process = state.pendingOsAttempt.isSome.toNat
  alone : state.readers = 0 ∨ state.writer.toNat + state.pendingOsAttempt.isSome.toNat = 0
  once : state.writer.toNat + state.pendingOsAttempt.isSome.toNat ≤ 1

/-- The gates count their threads, whose process has the lock that they rely on, and a process
with the exclusive lock is the only one with a lock.
-/
structure GateSound (gates : Gates) (positions : List (Nat × Gate)) : Prop where
  processes : ∀ process, LocalSound positions process (gates.processes process)
  relies : ∀ process gate exclusive, (process, gate) ∈ positions
    → gate.relies exclusive → (process, exclusive) ∈ gates.osLocks
  exclusive : ∀ first second mode, (first, true) ∈ gates.osLocks → (second, mode) ∈ gates.osLocks
    → first = second

variable {positions : List (Nat × Gate)} {gates : Gates}

/-- A thread inside the exclusive gate is the only one inside, by the lock of its process against
other processes and by the counters against its own.
-/
theorem GateSound.holding_alone (sound : GateSound gates positions)
    {process other : Nat} {mode : Bool} (exclusive : (process, .holding true) ∈ positions)
    (inside : (other, .holding mode) ∈ positions)
    : other = process ∧ mode := by
  have same : process = other := sound.exclusive process other mode
    (sound.relies _ _ true exclusive rfl) (sound.relies _ _ mode inside (by simp [Gate.relies]))
  subst same
  refine ⟨rfl, ?_⟩
  by_contra shared
  have local' := sound.processes process
  have writers : 0 < holders positions process true :=
    countP_pos_iff.mpr ⟨_, exclusive, by simp⟩
  have readers : 0 < holders positions process false := by
    refine countP_pos_iff.mpr ⟨_, inside, ?_⟩
    simpa using shared
  have := local'.alone
  rw [local'.writer] at writers
  rw [local'.readers] at readers
  omega

-- The steps keep the counters

section

variable {index process : Nat} {gate place : Gate}
  (found : positions[index]? = some (process, gate)) (next : Gate)
  {state after : LocalAdmissionGateState} {action : GateAction} {following : Gates}

include found

/-- One thread moves from its place to the next one. -/
theorem holders_set (other : Nat) (exclusive : Bool)
    : holders (positions.set index (process, next)) other exclusive
      + (decide ((process, gate) = (other, .holding exclusive))).toNat
      = holders positions other exclusive
        + (decide ((process, next) = (other, .holding exclusive))).toNat :=
  countP_set_add found _ _

/-- One thread begins or ends its attempt. -/
theorem attempts_set (other : Nat) : attempts (positions.set index (process, next)) other
      + (decide (process = other) && gate.attempting).toNat
      = attempts positions other + (decide (process = other) && next.attempting).toNat :=
  countP_set_add found _ _

/-- The threads of other processes stay where they are. -/
theorem LocalSound.other {other : Nat}
    (sound : LocalSound positions other state) (different : other ≠ process)
    : LocalSound (positions.set index (process, next)) other state := by
  have notSame : process ≠ other := Ne.symm different
  have readers := holders_set found next other false
  have writer := holders_set found next other true
  have pending := attempts_set found next other
  simp only [Prod.mk.injEq, notSame, false_and, decide_false, Bool.toNat_false, Nat.add_zero,
    Bool.false_and] at readers writer pending
  exact ⟨readers.trans sound.readers, writer.trans sound.writer, pending.trans sound.pending,
    sound.alone, sound.once⟩

section

variable (sound : LocalSound positions process state)
include sound

/-- The counters of the process follow its thread. -/
theorem LocalSound.step (readers : after.readers + (decide (gate = .holding false)).toNat
      = state.readers + (decide (next = .holding false)).toNat)
    (writer : after.writer.toNat + (decide (gate = .holding true)).toNat
      = state.writer.toNat + (decide (next = .holding true)).toNat)
    (pending : after.pendingOsAttempt.isSome.toNat + gate.attempting.toNat
      = state.pendingOsAttempt.isSome.toNat + next.attempting.toNat)
    (alone : after.readers = 0 ∨ after.writer.toNat + after.pendingOsAttempt.isSome.toNat = 0)
    (once : after.writer.toNat + after.pendingOsAttempt.isSome.toNat ≤ 1)
    : LocalSound (positions.set index (process, next)) process after := by
  have readersSet := holders_set found next process false
  have writerSet := holders_set found next process true
  have pendingSet := attempts_set found next process
  simp only [Prod.mk.injEq, true_and, decide_true, Bool.true_and] at readersSet writerSet pendingSet
  refine ⟨?_, ?_, ?_, alone, once⟩
  · have := sound.readers
    omega
  · have := sound.writer
    omega
  · have := sound.pending
    omega

omit found in
/-- Where the counters are zero, nobody relies on the lock. -/
theorem LocalSound.none_relies (readers : state.readers = 0)
    (others : state.writer.toNat + state.pendingOsAttempt.isSome.toNat = 0)
    (member : (process, place) ∈ positions) (mode : Bool)
    : place.relies mode = false := by
  have noReader := sound.readers
  have noWriter := sound.writer
  have noAttempt := sound.pending
  have holding (exclusive : Bool) (inside : place = .holding exclusive)
    : 0 < holders positions process exclusive :=
    countP_pos_iff.mpr ⟨_, member, by simp [inside]⟩
  have attempting (attempts' : place.attempting) : 0 < attempts positions process :=
    countP_pos_iff.mpr ⟨_, member, by simp [attempts']⟩
  cases place with
  | outside | waiting _ | leading _ => rfl
  | locked exclusive =>
    have := attempting rfl
    omega
  | holding exclusive =>
    have := holding exclusive rfl
    cases exclusive <;> omega

/-- What the counters say about a thread itself. -/
theorem LocalSound.present
    : (gate = .holding false → 0 < state.readers) ∧ (gate = .holding true → state.writer.toNat = 1)
      ∧ (gate.attempting → state.pendingOsAttempt.isSome.toNat = 1) := by
  have member := mem_of_getElem? found
  have noMore (flag : Bool) : flag.toNat ≤ 1 := Bool.toNat_le flag
  refine ⟨fun inside => ?_, fun inside => ?_, fun attempting => ?_⟩
  · rw [← sound.readers]
    exact countP_pos_iff.mpr ⟨_, member, by simp [inside]⟩
  · have positive : 0 < holders positions process true :=
    countP_pos_iff.mpr ⟨_, member, by simp [inside]⟩
    have := sound.writer
    have := noMore state.writer
    omega
  have positive : 0 < attempts positions process :=
  countP_pos_iff.mpr ⟨_, member, by simp [attempting]⟩
  have := sound.pending
  have := noMore state.pendingOsAttempt.isSome
  omega

end

/-- What a step in the gate does: the counters of its process follow the thread, and the lock of
the process stays for a thread that relies on it, is taken, or is given up when the counters
allow it.
-/
structure GateEffect (process : Nat) (gates following : Gates) (gate next : Gate) : Prop where
  others : ∀ other, other ≠ process → following.processes other = gates.processes other
  readers : (following.processes process).readers + (decide (gate = .holding false)).toNat
    = (gates.processes process).readers + (decide (next = .holding false)).toNat
  writer : (following.processes process).writer.toNat + (decide (gate = .holding true)).toNat
    = (gates.processes process).writer.toNat + (decide (next = .holding true)).toNat
  pending : (following.processes process).pendingOsAttempt.isSome.toNat + gate.attempting.toNat
    = (gates.processes process).pendingOsAttempt.isSome.toNat + next.attempting.toNat
  alone : (following.processes process).readers = 0
    ∨ (following.processes process).writer.toNat
      + (following.processes process).pendingOsAttempt.isSome.toNat = 0
  once : (following.processes process).writer.toNat
    + (following.processes process).pendingOsAttempt.isSome.toNat ≤ 1
  osLocks : following.osLocks = gates.osLocks
      ∧ (∀ mode, next.relies mode
        → gate.relies mode ∨ mode = false ∧ 0 < (gates.processes process).readers)
    ∨ (∃ exclusive, gate = .leading exclusive ∧ next = .locked exclusive
      ∧ gates.granted process exclusive
      ∧ following.osLocks = (process, exclusive) :: gates.osLocks.filter (·.1 ≠ process))
    ∨ (following.processes process).readers = 0
      ∧ (following.processes process).writer.toNat
        + (following.processes process).pendingOsAttempt.isSome.toNat = 0
      ∧ following.osLocks = gates.osLocks.filter (·.1 ≠ process)

section

omit found

variable
  (readers : after.readers + (decide (gate = .holding false)).toNat
    = (gates.processes process).readers + (decide (next = .holding false)).toNat)
  (writer : after.writer.toNat + (decide (gate = .holding true)).toNat
    = (gates.processes process).writer.toNat + (decide (next = .holding true)).toNat)
  (pending : after.pendingOsAttempt.isSome.toNat + gate.attempting.toNat
    = (gates.processes process).pendingOsAttempt.isSome.toNat + next.attempting.toNat)
include readers writer pending

/-- A step that changes the counters of its process and leaves the lock alone. -/
theorem GateEffect.set
    (alone : after.readers = 0 ∨ after.writer.toNat + after.pendingOsAttempt.isSome.toNat = 0)
    (once : after.writer.toNat + after.pendingOsAttempt.isSome.toNat ≤ 1)
    (keeps : ∀ mode, next.relies mode
      → gate.relies mode ∨ mode = false ∧ 0 < (gates.processes process).readers)
    : GateEffect process gates (gates.set process after) gate next := by
  have there : (gates.set process after).processes process = after := Function.update_self ..
  refine ⟨fun other different => Function.update_of_ne different .., ?_, ?_, ?_, ?_, ?_,
    .inl ⟨rfl, keeps⟩⟩ <;> rw [there] <;> assumption

/-- The last thread inside takes the lock of the process with it. -/
theorem GateEffect.unlock (noReader : after.readers = 0)
    (free : after.writer.toNat + after.pendingOsAttempt.isSome.toNat = 0)
    : GateEffect process gates ((gates.unlockOs process).set process after) gate next := by
  have there : ((gates.unlockOs process).set process after).processes process = after :=
    Function.update_self ..
  refine ⟨fun other different => Function.update_of_ne different .., ?_, ?_, ?_, ?_, ?_,
    .inr (.inr ⟨?_, ?_, rfl⟩)⟩ <;> rw [there]
  case refine_4 => exact .inl noReader
  case refine_5 => omega
  all_goals assumption

end

/-- Every step in the gate has this effect; the counters say who else may be inside. -/
theorem gateStep_effect (counts : LocalSound positions process (gates.processes process))
    (stepped : gateStep process gates gate action = some (following, next))
    : GateEffect process gates following gate next := by
  obtain ⟨isReader, isWriter, isAttempt⟩ := counts.present found
  have alone := counts.alone
  have once := counts.once
  cases gate with
  | outside =>
    cases action with
    | announce exclusive =>
      cases stepped
      exact .set _ (by simp) (by simp) (by simp [attempting]) (by simpa using alone)
        (by simpa using once) nofun
    | _ => cases stepped
  | waiting exclusive =>
    cases action with
    | join =>
      simp only [gateStep] at stepped
      split at stepped <;> cases stepped
      next joins =>
        -- A reader is inside, so nobody writes or tries for the lock.
        simp only [LocalAdmissionGateState.canJoinShared, Bool.and_eq_true, Bool.not_eq_true',
          decide_eq_true_eq, Option.isNone_iff_eq_none] at joins
        obtain ⟨⟨⟨⟨-, noWriter⟩, -⟩, noAttempt⟩, inside⟩ := joins
        refine .set _ (by simp) (by simp) (by simp [attempting]) (.inr ?_) ?_ fun mode relies =>
          .inr ⟨?_, inside⟩
        · simp [noWriter, noAttempt]
        · simp [noWriter, noAttempt]
        · simpa [Gate.relies] using relies
    | lead =>
      simp only [gateStep] at stepped
      split at stepped <;> cases stepped
      next leads =>
        simp only [LocalAdmissionGateState.canLeadOsAttempt, Bool.and_eq_true, Bool.not_eq_true',
          decide_eq_true_eq, Option.isNone_iff_eq_none] at leads
        obtain ⟨⟨⟨noAttempt, noWriter⟩, noReader⟩, -⟩ := leads
        exact .set _ (by simp) (by simp) (by simp [attempting, noAttempt]) (.inl noReader)
          (by simp [noWriter]) nofun
    | giveUp =>
      cases stepped
      exact .set _ (by simp) (by simp) (by simp [attempting]) (by simpa using alone)
        (by simpa using once) nofun
    | _ => cases stepped
  | leading exclusive =>
    have attempt := isAttempt rfl
    cases action with
    | lockOs =>
      simp only [gateStep] at stepped
      split at stepped <;> cases stepped
      next granted =>
        exact ⟨fun _ _ => rfl, by simp [Gates.lockOs], by simp [Gates.lockOs],
          by simp [Gates.lockOs, attempting], alone, once,
          .inr (.inl ⟨exclusive, rfl, rfl, granted, rfl⟩)⟩
    | failOs =>
      cases stepped
      have noReader : (gates.processes process).readers = 0 := by omega
      exact .set _ (by simp) (by simp) (by simp [attempting, attempt]) (.inl (by simpa using noReader))
        (by simp [Bool.toNat_le]) nofun
    | _ => cases stepped
  | locked exclusive =>
    have attempt := isAttempt rfl
    have noReader : (gates.processes process).readers = 0 := by omega
    have noWriter : (gates.processes process).writer.toNat = 0 := by omega
    cases action with
    | enter =>
      -- The attempt becomes the one writer or the first reader.
      cases stepped
      cases exclusive with
      | true =>
        exact .set _ (by simp) (by simp [noWriter]) (by simp [attempting, attempt])
          (.inl (by simpa using noReader)) (by simp) fun mode relies => .inl relies
      | false =>
        exact .set _ (by simp [noReader]) (by simp) (by simp [attempting, attempt])
          (.inr (by simpa using noWriter)) (by simp [noWriter]) fun mode relies => .inl relies
    | _ => cases stepped
  | holding exclusive =>
    cases action with
    | leave =>
      cases exclusive with
      | true =>
        have inside := isWriter rfl
        have noReader : (gates.processes process).readers = 0 := by omega
        have noAttempt : (gates.processes process).pendingOsAttempt.isSome.toNat = 0 := by omega
        cases stepped
        exact .unlock _ (by simp) (by simp [inside]) (by simp [attempting]) noReader
          (by simpa using noAttempt)
      | false =>
        have inside := isReader rfl
        have free : (gates.processes process).writer.toNat
          + (gates.processes process).pendingOsAttempt.isSome.toNat = 0 := by omega
        simp only [gateStep] at stepped
        split at stepped <;> cases stepped
        next last => exact .unlock _ (by simp; omega) (by simp) (by simp [attempting]) last free
        next => exact .set _ (by simp; omega) (by simp) (by simp [attempting]) (.inr free) once nofun
    | _ => cases exclusive <;> cases stepped

/-- Every step keeps the counters in accord with the threads. -/
theorem gateStep_sound (sound : GateSound gates positions)
    (stepped : gateStep process gates gate action = some (following, next))
    : GateSound following (positions.set index (process, next)) := by
  have counts := sound.processes process
  have effect := gateStep_effect found next counts stepped
  have isSound := counts.step found next effect.readers effect.writer effect.pending effect.alone
    effect.once
  have elsewhere {other : Nat} (mode : Bool) (different : other ≠ process)
      : (other, mode) ∈ following.osLocks ↔ (other, mode) ∈ gates.osLocks := by
    rcases effect.osLocks with ⟨locks, -⟩ | ⟨_, -, -, -, locks⟩ | ⟨-, -, locks⟩ <;> rw [locks] <;>
      simp [different]
  refine ⟨?_, ?_, ?_⟩
  · intro other
    by_cases same : other = process
    · subst same
      exact isSound
    · rw [effect.others other same]
      exact (sound.processes other).other found next same
  · intro other place mode member relies
    by_cases same : other = process
    · subst same
      rcases effect.osLocks with ⟨locks, keeps⟩ | ⟨exclusive, rfl, rfl, -, locks⟩ | ⟨none, free, -⟩
      · rw [locks]
        rcases mem_or_eq_of_mem_set member with old | new
        · exact sound.relies other place mode old relies
        cases new
        rcases keeps mode relies with had | ⟨rfl, inside⟩
        · exact sound.relies other gate mode (mem_of_getElem? found) had
        -- The process has the lock for the reader that is already inside.
        rw [← counts.readers] at inside
        obtain ⟨⟨_, _⟩, holder, isHolder⟩ := countP_pos_iff.mp inside
        cases of_decide_eq_true isHolder
        exact sound.relies other _ false holder rfl
      · -- Without this thread the process would have no thread at the lock.
        have attempt := (counts.present found).2.2 rfl
        have alone := counts.alone
        have once := counts.once
        have without : LocalSound (positions.set index (other, .outside)) other
            { gates.processes other with pendingOsAttempt := none } :=
          counts.step found _ (by simp) (by simp) (by simp [attempting, attempt])
            (.inl (by show (gates.processes other).readers = 0; omega))
            (Nat.le_trans (Nat.add_le_add_left (Nat.zero_le _) _) once)
        rw [locks]
        rw [← set_set (other, outside)] at member
        rcases mem_or_eq_of_mem_set member with old | new
        · have none := without.none_relies (show (gates.processes other).readers = 0 by omega)
            (show (gates.processes other).writer.toNat + 0 = 0 by omega) old mode
          rw [relies] at none
          cases none
        · cases new
          cases of_decide_eq_true relies
          exact mem_cons_self
      · rw [isSound.none_relies none free member mode] at relies
        cases relies
    rw [elsewhere mode same]
    rcases mem_or_eq_of_mem_set member with old | new
    · exact sound.relies other place mode old relies
    · exact absurd (Prod.mk.inj new).1 same
  intro first second mode firstLocked secondLocked
  rcases effect.osLocks with ⟨locks, -⟩ | ⟨exclusive, -, -, granted, locks⟩ | ⟨-, -, locks⟩
  · rw [locks] at firstLocked secondLocked
    exact sound.exclusive first second mode firstLocked secondLocked
  · have conflicts (owner : Nat) (held : Bool) (locked : (owner, held) ∈ gates.osLocks)
        : owner = process ∨ exclusive = false ∧ held = false := by
      simpa using all_eq_true.mp granted _ locked
    rw [locks] at firstLocked secondLocked
    grind
  · rw [locks] at firstLocked secondLocked
    exact sound.exclusive first second mode (mem_filter.mp firstLocked).1
      (mem_filter.mp secondLocked).1

end

-- Processes that start and end

/-- A thread that starts is outside. -/
theorem GateSound.spawn (sound : GateSound gates positions) (process : Nat)
    : GateSound gates (positions ++ [(process, .outside)]) := by
  refine ⟨fun other => ?_, ?_, sound.exclusive⟩
  · have counts := sound.processes other
    refine ⟨?_, ?_, ?_, counts.alone, counts.once⟩
    · rw [← counts.readers]
      simp [holders]
    · rw [← counts.writer]
      simp [holders]
    · rw [← counts.pending]
      simp [attempts, attempting]
  intro other gate mode member relies
  rcases mem_append.mp member with old | new
  · exact sound.relies other gate mode old relies
  · cases mem_singleton.mp new
    cases relies

/-- The threads of a process vanish with it. -/
theorem GateSound.crash (sound : GateSound gates positions) (process : Nat)
    : GateSound (gates.crash process) (positions.filter (·.1 ≠ process)) := by
  refine ⟨fun other => ?_, ?_, ?_⟩
  · have counts (counted : Nat × Gate → Bool)
        (own : ∀ position, counted position → position.1 = other)
        : (positions.filter (·.1 ≠ process)).countP counted
          = if other = process then 0 else positions.countP counted := by
      rw [countP_filter]
      split
      · grind [countP_eq_zero]
      · grind [countP_congr]
    have holding (exclusive : Bool) := counts (· = (other, .holding exclusive)) (by simp +contextual)
    have attempting := counts (fun position => position.1 = other && position.2.attempting)
      (by simp +contextual)
    have before := sound.processes other
    simp only [Gates.crash, Gates.set]
    by_cases same : other = process
    · subst same
      simp only [if_true] at holding attempting
      rw [Function.update_self]
      exact ⟨holding false, holding true, attempting, .inl rfl, Nat.zero_le _⟩
    simp only [same, if_false] at holding attempting
    rw [Function.update_of_ne same]
    exact ⟨(holding false).trans before.readers, (holding true).trans before.writer,
      attempting.trans before.pending, before.alone, before.once⟩
  · intro other gate mode member relies
    obtain ⟨there, different⟩ := List.mem_filter.mp member
    exact List.mem_filter.mpr ⟨sound.relies other gate mode there relies, different⟩
  · intro first second mode firstLocked secondLocked
    exact sound.exclusive first second mode (List.mem_filter.mp firstLocked).1
      (List.mem_filter.mp secondLocked).1

end DecentDb.Wal.Coordination
