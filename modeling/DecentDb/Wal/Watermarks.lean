import DecentDb.Wal.AsyncCommit

/-! What the two watermarks of the asynchronous commit mode say about the commits, and what the
threads know from them: a flush that holds the lock about its target, and a caller of
`flush_to_durable` about the commits that were noted before its call.
-/

namespace DecentDb.Wal.AsyncCommit

open List

-- What the watermarks say

variable {shared first second following : Shared}
  {index endLsn target synced copied commit count more : Nat} {phase : FlushPhase} {holder : Holder}
  {syncOk shutdown : Bool}

namespace Shared

/-- The number of commits that are durable. -/
def covered (shared : Shared) : Nat := max shared.synced shared.copied

/-- A commit is durable if it was synced or copied back. -/
theorem covers_iff : shared.Covers commit ↔ commit < shared.covered := by
  rw [Covers, covered]
  omega

/-- The higher one of the watermarks. -/
def peak (shared : Shared) : Nat := max shared.dirtyLsn shared.durableLsn

/-- The commits since the watermarks were set back, up to an end of the log, are among the
first `count` ones.
-/
def Within (shared : Shared) (target count : Nat) : Prop :=
  ∀ index endLsn, shared.rebasedAt ≤ index → shared.noted[index]? = some endLsn
    → endLsn ≤ target → index < count

/-- Commits before the watermarks were set back are durable; later ones are so up to the
durable watermark, and none is after the dirty one.
-/
structure Sound (shared : Shared) : Prop where
  known : shared.copied ≤ shared.noted.length
  rebased : shared.rebasedAt ≤ shared.covered
  durable : shared.Within shared.durableLsn shared.covered
  dirty : ∀ index endLsn, shared.rebasedAt ≤ index → shared.noted[index]? = some endLsn
    → endLsn ≤ shared.dirtyLsn

/-- What the steps of other threads may do, except for the stores that set the watermarks
back: watermarks and coverage rise, and a commit is noted after the dirty watermark.
-/
structure Advances (first second : Shared) : Prop where
  dirty : first.dirtyLsn ≤ second.dirtyLsn
  durable : first.durableLsn ≤ second.durableLsn
  rebasedAt : second.rebasedAt = first.rebasedAt
  covered : first.covered ≤ second.covered
  noted : second.noted = first.noted
    ∨ ∃ endLsn, first.dirtyLsn < endLsn ∧ second.noted = first.noted ++ [endLsn]

section

variable (advances : first.Advances second)
include advances

/-- Commits are only added. -/
theorem Advances.length : first.noted.length ≤ second.noted.length := by
  rcases advances.noted with same | ⟨endLsn, -, longer⟩
  · rw [same]
  · rw [longer, length_append]
    exact Nat.le_add_right _ _

/-- A commit at or below the dirty watermark was there before. -/
theorem Advances.getElem (found : second.noted[index]? = some endLsn)
    (below : endLsn ≤ first.dirtyLsn)
    : first.noted[index]? = some endLsn := by
  rcases advances.noted with same | ⟨later, above, longer⟩
  · rwa [← same]
  rw [longer, getElem?_append] at found
  split at found
  · exact found
  · have same : endLsn = later := mem_singleton.mp (mem_of_getElem? found)
    omega

/-- Earlier commits keep their ends. -/
theorem Advances.getElem_of_lt (found : second.noted[index]? = some endLsn)
    (earlier : index < first.noted.length)
    : first.noted[index]? = some endLsn := by
  rcases advances.noted with same | ⟨later, -, longer⟩
  · rwa [← same]
  · rwa [longer, getElem?_append_left earlier] at found

/-- A target that was reached by some commits is so later on. -/
theorem Advances.within (below : target ≤ first.dirtyLsn)
    (within : first.Within target count) (fewer : count ≤ more)
    : second.Within target more := by
  intro index endLsn later found atMost
  rw [advances.rebasedAt] at later
  have there := advances.getElem found (le_trans atMost below)
  exact lt_of_lt_of_le (within index endLsn later there atMost) fewer

end

/-- The lock is not among what the watermarks say. -/
theorem Sound.relock (sound : shared.Sound) (lock : Option Holder)
    : Sound { shared with flushLock := lock } :=
  { sound with }

/-- Taking or leaving the flush lock advances nothing. -/
theorem Advances.relock (shared : Shared) (lock : Option Holder)
    : shared.Advances { shared with flushLock := lock } :=
  ⟨le_rfl, le_rfl, rfl, le_rfl, .inl rfl⟩

/-- Nothing has to advance. -/
theorem Advances.refl (shared : Shared) : shared.Advances shared := .relock shared _

/-- What no flush does: note a commit, copy pages, or raise the higher watermark. -/
structure Frame (first second : Shared) : Prop where
  noted : second.noted = first.noted
  copied : second.copied = first.copied
  dirty : second.dirtyLsn = first.dirtyLsn
  peak : second.peak ≤ first.peak

/-- Taking or leaving the flush lock keeps the rest. -/
theorem Frame.relock (shared : Shared) (lock : Option Holder)
    : shared.Frame { shared with flushLock := lock } :=
  ⟨rfl, rfl, rfl, le_rfl⟩

/-- Everything is kept by doing nothing. -/
theorem Frame.refl (shared : Shared) : shared.Frame shared := .relock shared _

/-- More commits are durable. -/
theorem Sound.cover (sound : shared.Sound) (more : shared.covered ≤ max synced copied)
    (known : copied ≤ shared.noted.length)
    : Sound { shared with synced, copied } :=
  ⟨known, le_trans sound.rebased more, fun index endLsn later found below =>
      lt_of_lt_of_le (sound.durable index endLsn later found below) more,
    sound.dirty⟩

/-- More durable commits are an advance. -/
theorem Advances.cover (more : shared.covered ≤ max synced copied)
    : shared.Advances { shared with synced, copied } :=
  ⟨le_rfl, le_rfl, rfl, more, .inl rfl⟩

end Shared

-- Flushes

/-- What a thread knows in its flush. -/
def FlushSound (shared : Shared) : FlushPhase → Prop
  | .locking | .locked | .notifying => True
  | .loaded target => target ≤ shared.dirtyLsn
  | .syncing target before => target ≤ shared.dirtyLsn ∧ shared.Within target before
  | .synced target => target ≤ shared.dirtyLsn ∧ shared.Within target shared.covered

/-- What a flush knows stays true. -/
theorem FlushSound.advances (sound : FlushSound first phase) (advances : first.Advances second)
    : FlushSound second phase := by
  cases phase with
  | locking | locked | notifying => trivial
  | loaded target => exact le_trans sound advances.dirty
  | syncing target before =>
    exact ⟨le_trans sound.1 advances.dirty, advances.within sound.1 sound.2 le_rfl⟩
  | synced target =>
    exact ⟨le_trans sound.1 advances.dirty, advances.within sound.1 sound.2 advances.covered⟩

/-- The phases in which a flush holds the lock. -/
def FlushPhase.holds : FlushPhase → Bool
  | .locking => false
  | _ => true

/-- What one step of a flush does: it has the lock or takes it, and it keeps the watermarks
right.
-/
structure Flushed (holder : Holder) (shared : Shared) (phase : FlushPhase) (following : Shared)
    (outcome : FlushOutcome) : Prop where
  sound : following.Sound
  advances : shared.Advances following
  frame : shared.Frame following
  taken : phase.holds = false → shared.flushLock = none
  running : ∀ next, outcome = .running next
    → FlushSound following next ∧ next.holds
      ∧ (shared.flushLock = some holder ∨ phase.holds = false
        → following.flushLock = some holder)

/-- What one step of a flush does, by its phase. -/
theorem flushed_of_flushStep {outcome : FlushOutcome} (sound : shared.Sound)
    (known : FlushSound shared phase)
    (stepped : flushStep holder syncOk shared phase = some (following, outcome))
    : Flushed holder shared phase following outcome := by
  cases phase with
  | locking =>
    rw [flushStep] at stepped
    split at stepped <;> cases stepped
    next free =>
      refine ⟨sound.relock _, .relock _ _, .relock _ _, fun _ => free, ?_⟩
      rintro _ ⟨⟩
      exact ⟨trivial, rfl, fun _ => rfl⟩
  | locked =>
    cases stepped
    refine ⟨sound, .refl _, .refl _, nofun, ?_⟩
    rintro _ ⟨⟩
    exact ⟨le_rfl, rfl, fun held => held.resolve_right nofun⟩
  | loaded target =>
    rw [flushStep] at stepped
    split at stepped <;> cases stepped
    · exact ⟨sound.relock _, .relock _ _, .relock _ _, nofun, nofun⟩
    refine ⟨sound, .refl _, .refl _, nofun, ?_⟩
    rintro _ ⟨⟩
    refine ⟨⟨known, ?_⟩, rfl, fun held => held.resolve_right nofun⟩
    intro index endLsn _ found _
    exact (List.getElem?_eq_some_iff.mp found).1
  | syncing target before =>
    rw [flushStep] at stepped
    split at stepped <;> cases stepped
    · have more : shared.covered ≤ max (max shared.synced before) shared.copied := by
        rw [Shared.covered]
        omega
      refine ⟨sound.cover more sound.known, .cover more, ⟨rfl, rfl, rfl, le_rfl⟩, nofun, ?_⟩
      rintro _ ⟨⟩
      refine ⟨⟨known.1, ?_⟩, rfl, fun held => held.resolve_right nofun⟩
      intro index endLsn later found below
      have early := known.2 index endLsn later found below
      have bound : before ≤ max (max shared.synced before) shared.copied := by omega
      exact lt_of_lt_of_le early bound
    · exact ⟨sound.relock _, .relock _ _, .relock _ _, nofun, nofun⟩
  | synced target =>
    cases stepped
    refine ⟨{ sound with durable := ?_ }, ⟨le_rfl, le_max_left _ _, rfl,
      le_rfl, .inl rfl⟩, ⟨rfl, rfl, rfl, ?_⟩, nofun, ?_⟩
    · intro index endLsn later found below
      rcases le_total shared.durableLsn target with lower | higher
      · exact known.2 index endLsn later found (max_eq_right lower ▸ below)
      · exact sound.durable index endLsn later found (max_eq_left higher ▸ below)
    · have below := known.1
      show max shared.dirtyLsn (max shared.durableLsn target)
        ≤ max shared.dirtyLsn shared.durableLsn
      omega
    · rintro _ ⟨⟩
      exact ⟨trivial, rfl, fun held => held.resolve_right nofun⟩
  | notifying =>
    cases stepped
    exact ⟨sound.relock _, .relock _ _, .relock _ _, nofun, nofun⟩

-- Calls

def CallPhase.target? : CallPhase → Option Nat
  | .captured target | .looping target _ | .entered target _ | .flushing target _ => some target
  | .called | .returned _ | .failed => none

def CallPhase.flush? : CallPhase → Option FlushPhase
  | .flushing _ phase => some phase
  | _ => none

/-- What a caller knows: the commits noted before its call are at or below its target or from
before the watermarks were set back, and they are durable once it has returned.
-/
structure CallSound (shared : Shared) (call : Call) : Prop where
  known : call.before ≤ shared.noted.length
  target : ∀ target, call.phase.target? = some target → ∀ index endLsn, shared.rebasedAt ≤ index
    → index < call.before → shared.noted[index]? = some endLsn → endLsn ≤ target
  returned : ∀ flushed, call.phase = .returned flushed → call.before ≤ shared.covered
  flush : ∀ phase, call.phase.flush? = some phase → FlushSound shared phase

variable {call : Call} {phase : CallPhase}

/-- What a call knows stays true. -/
theorem CallSound.advances (sound : CallSound first call) (advances : first.Advances second)
    : CallSound second call where
  known := le_trans sound.known advances.length
  target := by
    intro target captured index endLsn later early found
    rw [advances.rebasedAt] at later
    have there := advances.getElem_of_lt found (lt_of_lt_of_le early sound.known)
    exact sound.target target captured index endLsn later early there
  returned := fun flushed isReturned =>
    le_trans (sound.returned flushed isReturned) advances.covered
  flush := fun phase flushing => (sound.flush phase flushing).advances advances

/-- A caller with its target at or below the durable watermark may return. -/
theorem CallSound.covered (sound : CallSound shared call) (watermarks : shared.Sound)
    (captured : call.phase.target? = some target) (reached : target ≤ shared.durableLsn)
    : call.before ≤ shared.covered := by
  by_contra beyond
  rw [not_le] at beyond
  have inside : shared.covered < shared.noted.length := lt_of_lt_of_le beyond sound.known
  have found := getElem?_eq_getElem inside
  have below := sound.target target captured _ _ watermarks.rebased beyond found
  exact lt_irrefl _ (watermarks.durable _ _ watermarks.rebased found
    (le_trans below reached))

def CallPhase.holds (phase : CallPhase) : Bool := phase.flush?.any FlushPhase.holds

/-- What one step of a call does. -/
structure Stepped (holder : Holder) (shared : Shared) (call : Call) (following : Shared)
    (phase : CallPhase) : Prop where
  sound : following.Sound
  advances : shared.Advances following
  frame : shared.Frame following
  callSound : CallSound following { call with phase }
  /-- A step that changes the lock is made by its holder or takes the free lock. -/
  lock : following.flushLock = shared.flushLock ∨ call.phase.holds
    ∨ shared.flushLock = none
  held : phase.holds → (call.phase.holds → shared.flushLock = some holder)
    → following.flushLock = some holder

/-- A step that leaves the shared state alone. -/
theorem Stepped.same (watermarks : shared.Sound)
    (sound : CallSound shared { call with phase }) (free : phase.holds = false)
    : Stepped holder shared call shared phase :=
  ⟨watermarks, .refl _, .refl _, sound, .inl rfl, fun held => absurd held (by simp [free])⟩

/-- What one step of a call does, by its phase. -/
theorem stepped_of_callStep (watermarks : shared.Sound)
    (sound : CallSound shared call) (running : shutdown → call.phase.finished)
    (stepped : callStep index syncOk shutdown shared call.phase = some (following, phase))
    : Stepped (.call index) shared call following phase := by
  obtain ⟨before, now⟩ := call
  cases now with
  | called =>
    cases stepped
    refine .same watermarks ⟨sound.known, ?_, nofun, nofun⟩ rfl
    rintro _ ⟨⟩ index endLsn later - found
    exact watermarks.dirty index endLsn later found
  | captured target =>
    rw [callStep] at stepped
    split at stepped <;> cases stepped
    next reached =>
      exact .same watermarks ⟨sound.known, nofun,
        fun _ _ => sound.covered watermarks rfl reached, nofun⟩ rfl
    next => exact .same watermarks ⟨sound.known, sound.target, nofun, nofun⟩ rfl
  | looping target flushed =>
    rw [callStep] at stepped
    split at stepped <;> cases stepped
    next => exact .same watermarks ⟨sound.known, sound.target, nofun, nofun⟩ rfl
    next reached =>
      exact .same watermarks ⟨sound.known, nofun,
        fun _ _ => sound.covered watermarks rfl (le_of_not_gt reached), nofun⟩ rfl
  | entered target flushed =>
    rw [callStep] at stepped
    split at stepped
    next stopped => cases running stopped
    cases stepped
    refine .same watermarks ⟨sound.known, sound.target, nofun, ?_⟩ rfl
    rintro _ ⟨⟩
    trivial
  | flushing target flush =>
    obtain ⟨⟨following, outcome⟩, flushStepped, isNext⟩ := Option.map_eq_some_iff.mp stepped
    cases isNext
    have flushed := flushed_of_flushStep watermarks (sound.flush flush rfl) flushStepped
    have advanced := sound.advances flushed.advances
    refine ⟨flushed.sound, flushed.advances, flushed.frame, ?_, ?_, ?_⟩
    · cases outcome with
      | running next =>
        refine ⟨advanced.known, advanced.target, nofun, ?_⟩
        rintro _ ⟨⟩
        exact (flushed.running next rfl).1
      | done => exact ⟨advanced.known, advanced.target, nofun, nofun⟩
      | failed => exact ⟨advanced.known, nofun, nofun, nofun⟩
    · exact .inr (flush.holds.eq_false_or_eq_true.imp_right flushed.taken)
    intro holds before
    cases outcome with
    | running next =>
      exact (flushed.running next rfl).2.2 (flush.holds.eq_false_or_eq_true.imp_left before)
    | done | failed => cases holds
  | returned flushed | failed => cases stepped

end DecentDb.Wal.AsyncCommit
