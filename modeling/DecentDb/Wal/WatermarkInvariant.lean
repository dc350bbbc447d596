import DecentDb.Wal.Watermarks

/-! The invariant of the asynchronous commit mode over all its threads: callers, the background
thread, commits and checkpoints. Each step keeps it, so it holds in every reachable state.
-/

namespace DecentDb.Wal.AsyncCommit

open List Option Shared State

open TransitionSystem (System)

-- The invariant

/-- Whether a thread is where it holds the flush lock. -/
def State.holds (state : State) : Holder → Bool
  | .flusher =>
    match state.flusher with
    | .flushing phase => phase.holds
    | _ => false
  | .call index => (state.calls[index]?).any (·.phase.holds)
  | .checkpoint => state.writer = .rebasing ∨ state.writer = .rebased

/-- The watermarks are at or below the end of the log, as far as the writer got. -/
def WriterSound (shared : Shared) (walEndLsn : Nat) : Writer → Prop
  | .idle | .checkpointing _ => shared.peak ≤ walEndLsn
  | .written endLsn => shared.peak < endLsn
  | .noted endLsn => shared.peak ≤ endLsn
  | .copied | .rebasing => shared.peak ≤ walEndLsn ∧ shared.noted.length ≤ shared.copied
  | .rebased => shared.dirtyLsn = 0
  | .truncating => shared.peak = 0

/-- The invariant of all threads. -/
structure Tracked (state : State) : Prop where
  watermarks : state.shared.Sound
  locked : ∀ holder, state.holds holder → state.shared.flushLock = some holder
  flusher : ∀ phase, state.flusher = .flushing phase → FlushSound state.shared phase
  calls : ∀ call ∈ state.calls, CallSound state.shared call
  writer : WriterSound state.shared state.walEndLsn state.writer
  stopped : state.shutdown → ∀ call ∈ state.calls, call.phase.finished

/-- A new log has nothing to track. -/
theorem new_tracked (initialLsn : Nat) : Tracked (new initialLsn) where
  watermarks := ⟨le_rfl, le_rfl, nofun, nofun⟩
  locked := by
    intro holder held
    cases holder <;> cases held
  flusher := nofun
  calls := nofun
  writer := le_of_eq (max_self _)
  stopped := nofun

variable {writer : Writer} {walEndLsn index endLsn initialLsn : Nat} {state following final : State}
  {shared : Shared} {action : Action}

/-- The writer depends on what the frame keeps. -/
theorem WriterSound.frame {first second : Shared}
    (sound : WriterSound first walEndLsn writer) (frame : first.Frame second)
    : WriterSound second walEndLsn writer := by
  cases writer with
  | idle | checkpointing _ | noted endLsn => exact le_trans frame.peak sound
  | written endLsn => exact lt_of_le_of_lt frame.peak sound
  | copied | rebasing =>
    refine ⟨le_trans frame.peak sound.1, ?_⟩
    rw [frame.noted, frame.copied]
    exact sound.2
  | rebased => exact frame.dirty.trans sound
  | truncating => exact Nat.le_zero.mp (le_trans frame.peak (le_of_eq sound))

namespace Tracked

-- Callers and the background thread

section

variable (tracked : Tracked state) {syncOk : Bool}
include tracked

/-- A step that changes the lock leaves those alone who do not make it. -/
theorem locked_after (actor other : Holder) (different : other ≠ actor)
    (holds : state.holds other) {following : Shared}
    (lock : following.flushLock = state.shared.flushLock ∨ state.holds actor
      ∨ state.shared.flushLock = none)
    : following.flushLock = some other := by
  have held := tracked.locked other holds
  rcases lock with same | acts | free
  · rw [same, held]
  · exact absurd (some.inj (held.symm.trans (tracked.locked _ acts))) different
  · rw [held] at free
    cases free

/-- A step of a call keeps the watermarks honest. -/
theorem stepCall (taken : AsyncCommit.stepCall index syncOk state = some following)
    : Tracked following := by
  obtain ⟨call, found, taken⟩ := bind_eq_some_iff.mp taken
  obtain ⟨⟨shared, phase⟩, stepped, isNext⟩ := bind_eq_some_iff.mp taken
  cases isNext
  have member := mem_of_getElem? found
  have step := stepped_of_callStep tracked.watermarks (tracked.calls call member)
    (fun stopped => tracked.stopped stopped call member) stepped
  have inside : index < state.calls.length := (List.getElem?_eq_some_iff.mp found).1
  have isHolder : state.holds (.call index) = call.phase.holds := by
    rw [holds, found]
    rfl
  refine ⟨step.sound, ?_, ?_, ?_, tracked.writer.frame step.frame, ?_⟩
  · intro holder held
    by_cases own : holder = .call index
    · subst own
      rw [holds, getElem?_set_self inside] at held
      refine step.held held fun holds => tracked.locked _ (isHolder.trans holds)
    refine tracked.locked_after (.call index) holder own ?_ (isHolder ▸ step.lock)
    cases holder with
    | flusher | checkpoint => exact held
    | call other =>
      rwa [holds, getElem?_set_ne (fun same => own (congrArg _ same.symm))] at held
  · exact fun flush flushing => (tracked.flusher flush flushing).advances step.advances
  · intro other isCall
    rcases mem_or_eq_of_mem_set isCall with old | rfl
    · exact (tracked.calls other old).advances step.advances
    · exact step.callSound
  intro stopped other isCall
  have finished := tracked.stopped stopped call member
  generalize call.phase = now at stepped finished
  cases now with
  | returned _ | failed => cases stepped
  | called | captured _ | looping _ _ | entered _ _ | flushing _ _ => cases finished

/-- A step of the flusher keeps the watermarks honest. -/
theorem stepFlusher (taken : AsyncCommit.stepFlusher syncOk state = some following)
    : Tracked following := by
  rw [AsyncCommit.stepFlusher] at taken
  split at taken
  next asleep =>
    cases taken
    refine { tracked with locked := ?_, flusher := ?_ }
    · intro holder held
      cases holder with
      | flusher =>
        cases stopped : state.shutdown <;> simp [holds, stopped, FlushPhase.holds] at held
      | call index => exact tracked.locked (.call index) held
      | checkpoint => exact tracked.locked .checkpoint held
    intro phase flushing
    dsimp only at flushing
    split at flushing <;> cases flushing
    · trivial
  next phase flushing =>
    obtain ⟨⟨shared, outcome⟩, stepped, isNext⟩ := map_eq_some_iff.mp taken
    cases isNext
    have step := flushed_of_flushStep tracked.watermarks (tracked.flusher phase flushing) stepped
    have isHolder : state.holds .flusher = phase.holds := by rw [holds, flushing]
    refine ⟨step.sound, ?_, ?_, fun call isCall => (tracked.calls call isCall).advances
      step.advances, tracked.writer.frame step.frame, tracked.stopped⟩
    · have holding := phase.holds.eq_false_or_eq_true
      have lock := holding.imp isHolder.trans step.taken
      intro holder held
      cases holder with
      | flusher =>
        cases outcome with
        | running next =>
          exact (step.running next rfl).2.2
            (holding.imp_left fun holds => tracked.locked .flusher (isHolder.trans holds))
        | done | failed => cases held
      | call index => exact tracked.locked_after .flusher (.call index) nofun held (.inr lock)
      | checkpoint => exact tracked.locked_after .flusher .checkpoint nofun held (.inr lock)
    intro next nextFlushing
    cases outcome with
    | running running =>
      cases nextFlushing
      exact (step.running _ rfl).1
    | done | failed => cases nextFlushing
  next => cases taken

-- Commits and checkpoints

/-- A new call holds nothing and knows nothing yet. -/
theorem start (shared : following.shared = state.shared)
    (flusher : following.flusher = state.flusher)
    (calls : following.calls = state.calls ++ [⟨state.shared.noted.length, .called⟩])
    (writer : WriterSound state.shared following.walEndLsn following.writer)
    (notRebasing : following.holds .checkpoint → state.holds .checkpoint)
    (running : following.shutdown = false)
    : Tracked following := by
  refine ⟨shared ▸ tracked.watermarks, ?_, ?_, ?_, shared ▸ writer, ?_⟩
  · intro holder held
    rw [shared]
    cases holder with
    | flusher =>
      refine tracked.locked .flusher ?_
      rwa [holds, flusher] at held
    | checkpoint => exact tracked.locked .checkpoint (notRebasing held)
    | call index =>
      refine tracked.locked (.call index) ?_
      rw [holds, calls, getElem?_append] at held
      split at held
      · exact held
      · generalize index - state.calls.length = place at held
        cases place <;> cases held
  · rw [flusher, shared]
    exact tracked.flusher
  · rw [calls, shared]
    refine forall_mem_append.mpr ⟨tracked.calls, forall_mem_singleton.mpr ?_⟩
    exact ⟨le_rfl, nofun, nofun, nofun⟩
  · intro stopped
    rw [running] at stopped
    cases stopped

/-- A step of the writer that leaves the lock alone and lets the others go on. -/
theorem write (watermarks : shared.Sound) (advances : state.shared.Advances shared)
    (lock : shared.flushLock = state.shared.flushLock) (sound : WriterSound shared walEndLsn writer)
    (notRebasing : writer ≠ .rebasing ∧ writer ≠ .rebased)
    : Tracked { state with shared, writer, walEndLsn } := by
  refine ⟨watermarks, ?_, fun phase flushing => (tracked.flusher phase flushing).advances advances,
    fun call isCall => (tracked.calls call isCall).advances advances, sound, tracked.stopped⟩
  intro holder held
  cases holder with
  | flusher => exact lock.trans (tracked.locked .flusher held)
  | call index => exact lock.trans (tracked.locked (.call index) held)
  | checkpoint => simp [holds, notRebasing.1, notRebasing.2] at held

end

/-- A commit is noted at the end of the log, after both watermarks. -/
theorem note (sound : shared.Sound) (above : shared.peak < endLsn)
    : Sound { shared with
      dirtyLsn := max shared.dirtyLsn endLsn, noted := shared.noted ++ [endLsn] }
      ∧ shared.Advances { shared with
        dirtyLsn := max shared.dirtyLsn endLsn, noted := shared.noted ++ [endLsn] } := by
  rw [peak] at above
  have cases {index found : Nat} (isNoted : (shared.noted ++ [endLsn])[index]? = some found)
    : shared.noted[index]? = some found ∨ found = endLsn := by
    rw [getElem?_append] at isNoted
    split at isNoted
    · exact .inl isNoted
    · exact .inr (mem_singleton.mp (mem_of_getElem? isNoted))
  refine ⟨⟨?_, sound.rebased, ?_, ?_⟩, ⟨le_max_left _ _, le_rfl, rfl, le_rfl,
    .inr ⟨endLsn, by omega, rfl⟩⟩⟩
  · exact le_trans sound.known (by simp)
  · intro index found later isNoted below
    rcases cases isNoted with old | rfl
    · exact sound.durable index found later old below
    · dsimp only at below
      omega
  intro index found later isNoted
  rcases cases isNoted with old | rfl
  · exact le_trans (sound.dirty index found later old) (le_max_left _ _)
  · exact le_max_right _ _

variable (tracked : Tracked state)
include tracked

/-- A step of a commit keeps the watermarks honest. -/
theorem commitStep (taken : commitStep state action = some following) : Tracked following := by
  have sound := tracked.writer
  cases action <;> simp only [AsyncCommit.commitStep, reduceCtorEq] at taken
  case writeFrames size =>
    split at taken <;> cases taken
    next free =>
      rw [free.1] at sound
      refine tracked.write tracked.watermarks (.refl _) rfl ?_ ⟨nofun, nofun⟩
      refine lt_of_le_of_lt sound ?_
      have positive := free.2
      split <;> omega
  case noteWrite =>
    split at taken <;> cases taken
    next endLsn written =>
      rw [written] at sound
      obtain ⟨watermarks, advances⟩ := note tracked.watermarks sound
      refine tracked.write watermarks advances rfl ?_ ⟨nofun, nofun⟩
      have below : state.shared.peak < endLsn := sound
      rw [peak] at below
      show max (max state.shared.dirtyLsn endLsn) state.shared.durableLsn ≤ endLsn
      omega
  case publish =>
    split at taken <;> cases taken
    next endLsn noted =>
      rw [noted] at sound
      exact tracked.write tracked.watermarks (.refl _) rfl sound ⟨nofun, nofun⟩

/-- While a checkpoint has the lock, every flush waits for it. -/
theorem waiting (lock : state.shared.flushLock = some .checkpoint) {phase : FlushPhase}
    (flushing : state.flusher = .flushing phase
      ∨ ∃ call ∈ state.calls, call.phase.flush? = some phase)
    : phase = .locking := by
  have free (holder : Holder) (different : holder ≠ .checkpoint)
    : state.holds holder = false := by
    by_contra held
    have held := tracked.locked holder (by simpa using held)
    exact different (some.inj (held.symm.trans lock))
  have notHolding : phase.holds = false := by
    rcases flushing with flushing | ⟨call, isCall, flushing⟩
    · have isFree := free .flusher nofun
      rwa [holds, flushing] at isFree
    obtain ⟨index, found⟩ := getElem?_of_mem isCall
    have isFree := free (.call index) nofun
    rw [holds, found] at isFree
    have holds : call.phase.holds = false := isFree
    rwa [CallPhase.holds, flushing] at holds
  cases phase with
  | locking => rfl
  | locked | loaded _ | syncing _ _ | synced _ | notifying => cases notHolding

/-- The stores that set the watermarks back: every flush waits, and the commits so far are
durable.
-/
theorem rebase (lock : state.shared.flushLock = some .checkpoint) (watermarks : shared.Sound)
    (noted : shared.noted = state.shared.noted) (covered : shared.covered = state.shared.covered)
    (rebasedAt : ∀ index, index < state.shared.noted.length → shared.rebasedAt ≤ index
      → state.shared.rebasedAt ≤ index) (sound : WriterSound shared state.walEndLsn writer)
    (keeps : writer = .rebased → shared.flushLock = some .checkpoint)
    (notRebasing : writer ≠ .rebasing)
    : Tracked { state with shared, writer } := by
  refine ⟨watermarks, ?_, ?_, ?_, sound, tracked.stopped⟩
  · intro holder held
    have others (different : holder ≠ .checkpoint) (was : state.holds holder) : False :=
      different (some.inj ((tracked.locked holder was).symm.trans lock))
    cases holder with
    | flusher | call index => exact (others nofun held).elim
    | checkpoint =>
      refine keeps ?_
      simpa [holds, notRebasing] using held
  · intro phase flushing
    rw [tracked.waiting lock (.inl flushing)]
    trivial
  intro call isCall
  have known := tracked.calls call isCall
  refine ⟨noted ▸ known.known, ?_, ?_, ?_⟩
  · intro target captured index endLsn later early found
    have inside : index < state.shared.noted.length := lt_of_lt_of_le early known.known
    exact known.target target captured index endLsn (rebasedAt index inside later) early
      (noted ▸ found)
  · intro flushed returned
    rw [covered]
    exact known.returned flushed returned
  · intro phase flushing
    rw [tracked.waiting lock (.inr ⟨call, isCall, flushing⟩)]
    trivial

/-- A checkpoint takes the flush lock before it rebases. -/
theorem lockRebase (copied : state.writer = .copied) (free : state.shared.flushLock = none)
    : Tracked { state with
      shared := { state.shared with flushLock := some .checkpoint }, writer := .rebasing } := by
  have sound := tracked.writer
  rw [copied] at sound
  refine ⟨tracked.watermarks.relock _, ?_,
    fun phase flushing => (tracked.flusher phase flushing).advances (.relock _ _),
    fun call isCall => (tracked.calls call isCall).advances (.relock _ _), sound, tracked.stopped⟩
  intro holder held
  have others (was : state.holds holder) : False := by
    have lock := tracked.locked holder was
    rw [free] at lock
    cases lock
  cases holder with
  | flusher | call index => exact (others held).elim
  | checkpoint => rfl

/-- A checkpoint stores the dirty watermark while it holds the flush lock. -/
theorem storeDirty (rebasing : state.writer = .rebasing) : Tracked { state with
      shared := { state.shared with dirtyLsn := 0, rebasedAt := state.shared.noted.length }
      writer := .rebased } := by
  have lock := tracked.locked .checkpoint (by simp [holds, rebasing])
  have sound := tracked.writer
  rw [rebasing] at sound
  have outside {index endLsn : Nat} (later : state.shared.noted.length ≤ index)
    (found : state.shared.noted[index]? = some endLsn) : False := by
    have inside := (List.getElem?_eq_some_iff.mp found).1
    omega
  have covered : state.shared.noted.length ≤ state.shared.covered :=
    le_trans sound.2 (le_max_right _ _)
  have watermarks : Shared.Sound
    { state.shared with dirtyLsn := 0, rebasedAt := state.shared.noted.length } :=
    ⟨tracked.watermarks.known, covered, fun _ _ later found _ => (outside later found).elim,
      fun _ _ later found => (outside later found).elim⟩
  refine tracked.rebase lock watermarks rfl rfl ?_ rfl (fun _ => lock) nofun
  exact fun _ inside later => absurd (lt_of_lt_of_le inside later) (lt_irrefl _)

/-- The second store keeps what the first one established. -/
theorem storeDurable (rebased : state.writer = .rebased) : Tracked { state with
      shared := { state.shared with durableLsn := 0, flushLock := none }
      writer := .truncating } := by
  have lock := tracked.locked .checkpoint (by simp [holds, rebased])
  have dirty := tracked.writer
  rw [rebased] at dirty
  have watermarks : Sound { state.shared with durableLsn := 0, flushLock := none } :=
    ⟨tracked.watermarks.known, tracked.watermarks.rebased, fun index endLsn later found below =>
        tracked.watermarks.durable index endLsn later found (Nat.le_trans below (Nat.zero_le _)),
      tracked.watermarks.dirty⟩
  refine tracked.rebase lock watermarks rfl rfl (fun _ _ later => later) ?_ nofun nofun
  show max state.shared.dirtyLsn 0 = 0
  rw [dirty]
  rfl

/-- A step of a checkpoint keeps the watermarks honest. -/
theorem checkpointStep (running : state.shutdown = false)
    (taken : checkpointStep state action = some following)
    : Tracked following := by
  have sound := tracked.writer
  cases action <;> simp only [AsyncCommit.checkpointStep, reduceCtorEq] at taken
  case startCheckpoint =>
    split at taken <;> cases taken
    next idle =>
      rw [idle] at sound
      exact tracked.start rfl rfl rfl sound (by simp [holds]) running
  case copyBack ok =>
    have peak {phase : CallPhase} (waits : state.checkpointCall = some phase)
      : state.shared.peak ≤ state.walEndLsn := by
      rw [checkpointCall] at waits
      split at waits
      next checkpointing =>
        rw [checkpointing] at sound
        exact sound
      next => cases waits
    split at taken
    next waits =>
      split at taken <;> cases taken
      · have known := tracked.watermarks.known
        have more : state.shared.covered ≤ max state.shared.synced state.shared.noted.length := by
          rw [covered]
          omega
        exact tracked.write (tracked.watermarks.cover more le_rfl) (.cover more) rfl
          ⟨peak waits, le_rfl⟩ (by simp)
      · exact tracked.write tracked.watermarks (.refl _) rfl (peak waits) (by simp)
    next waits =>
      cases taken
      exact tracked.write tracked.watermarks (.refl _) rfl (peak waits) (by simp)
    next => cases taken
  case lockRebase =>
    split at taken <;> cases taken
    next free => exact tracked.lockRebase free.1 free.2
  case storeDirty =>
    split at taken <;> cases taken
    next rebasing => exact tracked.storeDirty rebasing
  case storeDurable =>
    split at taken <;> cases taken
    next rebased => exact tracked.storeDurable rebased
  case persistHeader ok =>
    split at taken <;> cases taken
    next truncating =>
      rw [truncating] at sound
      have zero : state.shared.peak = 0 := sound
      exact tracked.write tracked.watermarks (.refl _) rfl
        (Nat.le_trans (Nat.le_of_eq zero) (Nat.zero_le _)) (by simp)

/-- Every step keeps the watermarks honest. -/
theorem next (taken : system.next state action = some following) : Tracked following := by
  cases action with
  | startCall =>
    simp only [system] at taken
    split at taken <;> cases taken
    next running => exact tracked.start rfl rfl rfl tracked.writer id (by simpa using running)
  | stepCall index syncOk => exact tracked.stepCall taken
  | stepFlusher syncOk => exact tracked.stepFlusher taken
  | writeFrames _ | noteWrite | publish =>
    simp only [system] at taken
    split at taken
    · cases taken
    · exact tracked.commitStep taken
  | startCheckpoint | copyBack _ | lockRebase | storeDirty | storeDurable | persistHeader _ =>
    simp only [system] at taken
    split at taken
    · cases taken
    next running => exact tracked.checkpointStep (by simpa using running) taken
  | shutDown =>
    simp only [system] at taken
    split at taken <;> cases taken
    next unused => exact { tracked with stopped := fun _ => all_eq_true.mp unused.2 }

end Tracked

/-- The invariant holds in every reachable state. -/
theorem run_tracked {actions : List Action} (ran : system.run (new initialLsn) actions = some final)
    : Tracked final :=
  system.run_invariant Tracked (fun _ _ _ tracked taken => tracked.next taken)
    (new_tracked initialLsn) ran

end DecentDb.Wal.AsyncCommit
