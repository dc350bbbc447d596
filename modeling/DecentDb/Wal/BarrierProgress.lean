import DecentDb.Wal.WatermarkInvariant

/-! How many steps of its own a caller of `flush_to_durable` has left. As long as no checkpoint
sets the watermarks back below its target, every step of the call brings it closer to its return
and no other step takes it further away.
-/

namespace DecentDb.Wal.AsyncCommit

open CallPhase List Option State

open TransitionSystem (System)

-- The steps that a call has left

/-- How many steps of its own a call has left, if it goes around its loop once. -/
def CallPhase.remaining : CallPhase → Nat
  | .called => 11
  | .captured _ => 10
  | .looping _ false => 9
  | .entered _ _ => 8
  | .flushing _ .locking => 7
  | .flushing _ .locked => 6
  | .flushing _ (.loaded _) => 5
  | .flushing _ (.syncing _ _) => 4
  | .flushing _ (.synced _) => 3
  | .flushing _ .notifying => 2
  | .looping _ true => 1
  | .returned _ | .failed => 0

/-- The flush of a call will raise the durable watermark to the target of the call. -/
def FlushReaches (shared : Shared) (target : Nat) : FlushPhase → Prop
  | .locking | .locked => True
  | .loaded flushTarget | .syncing flushTarget _ | .synced flushTarget => target ≤ flushTarget
  | .notifying => target ≤ shared.durableLsn

/-- The target of a call is not above the dirty watermark, and not above the durable one after
the call's flush.
-/
def OnTrack (shared : Shared) : CallPhase → Prop
  | .called | .returned _ | .failed => True
  | .captured target => target ≤ shared.dirtyLsn
  | .looping target flushed =>
    target ≤ shared.dirtyLsn ∧ (flushed → target ≤ shared.durableLsn)
  | .entered target flushed => target ≤ shared.dirtyLsn ∧ flushed = false
  | .flushing target phase => target ≤ shared.dirtyLsn ∧ FlushReaches shared target phase

/-- The watermarks do not fall. -/
def Shared.Rises (first second : Shared) : Prop :=
  first.dirtyLsn ≤ second.dirtyLsn ∧ first.durableLsn ≤ second.durableLsn

/-- Nothing has sunk where nothing has moved. -/
theorem Shared.Rises.refl (shared : Shared) : shared.Rises shared :=
  ⟨le_rfl, le_rfl⟩

variable {phase next : CallPhase} {first second shared following : Shared} {syncOk shutdown : Bool}

/-- Only where the watermarks are from the target matters. -/
theorem OnTrack.frame (onTrack : OnTrack first phase)
    (keeps : ∀ target, phase.target? = some target
      → (target ≤ first.dirtyLsn → target ≤ second.dirtyLsn)
        ∧ (target ≤ first.durableLsn → target ≤ second.durableLsn))
    : OnTrack second phase := by
  cases phase with
  | called | returned _ | failed => trivial
  | captured target => exact (keeps _ rfl).1 onTrack
  | looping target flushed => exact onTrack.imp (keeps _ rfl).1 ((keeps _ rfl).2 ∘ ·)
  | entered target flushed => exact onTrack.imp_left (keeps _ rfl).1
  | flushing target phase =>
    refine onTrack.imp (keeps _ rfl).1 fun reaches => ?_
    cases phase with
    | locking | locked => trivial
    | loaded _ | syncing _ _ | synced _ => exact reaches
    | notifying => exact (keeps _ rfl).2 reaches

/-- A call stays on track while the watermarks rise. -/
theorem OnTrack.rises (onTrack : OnTrack first phase) (rises : first.Rises second)
    : OnTrack second phase :=
  onTrack.frame fun _ _ => ⟨(le_trans · rises.1), (le_trans · rises.2)⟩

/-- A step of a flush only raises the watermarks. -/
theorem flushStep_rises {holder : Holder} {phase : FlushPhase} {outcome : FlushOutcome}
    (stepped : flushStep holder syncOk shared phase = some (following, outcome))
    : shared.Rises following := by
  have same := Shared.Rises.refl shared
  cases phase with
  | locking | loaded _ | syncing _ _ =>
    rw [flushStep] at stepped
    split at stepped <;> cases stepped <;> exact same
  | locked | notifying =>
    cases stepped
    exact same
  | synced target =>
    cases stepped
    exact ⟨le_rfl, le_max_left _ _⟩

/-- A step of a call on its track brings it closer to its return. -/
theorem callStep_closer {index : Nat} (onTrack : OnTrack shared phase)
    (stepped : callStep index syncOk shutdown shared phase = some (following, next))
    : OnTrack following next ∧ next.remaining < phase.remaining ∧ shared.Rises following := by
  have same := Shared.Rises.refl shared
  cases phase with
  | called =>
    cases stepped
    exact ⟨le_rfl, by simp [remaining], same⟩
  | captured target =>
    rw [callStep] at stepped
    split at stepped <;> cases stepped
    · exact ⟨trivial, by simp [remaining], same⟩
    · exact ⟨⟨onTrack, by simp⟩, by simp [remaining], same⟩
  | looping target flushed =>
    rw [callStep] at stepped
    split at stepped <;> cases stepped
    next below =>
      cases flushed with
      | true => exact absurd (onTrack.2 rfl) (Nat.not_le_of_lt below)
      | false => exact ⟨⟨onTrack.1, rfl⟩, by simp [remaining], same⟩
    next =>
      refine ⟨trivial, ?_, same⟩
      cases flushed <;> simp [remaining]
  | entered target flushed =>
    rw [callStep] at stepped
    split at stepped <;> cases stepped
    · exact ⟨trivial, by simp [remaining], same⟩
    · exact ⟨⟨onTrack.1, trivial⟩, by simp [remaining], same⟩
  | flushing target flush =>
    obtain ⟨⟨following, outcome⟩, flushStepped, isNext⟩ := map_eq_some_iff.mp stepped
    cases isNext
    have rises := flushStep_rises flushStepped
    obtain ⟨below, reaches⟩ := onTrack.rises rises
    have reachesBefore := onTrack.2
    suffices after : OnTrack following (afterFlush target outcome)
      ∧ (afterFlush target outcome).remaining < (flushing target flush).remaining from
      ⟨after.1, after.2, rises⟩
    cases flush with
    | locking =>
      rw [flushStep] at flushStepped
      split at flushStepped <;> cases flushStepped
      exact ⟨⟨below, trivial⟩, by simp [remaining, afterFlush]⟩
    | locked =>
      cases flushStepped
      exact ⟨⟨below, below⟩, by simp [remaining, afterFlush]⟩
    | loaded flushTarget =>
      rw [flushStep] at flushStepped
      split at flushStepped <;> cases flushStepped
      next reached =>
        exact ⟨⟨below, fun _ => le_trans reachesBefore reached⟩, by simp [remaining, afterFlush]⟩
      next => exact ⟨⟨below, reaches⟩, by simp [remaining, afterFlush]⟩
    | syncing flushTarget before =>
      rw [flushStep] at flushStepped
      split at flushStepped <;> cases flushStepped
      · exact ⟨⟨below, reaches⟩, by simp [remaining, afterFlush]⟩
      · exact ⟨trivial, by simp [remaining, afterFlush]⟩
    | synced flushTarget =>
      cases flushStepped
      exact ⟨⟨below, le_trans reachesBefore (le_max_right _ _)⟩, by simp [remaining, afterFlush]⟩
    | notifying =>
      cases flushStepped
      exact ⟨⟨below, fun _ => reaches⟩, by simp [remaining, afterFlush]⟩
  | returned flushed | failed => cases stepped

-- Whole runs

/-- No checkpoint sets the watermarks back while a call in progress has captured a target other
than zero.
-/
def Undisturbed (state : State) (action : Action) : Prop :=
  action = .storeDirty → ∀ call ∈ state.calls, call.phase.target?.getD 0 = 0

instance (state : State) (action : Action) : Decidable (Undisturbed state action) :=
  inferInstanceAs (Decidable (_ → _))

variable {state following final : State} {action : Action}

/-- A step of the background flusher raises the watermarks and touches no call. -/
theorem stepFlusher_rises (taken : stepFlusher syncOk state = some following)
    : following.calls = state.calls ∧ state.shared.Rises following.shared := by
  rw [stepFlusher] at taken
  split at taken
  · cases taken
    exact ⟨rfl, le_rfl, le_rfl⟩
  · obtain ⟨⟨shared, outcome⟩, stepped, isNext⟩ := map_eq_some_iff.mp taken
    cases isNext
    exact ⟨rfl, flushStep_rises stepped⟩
  · cases taken

/-- A step of a commit raises the watermarks and touches no call. -/
theorem commitStep_rises (taken : commitStep state action = some following)
    : following.calls = state.calls ∧ state.shared.Rises following.shared := by
  cases action with
  | writeFrames _ | publish =>
    rw [commitStep] at taken
    split at taken <;> cases taken
    exact ⟨rfl, le_rfl, le_rfl⟩
  | noteWrite =>
    rw [commitStep] at taken
    split at taken <;> cases taken
    exact ⟨rfl, le_max_left _ _, le_rfl⟩
  | _ => cases taken

/-- What a step that is none of a call does to the calls and to the watermarks. -/
structure Around (action : Action) (state following : State) : Prop where
  calls : following.calls = state.calls
    ∨ following.calls = state.calls ++ [⟨state.shared.noted.length, .called⟩]
  rises : action ≠ .storeDirty → action ≠ .storeDurable → state.shared.Rises following.shared
  storeDirty : action = .storeDirty
    → following.calls = state.calls ∧ following.shared.durableLsn = state.shared.durableLsn
  storeDurable : action = .storeDurable → following.calls = state.calls
    ∧ state.writer = .rebased ∧ following.shared.dirtyLsn = state.shared.dirtyLsn

/-- A step that keeps or raises the watermarks. -/
theorem Around.of_rises (calls : following.calls = state.calls
      ∨ following.calls = state.calls ++ [⟨state.shared.noted.length, .called⟩])
    (rises : state.shared.Rises following.shared)
    (other : action ≠ .storeDirty ∧ action ≠ .storeDurable)
    : Around action state following :=
  ⟨calls, fun _ _ => rises, fun isDirty => absurd isDirty other.1,
    fun isDurable => absurd isDurable other.2⟩

/-- A step of a checkpoint is one of those around the calls. -/
theorem checkpointStep_around (taken : checkpointStep state action = some following)
    : Around action state following := by
  have same := Shared.Rises.refl state.shared
  cases action <;> simp only [checkpointStep, reduceCtorEq] at taken
  all_goals repeat' split at taken
  all_goals cases taken
  next => exact .of_rises (.inr rfl) same (by simp)
  iterate 4 next => exact .of_rises (.inl rfl) same (by simp)
  next => exact ⟨.inl rfl, by simp, fun _ => ⟨rfl, rfl⟩, by simp⟩
  next rebased => exact ⟨.inl rfl, by simp, by simp, fun _ => ⟨rfl, rebased, rfl⟩⟩
  iterate 2 next => exact .of_rises (.inl rfl) same (by simp)

/-- Every step that is not a call's own is one of those around the calls. -/
theorem around_of_next (taken : system.next state action = some following)
    (notCall : ∀ index syncOk, action ≠ .stepCall index syncOk)
    : Around action state following := by
  have same := Shared.Rises.refl state.shared
  cases action with
  | stepCall index syncOk => exact absurd rfl (notCall index syncOk)
  | startCall =>
    simp only [system] at taken
    split at taken <;> cases taken
    exact .of_rises (.inr rfl) same (by simp)
  | stepFlusher syncOk =>
    have step := stepFlusher_rises taken
    exact .of_rises (.inl step.1) step.2 (by simp)
  | writeFrames _ | noteWrite | publish =>
    simp only [system] at taken
    split at taken
    · cases taken
    · have step := commitStep_rises taken
      exact .of_rises (.inl step.1) step.2 (by simp)
  | startCheckpoint | copyBack _ | lockRebase | storeDirty | storeDurable | persistHeader _ =>
    simp only [system] at taken
    split at taken
    · cases taken
    · exact checkpointStep_around taken
  | shutDown =>
    simp only [system] at taken
    split at taken <;> cases taken
    exact .of_rises (.inl rfl) same (by simp)

/-- The steps that a call may still take, where a call that has not started has all of them. -/
def State.budget (state : State) (index : Nat) : Nat :=
  ((state.calls[index]?).map (·.phase.remaining)).getD 11

def State.OnTrack (state : State) : Prop :=
  ∀ call ∈ state.calls, AsyncCommit.OnTrack state.shared call.phase

/-- Setting the watermarks back does no harm to calls with the target zero. -/
theorem OnTrack.zero (onTrack : OnTrack first phase) (zero : phase.target?.getD 0 = 0)
    : OnTrack second phase := by
  refine onTrack.frame fun target captured => ?_
  simp [captured] at zero
  simp [zero]

/-- A target is at most the dirty watermark. -/
theorem OnTrack.target_le (onTrack : OnTrack shared phase)
    : phase.target?.getD 0 ≤ shared.dirtyLsn := by
  cases phase with
  | called | returned _ | failed => exact Nat.zero_le _
  | captured target => exact onTrack
  | looping _ _ | entered _ _ | flushing _ _ => exact onTrack.1

/-- An undisturbed step around the calls leaves them on track. -/
theorem around_onTrack (tracked : Tracked state) (onTrack : state.OnTrack)
    (undisturbed : Undisturbed state action) (around : Around action state following)
    : following.OnTrack := by
  intro call isCall
  by_cases isDirty : action = .storeDirty
  · rw [(around.storeDirty isDirty).1] at isCall
    exact (onTrack call isCall).zero (undisturbed isDirty call isCall)
  by_cases isDurable : action = .storeDurable
  · obtain ⟨calls, rebased, -⟩ := around.storeDurable isDurable
    rw [calls] at isCall
    have dirty := tracked.writer
    rw [rebased] at dirty
    have target := (onTrack call isCall).target_le
    exact (onTrack call isCall).zero (Nat.le_zero.mp (le_trans target (le_of_eq dirty)))
  have old (there : call ∈ state.calls) : AsyncCommit.OnTrack following.shared call.phase :=
  (onTrack call there).rises (around.rises isDirty isDurable)
  rcases around.calls with same | started
  · exact old (same ▸ isCall)
  rw [started] at isCall
  rcases mem_append.mp isCall with there | new
  · exact old there
  · rw [mem_singleton.mp new]
    trivial

/-- A call that was not started has all its steps left. -/
theorem around_budget (around : Around action state following) (index : Nat)
    : following.budget index = state.budget index := by
  rw [budget, budget]
  rcases around.calls with same | started
  · rw [same]
  rw [started, getElem?_append]
  split
  · rfl
  next outside =>
    rw [getElem?_eq_none (le_of_not_gt outside)]
    generalize index - state.calls.length = place
    cases place <;> rfl

/-- An undisturbed step leaves the calls on track, and an own step of a call uses up some of its
budget.
-/
theorem next_onTrack (tracked : Tracked state) (onTrack : state.OnTrack)
    (undisturbed : Undisturbed state action) (taken : system.next state action = some following)
    : following.OnTrack
      ∧ ∀ index, ownSteps index [action] + following.budget index ≤ state.budget index := by
  by_cases isCall : ∃ index syncOk, action = .stepCall index syncOk
  · obtain ⟨stepped, syncOk, rfl⟩ := isCall
    obtain ⟨call, found, taken⟩ := bind_eq_some_iff.mp taken
    obtain ⟨⟨shared, phase⟩, callTaken, isNext⟩ := bind_eq_some_iff.mp taken
    cases isNext
    have inside : stepped < state.calls.length := (List.getElem?_eq_some_iff.mp found).1
    obtain ⟨following, closer, rises⟩ := callStep_closer
      (onTrack call (mem_of_getElem? found)) callTaken
    refine ⟨?_, fun index => ?_⟩
    · intro other isCall
      rcases mem_or_eq_of_mem_set isCall with old | rfl
      · exact (onTrack other old).rises rises
      · exact following
    by_cases own : stepped = index
    · subst own
      have one : ownSteps stepped [.stepCall stepped syncOk] = 1 := by simp [ownSteps]
      rw [State.budget, State.budget, getElem?_set_self inside, found, one]
      simp only [map_some, getD_some]
      omega
    · rw [State.budget, State.budget, getElem?_set_ne own]
      simp [ownSteps, own]
  have notCall : ∀ index syncOk, action ≠ .stepCall index syncOk :=
  fun index syncOk same => isCall ⟨index, syncOk, same⟩
  have around := around_of_next taken notCall
  refine ⟨around_onTrack tracked onTrack undisturbed around, fun index => ?_⟩
  rw [around_budget around]
  have none : ownSteps index [action] = 0 := by
    cases action with
    | stepCall index syncOk => exact absurd rfl (notCall index syncOk)
    | _ => rfl
  rw [none, zero_add]

/-- By induction on the run. -/
theorem run_budget {actions : List Action} (tracked : Tracked state)
    (onTrack : state.OnTrack) (undisturbed : system.Meets Undisturbed state actions)
    (ran : system.run state actions = some final) (index : Nat)
    : ownSteps index actions + final.budget index ≤ state.budget index := by
  induction actions generalizing state with
  | nil =>
    cases ran
    exact le_of_eq (zero_add _)
  | cons action rest ih =>
    obtain ⟨following, taken, later⟩ := system.run_cons.mp ran
    obtain ⟨nextOnTrack, step⟩ := next_onTrack tracked onTrack undisturbed.1 taken
    have others := ih (tracked.next taken) nextOnTrack (undisturbed.2 following taken) later
    have first := step index
    simp only [ownSteps, countP_cons, countP_nil] at first others ⊢
    omega

end DecentDb.Wal.AsyncCommit
