import DecentDb.Library.Evaluation
import DecentDb.Library.TransitionSystem

/-! The registry of the logs that a process has open, by canonical path. Its references are weak: a
look-up under its lock makes a strong one, if only for a moment, and whoever drops the last strong
one takes the lock.
-/

namespace DecentDb.Wal.Registry

structure SharedWalInner where
  canonicalPath : String
  coordinated : Bool
  strong : Nat

/-- What a thread does under the lock of the registry. -/
inductive Job where
  | acquire (path : String) (coordinated : Bool)
  | acquireFresh (path : String) (coordinated : Bool)
  | evict (path : String)
  | insert (inner : Nat)
  | drop (inner : Nat)
  deriving DecidableEq

/-- What it goes on with when it has released the lock. -/
inductive Rest where
  | finish
  | give (inner : Nat)
  | build (path : String) (coordinated : Bool)
  deriving DecidableEq

/-- Where a thread is. One that is `upgraded` has the lock and a strong reference of its own. -/
inductive Phase where
  | idle
  | locking (job : Job)
  | locked (job : Job)
  | upgraded (inner : Nat)
  | unlocking (rest : Rest)
  | building (path : String) (coordinated : Bool)
  deriving DecidableEq

@[grind]
def Phase.holds : Phase → Bool
  | .locked _ | .upgraded _ | .unlocking _ => true
  | _ => false

structure State where
  inners : Nat → Option SharedWalInner
  registry : String → Option Nat
  holder : Option Nat
  handles : Nat → Nat
  phases : Nat → Phase

def State.initial : State where
  inners _ := none
  registry _ := none
  holder := none
  handles _ := 0
  phases _ := .idle

inductive Action where
  | start (job : Job)
  | lock
  | work
  | dropTemporary
  | unlock
  | build (inner : Nat)
  | failBefore
  | failAfter (inner : Nat)
  | dropHandle (inner : Nat)

namespace State

variable (state : State)

def setInner (inner : Nat) (value : SharedWalInner) : State :=
  { state with inners := fun other => if other = inner then some value else state.inners other }

def setEntry (path : String) (entry : Option Nat) : State :=
  { state with registry := fun other => if other = path then entry else state.registry other }

def setHandles (inner count : Nat) : State :=
  { state with handles := fun other => if other = inner then count else state.handles other }

def strong (inner : Nat) : Nat :=
  match state.inners inner with
  | some value => value.strong
  | none => 0

/-- The references of one log change; those of the others stay. -/
@[grind =]
theorem strong_setInner (inner other : Nat) (value : SharedWalInner)
    : (state.setInner inner value).strong other
      = if other = inner then value.strong else state.strong other := by
  unfold strong setInner
  grind

/-- The log of a path with a new strong reference, if it has one. -/
def upgrade (path : String) : Option (Nat × SharedWalInner) :=
  (state.registry path).bind fun inner =>
    match state.inners inner with
    | some value =>
      if value.strong = 0 then none else some (inner, { value with strong := value.strong + 1 })
    | none => none

/-- Drops a strong reference. Whoever drops the last one goes on with the destructor. -/
def release (inner : Nat) (otherwise : Phase) : Option (State × Phase) :=
  match state.inners inner with
  | some value =>
    some (state.setInner inner { value with strong := value.strong - 1 },
      if value.strong = 1 then .locking (.drop inner) else otherwise)
  | none => none

/-- The part of a call that runs under the lock. -/
def work : Job → Option (State × Phase)
  | .acquire path coordinated =>
    match state.upgrade path with
    | some (inner, value) =>
      some (state.setInner inner value,
        if coordinated ∧ !value.coordinated then .upgraded inner else .unlocking (.give inner))
    | none => some (state, .unlocking (.build path coordinated))
  | .acquireFresh path coordinated =>
    match state.upgrade path with
    | some (inner, value) => some (state.setInner inner value, .upgraded inner)
    | none => some (state, .unlocking (.build path coordinated))
  | .evict path => some (state.setEntry path none, .unlocking .finish)
  | .insert inner =>
    match state.inners inner with
    | some value => some (state.setEntry value.canonicalPath (some inner), .unlocking (.give inner))
    | none => none
  | .drop inner =>
    match state.inners inner with
    | some value =>
      match state.upgrade value.canonicalPath with
      | some (other, value) => some (state.setInner other value, .upgraded other)
      | none => some (state.setEntry value.canonicalPath none, .unlocking .finish)
    | none => none

/-- A step of one thread: the state and its next phase. Databases in memory have no registry. -/
def step (thread : Nat) : Phase → Action → Option (State × Phase)
  | .idle, .start job =>
    if job matches .insert _ | .drop _ then none else some (state, .locking job)
  | .idle, .dropHandle inner =>
    if state.handles inner = 0 then none
    else (state.setHandles inner (state.handles inner - 1)).release inner .idle
  | .locking job, .lock =>
    if state.holder = none then some ({ state with holder := some thread }, .locked job) else none
  | .locked job, .work => state.work job
  | .upgraded inner, .dropTemporary => state.release inner (.unlocking .finish)
  | .unlocking .finish, .unlock => some ({ state with holder := none }, .idle)
  | .unlocking (.give inner), .unlock =>
    some ({ state.setHandles inner (state.handles inner + 1) with holder := none }, .idle)
  | .unlocking (.build path coordinated), .unlock =>
    some ({ state with holder := none }, .building path coordinated)
  | .building path coordinated, .build inner =>
    if (state.inners inner).isSome then none
    else some (state.setInner inner ⟨path, coordinated, 1⟩, .locking (.insert inner))
  | .building _ _, .failBefore => some (state, .idle)
  | .building path coordinated, .failAfter inner =>
    if (state.inners inner).isSome then none
    else some (state.setInner inner ⟨path, coordinated, 0⟩, .locking (.drop inner))
  | _, _ => none

end State

def system : TransitionSystem.System State (Nat × Action) where
  next state action :=
    (state.step action.1 (state.phases action.1) action.2).map fun (after, phase) =>
      { after with phases := fun other => if other = action.1 then phase else state.phases other }

/-- Handles are dropped only while no thread holds the lock. -/
abbrev DropsOutside (state : State) (action : Nat × Action) : Prop :=
  action.2 matches .dropHandle _ → state.holder = none

variable {state after : State} {thread : Nat} {job : Job} {old phase : Phase} {action : Action}

/-- The work under the lock keeps the lock, and a log that is upgraded has another reference. -/
theorem State.work_spec (worked : state.work job = some (after, phase))
    : after.holder = state.holder ∧ phase.holds ∧ ∀ inner, phase = .upgraded inner
      → 2 ≤ after.strong inner := by
  have two (path inner value) (found : state.upgrade path = some (inner, value))
      : 2 ≤ value.strong := by
    obtain ⟨inner, _, found⟩ := Option.bind_eq_some_iff.mp found
    grind
  cases job <;> grind [State.work, State.setEntry, State.setInner]

/-- What a step from `old` to `phase` does to the lock and to the references of other threads. -/
structure State.Effect (thread : Nat) (state : State) (old : Phase) (after : State) (phase : Phase)
    : Prop where
  holder : after.holder
    = if phase.holds then some thread else if old.holds then none else state.holder
  free : phase.holds → old.holds ∨ state.holder = none
  kept : ∀ inner other, 2 ≤ state.strong inner → state.holder = some other → other ≠ thread
    → 2 ≤ after.strong inner
  own : ∀ inner, phase = .upgraded inner → 2 ≤ after.strong inner

section

variable (holder : after.holder = state.holder) (holds : phase.holds = old.holds)
include holder holds

/-- A step of a thread that neither takes nor gives up the lock. -/
theorem State.Effect.keep (mine : state.holder = some thread ↔ old.holds)
    (kept : ∀ inner other, 2 ≤ state.strong inner → state.holder = some other → other ≠ thread
      → 2 ≤ after.strong inner)
    (own : ∀ inner, phase = .upgraded inner → 2 ≤ after.strong inner)
    : State.Effect thread state old after phase := by
  refine ⟨?_, fun held => .inl (holds ▸ held), kept, own⟩
  rw [holder, holds]
  split
  next held => exact mine.mpr held
  next => rfl

end

/-- A log that is not there has no references to lose. -/
theorem State.strong_build {inner other : Nat} (value : SharedWalInner)
    (absent : ¬(state.inners inner).isSome) (strong : 2 ≤ state.strong other)
    : 2 ≤ (state.setInner inner value).strong other := by
  rw [State.strong_setInner]
  split
  next same =>
    subst same
    simp [State.strong, Option.not_isSome_iff_eq_none.mp absent] at strong
  next => exact strong

/-- Every step has this effect: only the drop of a handle could take a reference away from the
thread that holds the lock, and handles are dropped while no thread does.
-/
theorem State.step_effect (taken : state.step thread old action = some (after, phase))
    (guarded : DropsOutside state (thread, action)) (mine : state.holder = some thread ↔ old.holds)
    (own : ∀ inner, old = .upgraded inner → 2 ≤ state.strong inner)
    : State.Effect thread state old after phase := by
  cases old with
  | idle =>
    cases action with
    | start job =>
      simp only [State.step] at taken
      split at taken <;> cases taken
      exact .keep rfl rfl mine (fun _ _ strong _ _ => strong) nofun
    | dropHandle inner =>
      have free : state.holder = none := guarded rfl
      simp only [State.step, State.release] at taken
      split at taken
      · cases taken
      split at taken <;> cases taken
      refine .keep rfl ?_ mine (fun _ other _ held => ?_) fun _ upgraded => ?_
      · split <;> rfl
      · cases free.symm.trans held
      · split at upgraded <;> cases upgraded
    | _ => cases taken
  | locking job =>
    cases action with
    | lock =>
      simp only [State.step] at taken
      split at taken <;> cases taken
      next free => exact ⟨rfl, fun _ => .inr free, fun _ _ strong _ _ => strong, nofun⟩
    | _ => cases taken
  | locked job =>
    cases action with
    | work =>
      obtain ⟨holder, holds, upgraded⟩ := State.work_spec taken
      refine .keep holder holds mine (fun inner other _ held different => ?_) upgraded
      -- This thread has the lock, so no other thread does.
      exact absurd (Option.some.inj (held.symm.trans (mine.mpr rfl))) different
    | _ => cases taken
  | upgraded inner =>
    cases action with
    | dropTemporary =>
      have strong := own inner rfl
      simp only [State.step, State.release] at taken
      split at taken <;> cases taken
      next value found =>
        -- The reference is not the last one.
        have more : value.strong ≠ 1 := by
          simp only [State.strong, found] at strong
          omega
        rw [if_neg more]
        refine .keep rfl rfl mine (fun inner other _ held different => ?_) nofun
        exact absurd (Option.some.inj (held.symm.trans (mine.mpr rfl))) different
    | _ => cases taken
  | unlocking rest =>
    cases action with
    | unlock =>
      cases rest with
      | finish | give inner | build path coordinated =>
        cases taken
        exact ⟨rfl, nofun, fun _ _ strong _ _ => strong, nofun⟩
    | _ => cases rest <;> cases taken
  | building path coordinated =>
    cases action with
    | build inner | failAfter inner =>
      simp only [State.step] at taken
      split at taken <;> cases taken
      next absent =>
        exact .keep rfl rfl mine (fun _ _ strong _ _ => State.strong_build _ absent strong) nofun
    | failBefore =>
      cases taken
      exact .keep rfl rfl mine (fun _ _ strong _ _ => strong) nofun
    | _ => cases taken

structure State.Sound (state : State) : Prop where
  held (thread : Nat) : state.holder = some thread ↔ (state.phases thread).holds
  shared (thread inner : Nat) : state.phases thread = .upgraded inner → 2 ≤ state.strong inner

/-- Every guarded step keeps the state sound. -/
theorem State.Sound.next {action : Nat × Action} (sound : state.Sound)
    (guarded : DropsOutside state action) (stepped : system.next state action = some after)
    : after.Sound := by
  obtain ⟨thread, action⟩ := action
  obtain ⟨⟨after, phase⟩, taken, rfl⟩ := Option.map_eq_some_iff.mp stepped
  have mine := sound.held thread
  have effect := State.step_effect taken guarded mine (sound.shared thread)
  constructor
  · intro other
    have others := sound.held other
    have holder := effect.holder
    have free := effect.free
    dsimp only at *
    by_cases same : other = thread
    · subst same
      rw [if_pos rfl]
      grind
    · rw [if_neg same]
      grind
  · intro other inner upgraded
    dsimp only at *
    by_cases same : other = thread
    · subst same
      exact effect.own inner (by simpa using upgraded)
    · rw [if_neg same] at upgraded
      exact effect.kept inner other (sound.shared other inner upgraded)
        ((sound.held other).mpr (by rw [upgraded]; rfl)) same

/-- If handles are dropped only while no thread holds the lock of the registry, no thread that holds
it runs the destructor of a log, which takes it.
-/
theorem registry_never_self_deadlocks {actions : List (Nat × Action)} {state : State}
    (ran : system.run .initial actions = some state)
    (guarded : system.Meets DropsOutside .initial actions) (thread inner : Nat)
    (destroys : state.phases thread = .locking (.drop inner)) : state.holder ≠ some thread := by
  have sound := system.run_preserves State.Sound (fun _ _ _ => State.Sound.next)
    ⟨by simp [State.initial, Phase.holds], by simp [State.initial]⟩ guarded ran
  rw [Ne, sound.held, destroys]
  exact Bool.false_ne_true

/-- A thread opens a log, under identifier 0. -/
def openLog (thread : Nat) (path : String) : List (Nat × Action) :=
  [.start (.acquire path false), .lock, .work, .unlock, .build 0, .lock, .work, .unlock].map
    (thread, ·)

/-- Another thread finds the log open, and then its last handle is dropped. -/
theorem registry_never_self_deadlocks_found : ∃ state, system.run .initial (openLog 0 "db"
        ++ [(1, .start (.acquireFresh "db" false)), (1, .lock), (1, .work), (1, .dropTemporary),
          (1, .unlock), (0, .dropHandle 0)]) = some state
      ∧ state.phases 0 = .locking (.drop 0) ∧ state.holder ≠ some 0 := by
  refine Evaluation.exists_of_checked (fun state => state.phases 0 = .locking (.drop 0))
    (by decide) fun state ran destroys => ?_
  exact ⟨destroys, registry_never_self_deadlocks ran (by decide) 0 0 destroys⟩

/-- The last handle is dropped while another thread, which looks whether the log is open, has a
reference of its own. That thread then waits for the lock that it holds.
-/
theorem registry_self_deadlock_counterexample : ∃ state, system.run .initial (openLog 0 "db"
        ++ [(1, .start (.acquireFresh "db" false)), (1, .lock), (1, .work), (0, .dropHandle 0),
          (1, .dropTemporary)]) = some state
      ∧ state.phases 1 = .locking (.drop 0) ∧ state.holder = some 1 :=
  ⟨_, rfl, rfl, rfl⟩

end DecentDb.Wal.Registry
