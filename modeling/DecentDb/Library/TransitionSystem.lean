import Mathlib.Data.List.Basic

/-! Partial, action-labelled transition systems: finite runs, runs whose every step meets
a guard, and the invariant rule for both.
-/

namespace TransitionSystem

universe u v

/-- A system is a partial step function; `none` means that the action is not enabled. -/
structure System (State : Type u) (Action : Type v) where
  next : State → Action → Option State

namespace System

variable {State : Type u} {Action : Type v} (system : System State Action) {state final : State}
  {actions : List Action} {guard : State → Action → Prop}

/-- The state after all the actions in order, if each was enabled where it was taken. -/
def run : State → List Action → Option State
  | state, [] => some state
  | state, action :: rest => (system.next state action).bind (run · rest)

/-- Every action taken from `state` on meets the guard in the state it is taken in. -/
def Meets (guard : State → Action → Prop) : State → List Action → Prop
  | _, [] => True
  | state, action :: rest =>
    guard state action ∧ ∀ following ∈ system.next state action, Meets guard following rest

/-- Whether a concrete run meets a decidable guard can be evaluated. -/
instance Meets.decidable (guard : State → Action → Prop)
    [∀ state action, Decidable (guard state action)]
    : ∀ state actions, Decidable (system.Meets guard state actions)
  | _, [] => isTrue trivial
  | state, action :: rest =>
    have := fun following => Meets.decidable guard following rest
    inferInstanceAs (Decidable (guard state action
      ∧ ∀ following ∈ system.next state action, system.Meets guard following rest))

/-- A run of one more action ends with that action taken in its first state. -/
theorem run_cons {action : Action} {rest : List Action}
    : system.run state (action :: rest) = some final
      ↔ ∃ following, system.next state action = some following
        ∧ system.run following rest = some final := by
  simp [run, Option.bind_eq_some_iff]

variable (property : State → Prop)

/-- A property kept by every guarded step holds after every guarded run. -/
theorem run_preserves (preserved : ∀ state action following, property state → guard state action
      → system.next state action = some following → property following) (holds : property state)
    (guarded : system.Meets guard state actions) (ran : system.run state actions = some final)
    : property final := by
  induction actions generalizing state with
  | nil =>
    have same : state = final := Option.some.inj ran
    exact same ▸ holds
  | cons action rest ih =>
    obtain ⟨following, taken, later⟩ := system.run_cons.mp ran
    exact ih (preserved state action following holds guarded.1 taken)
      (guarded.2 following taken) later

/-- A condition on the actions alone may be added to the guard. -/
theorem Meets.and_of_mem {condition : Action → Prop}
    (meets : system.Meets guard state actions) (all : ∀ action ∈ actions, condition action)
    : system.Meets (fun state action => guard state action ∧ condition action) state actions := by
  induction actions generalizing state with
  | nil => trivial
  | cons action rest ih =>
    obtain ⟨first, others⟩ := List.forall_mem_cons.mp all
    exact ⟨⟨meets.1, first⟩, fun following taken => ih (meets.2 following taken) others⟩

/-- The invariant rule without a guard: `Meets` is trivial for the true guard. -/
theorem run_invariant (preserved : ∀ state action following, property state
      → system.next state action = some following → property following) (holds : property state)
    (ran : system.run state actions = some final)
    : property final := by
  induction actions generalizing state with
  | nil =>
    have same : state = final := Option.some.inj ran
    exact same ▸ holds
  | cons action rest ih =>
    obtain ⟨following, taken, later⟩ := system.run_cons.mp ran
    exact ih (preserved state action following holds taken) later

end System

end TransitionSystem
