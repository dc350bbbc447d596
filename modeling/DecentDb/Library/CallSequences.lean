import Mathlib.Data.List.Basic

/-! Components that answer calls and change their state, and the rule by which one component
answers every sequence of calls like another.
-/

namespace CallSequences

variable {Call Answer Concrete Abstract : Type}

/-- Every call is answered in the state that the calls before it left. -/
structure Component (State Call Answer : Type) where
  step : State → Call → State × Answer

namespace Component

def answers (component : Component Concrete Call Answer) : Concrete → List Call → List Answer
  | _, [] => []
  | state, call :: rest =>
    (component.step state call).2 :: answers component (component.step state call).1 rest

/-- Every call meets the guard in the state that it is made in. -/
def Meets (component : Component Concrete Call Answer) (guard : Concrete → Call → Prop)
    : Concrete → List Call → Prop
  | _, [] => True
  | state, call :: rest =>
    guard state call ∧ Meets component guard (component.step state call).1 rest

instance Meets.decidable (component : Component Concrete Call Answer)
    (guard : Concrete → Call → Prop) [∀ state call, Decidable (guard state call)]
    : ∀ state calls, Decidable (component.Meets guard state calls)
  | _, [] => isTrue trivial
  | state, call :: rest =>
    have := Meets.decidable component guard (component.step state call).1 rest
    inferInstanceAs (Decidable (guard state call ∧ component.Meets guard _ rest))

/-- If related states answer every guarded call alike and stay related, then they answer
every guarded sequence alike, by induction on the calls.
-/
theorem answers_eq {concrete : Component Concrete Call Answer}
    {abstract : Component Abstract Call Answer} {guard : Abstract → Call → Prop}
    (related : Concrete → Abstract → Prop)
    (simulated : ∀ state view call, related state view → guard view call
      → (concrete.step state call).2 = (abstract.step view call).2
        ∧ related (concrete.step state call).1 (abstract.step view call).1)
    {state : Concrete} {view : Abstract} {calls : List Call} (start : related state view)
    (guarded : abstract.Meets guard view calls)
    : concrete.answers state calls = abstract.answers view calls := by
  induction calls generalizing state view with
  | nil => rfl
  | cons call rest ih =>
    obtain ⟨same, kept⟩ := simulated state view call start guarded.1
    rw [answers, answers, same, ih kept guarded.2]

end Component

end CallSequences
