import Mathlib.Order.Defs.Unbundled

/-! Computations that change a state and return a value or an error, where the changes made
before an error stay; and the rules for a relation that every such change follows.
-/

/-- From a state to the state after and the result. -/
def Stateful (State Error Value : Type) : Type := State → State × Except Error Value

namespace Stateful

variable {State Error Value Other Item : Type} {first program : Stateful State Error Value}
  {rest : Value → Stateful State Error Other} {state final : State} {values : List Value}
  {value : Other} {view : State → Except Error Value} {allowed : Error → Prop}
  {related left right : State → State → Prop}

/-- Stops at the first error. -/
protected def bind (first : Stateful State Error Value) (rest : Value → Stateful State Error Other)
    : Stateful State Error Other := fun state =>
  match first state with
  | (after, .ok value) => rest value after
  | (after, .error error) => (after, .error error)

instance : Monad (Stateful State Error) where
  pure value := fun state => (state, .ok value)
  bind := Stateful.bind

/-- Returns what the function reads off the state. -/
def read (view : State → Value) : Stateful State Error Value := fun state =>
  (state, .ok (view state))

def modify (change : State → State) : Stateful State Error Unit := fun state =>
  (change state, .ok ())

/-- Returns a result that is already known. -/
def lift (result : Except Error Value) : Stateful State Error Value := fun state => (state, result)

/-- Returns what a function that may fail reads off the state. -/
def readResult (view : State → Except Error Value) : Stateful State Error Value := fun state =>
  (state, view state)

/-- Hands the result of a computation on, be it a value or an error. -/
def attempt (program : Stateful State Error Value)
    : Stateful State Error (Except Error Value) := fun state =>
  ((program state).1, .ok (program state).2)

/-- Runs the computations in order. -/
def all {Item : Type} (program : Item → Stateful State Error Unit)
    : List Item → Stateful State Error Unit
  | [] => pure ()
  | item :: rest => do
    program item
    all program rest

/-- Runs the computations in order and collects their values. -/
def each {Item : Type} (program : Item → Stateful State Error Value)
    : List Item → Stateful State Error (List Value)
  | [] => pure []
  | item :: rest => do
    let value ← program item
    let values ← each program rest
    pure (value :: values)

/-- A sequence, by the outcome of its first part. -/
@[elab_as_elim]
theorem bind_cases {motive : State × Except Error Other → Prop}
    (fails : ∀ middle error, first state = (middle, .error error) → motive (middle, .error error))
    (continues : ∀ middle value, first state = (middle, .ok value) → motive (rest value middle))
    : motive ((first >>= rest) state) := by
  change motive (Stateful.bind first rest state)
  unfold Stateful.bind
  split
  next outcome => exact continues _ _ outcome
  next outcome => exact fails _ _ outcome

/-- A sequence succeeds exactly if both parts do. -/
theorem bind_eq_ok : (first >>= rest) state = (final, .ok value)
      ↔ ∃ middle found, first state = (middle, .ok found)
        ∧ rest found middle = (final, .ok value) := by
  refine bind_cases (fun _ _ failed => ?_) fun middle found outcome => ?_
  · simp [failed]
  · simp [outcome, and_assoc]

/-- The programs of a list succeed one after the other. -/
theorem each_cons_eq_ok {program : Item → Stateful State Error Value} {item : Item}
    {rest : List Item}
    : each program (item :: rest) state = (final, .ok values)
      ↔ ∃ middle value others, program item state = (middle, .ok value)
        ∧ each program rest middle = (final, .ok others) ∧ values = value :: others := by
  constructor
  · intro ran
    obtain ⟨middle, value, first, later⟩ := bind_eq_ok.mp ran
    obtain ⟨last, others, second, done⟩ := bind_eq_ok.mp later
    cases done
    exact ⟨middle, value, others, first, second, rfl⟩
  · rintro ⟨middle, value, others, first, second, rfl⟩
    exact bind_eq_ok.mpr ⟨middle, value, first, bind_eq_ok.mpr ⟨final, others, second, rfl⟩⟩

/-- By induction on the first part. -/
theorem each_append_eq_ok {program : Item → Stateful State Error Value} {items others : List Item}
    : each program (items ++ others) state = (final, .ok values)
      ↔ ∃ middle front back, each program items state = (middle, .ok front)
        ∧ each program others middle = (final, .ok back) ∧ values = front ++ back := by
  induction items generalizing state values with
  | nil =>
    constructor
    · intro ran
      exact ⟨state, [], values, rfl, ran, rfl⟩
    · rintro ⟨middle, front, back, first, second, rfl⟩
      cases first
      exact second
  | cons item rest ih =>
    simp only [List.cons_append, each_cons_eq_ok, ih]
    constructor
    · rintro ⟨middle, value, _, ran, ⟨after, front, back, first, second, rfl⟩, rfl⟩
      exact ⟨after, value :: front, back, ⟨middle, value, front, ran, first, rfl⟩, second, rfl⟩
    · rintro ⟨after, _, back, ⟨middle, value, front, ran, first, rfl⟩, second, rfl⟩
      exact ⟨middle, value, front ++ back, ran, ⟨after, front, back, first, second, rfl⟩, rfl⟩

/-- Only the programs of the items matter. -/
theorem each_congr {program other : Item → Stateful State Error Value}
    {items : List Item} (same : ∀ item ∈ items, program item = other item)
    : each program items = each other items := by
  induction items with
  | nil => rfl
  | cons item rest ih =>
    rw [each, each, same item List.mem_cons_self,
      ih fun other member => same other (List.mem_cons_of_mem item member)]

/-- A read hands on what it sees. -/
@[simp]
theorem read_bind (view : State → Value) (rest : Value → Stateful State Error Other)
    (state : State) : (read view >>= rest) state = rest (view state) state := rfl

/-- A lifted value is handed on. -/
@[simp]
theorem lift_ok_bind (value : Value) (rest : Value → Stateful State Error Other) (state : State)
    : ((lift (.ok value) : Stateful State Error Value) >>= rest) state = rest value state := rfl

/-- A lifted error ends the program where it is. -/
@[simp]
theorem lift_error_bind (error : Error) (rest : Value → Stateful State Error Other) (state : State)
    : ((lift (.error error) : Stateful State Error Value) >>= rest) state
      = (state, .error error) := rfl

/-- A read that may fail goes on with the result at the current state. -/
@[simp]
theorem readResult_bind (view : State → Except Error Value)
    (rest : Value → Stateful State Error Other) (state : State)
    : (readResult view >>= rest) state = (lift (view state) >>= rest) state := rfl

/-- What only looks at the state, be it `read`, `lift` or `readResult`, leaves it as it is. -/
theorem readResult_bind_eq_ok : (readResult view >>= rest) state = (final, .ok value)
      ↔ ∃ found, view state = .ok found ∧ rest found state = (final, .ok value) := by
  rw [readResult_bind]
  cases view state <;> simp

-- Relations that every run follows

/-- Every run of the program, successful or not, goes along the relation. -/
def Follows (related : State → State → Prop) (program : Stateful State Error Value) : Prop :=
  ∀ state, related state (program state).1

namespace Follows

/-- Returning a value stays where it is. -/
theorem pure [Std.Refl related] (value : Value)
    : Follows related (Pure.pure value : Stateful State Error Value) :=
  fun state => Std.Refl.refl state

/-- A read stays where it is. -/
theorem read [Std.Refl related] (view : State → Value)
    : Follows related (Stateful.read view : Stateful State Error Value) :=
  fun state => Std.Refl.refl state

/-- A computation without a state stays where it is. -/
theorem lift [Std.Refl related] (result : Except Error Value)
    : Follows related (Stateful.lift result : Stateful State Error Value) :=
  fun state => Std.Refl.refl state

/-- A read that may fail stays where it is. -/
theorem readResult [Std.Refl related] (view : State → Except Error Value)
    : Follows related (Stateful.readResult view) :=
  fun state => Std.Refl.refl state

/-- A change follows the relation if it does at every state. -/
theorem modify {change : State → State} (changes : ∀ state, related state (change state))
    : Follows related (modify change : Stateful State Error Unit) := changes

/-- Catching the error does not change where a program goes. -/
theorem attempt (follows : Follows related program)
    : Follows related program.attempt := follows

/-- A sequence stops after its first part or goes through both. -/
theorem comp (head : Follows left first)
    (tail : ∀ value, Follows right (rest value))
    (stops : ∀ before after, left before after → related before after)
    (continues : ∀ before middle after, left before middle → right middle after
      → related before after)
    : Follows related (first >>= rest) := by
  intro state
  have moved := head state
  refine bind_cases (fun _ _ outcome => ?_) fun middle found outcome => ?_
  all_goals rw [outcome] at moved
  · exact stops _ _ moved
  · exact continues _ _ _ moved (tail found middle)

/-- Programs that follow a transitive relation compose. -/
theorem bind [IsTrans State related] (head : Follows related first)
    (tail : ∀ value, Follows related (rest value))
    : Follows related (first >>= rest) :=
  head.comp tail (fun _ _ => id) fun _ _ _ => IsTrans.trans _ _ _

/-- A check before the rest of a program. -/
theorem readResult_then [Std.Refl related] (tail : ∀ value, Follows related (rest value))
    : Follows related (Stateful.readResult view >>= rest) := by
  intro state
  rw [readResult_bind]
  cases view state with
  | error _ => exact Std.Refl.refl state
  | ok value => exact tail value state

/-- By induction on the items. -/
theorem all [Std.Refl related] [IsTrans State related] {program : Item → Stateful State Error Unit}
    (each : ∀ item, Follows related (program item)) (items : List Item)
    : Follows related (all program items) := by
  induction items with
  | nil => exact .pure ()
  | cons item rest ih => exact (each item).bind fun _ => ih

/-- By induction on the items. -/
theorem each [Std.Refl related] [IsTrans State related]
    {program : Item → Stateful State Error Value} (items : List Item)
    (single : ∀ item ∈ items, Follows related (program item))
    : Follows related (each program items) := by
  induction items with
  | nil => exact .pure []
  | cons item rest ih =>
    obtain ⟨head, tail⟩ := List.forall_mem_cons.mp single
    exact head.bind fun value => (ih tail).bind fun values => .pure (value :: values)

/-- What a program does after its first part. -/
theorem after_first [Std.Refl related] (first : Stateful State Error Value)
    (tail : ∀ value, Follows related (rest value)) (state : State)
    : related (first state).1 ((first >>= rest) state).1 := by
  refine bind_cases (fun after _ outcome => ?_) fun after value outcome => ?_
  all_goals rw [outcome]
  · exact Std.Refl.refl after
  · exact tail value after

end Follows

-- Errors

/-- Every error that the program returns is among the allowed ones. -/
def FailsOnly (allowed : Error → Prop) (program : Stateful State Error Value) : Prop :=
  ∀ state error, (program state).2 = .error error → allowed error

namespace FailsOnly

/-- Returning a value does not fail. -/
theorem pure (value : Value)
    : FailsOnly allowed (Pure.pure value : Stateful State Error Value) := nofun

/-- A read does not fail. -/
theorem read (view : State → Value)
    : FailsOnly allowed (read view : Stateful State Error Value) := nofun

/-- A change does not fail. -/
theorem modify (change : State → State)
    : FailsOnly allowed (modify change : Stateful State Error Unit) := nofun

/-- A sequence fails with an error of one of its parts. -/
theorem bind (head : FailsOnly allowed first) (tail : ∀ value, FailsOnly allowed (rest value))
    : FailsOnly allowed (first >>= rest) := by
  intro state error
  refine bind_cases (fun _ _ outcome failed => ?_) fun middle found _ => tail found middle error
  cases failed
  exact head state error (congrArg Prod.snd outcome)

/-- By induction on the items. -/
theorem each {program : Item → Stateful State Error Value}
    (single : ∀ item, FailsOnly allowed (program item)) (items : List Item)
    : FailsOnly allowed (each program items) := by
  induction items with
  | nil => exact .pure []
  | cons item rest ih =>
    exact (single item).bind fun value => ih.bind fun values => .pure (value :: values)

end FailsOnly

end Stateful
