import DecentDb.Library.Stateful

/-! Two stateful computations that agree from related states: they return the same result
and leave related states behind.
-/

namespace Stateful

variable {Left Right Error Value Other Item : Type} {related : Left → Right → Prop}

def Agree (related : Left → Right → Prop) (left : Stateful Left Error Value)
    (right : Stateful Right Error Value) : Prop :=
  ∀ before view, related before view
    → (left before).2 = (right view).2 ∧ related (left before).1 (right view).1

namespace Agree

/-- Returning a value reads no state. -/
theorem pure (value : Value)
    : Agree related (Pure.pure value : Stateful Left Error Value) (Pure.pure value) :=
  fun _ _ start => ⟨rfl, start⟩

/-- A computation without a state agrees with itself. -/
theorem lift (result : Except Error Value) : Agree related (lift result) (lift result) :=
  fun _ _ start => ⟨rfl, start⟩

/-- Two reads agree if related states look the same to them. -/
theorem read {leftView : Left → Value} {rightView : Right → Value}
    (same : ∀ before view, related before view → leftView before = rightView view)
    : Agree related (read leftView : Stateful Left Error Value) (read rightView) :=
  fun before view start => ⟨congrArg Except.ok (same before view start), start⟩

/-- Two reads that may fail agree if related states look the same to them. -/
theorem readResult {leftView : Left → Except Error Value} {rightView : Right → Except Error Value}
    (same : ∀ before view, related before view → leftView before = rightView view)
    : Agree related (readResult leftView) (readResult rightView) :=
  fun before view start => ⟨same before view start, start⟩

/-- Two changes agree if they keep states related. -/
theorem modify {leftChange : Left → Left} {rightChange : Right → Right}
    (kept : ∀ before view, related before view → related (leftChange before) (rightChange view))
    : Agree related (modify leftChange : Stateful Left Error Unit) (modify rightChange) :=
  fun before view start => ⟨rfl, kept before view start⟩

/-- Agreement composes. -/
theorem bind {left : Stateful Left Error Value} {right : Stateful Right Error Value}
    {leftRest : Value → Stateful Left Error Other} {rightRest : Value → Stateful Right Error Other}
    (first : Agree related left right)
    (rest : ∀ value, Agree related (leftRest value) (rightRest value))
    : Agree related (left >>= leftRest) (right >>= rightRest) := by
  intro before view start
  obtain ⟨same, kept⟩ := first before view start
  change (Stateful.bind left leftRest before).2 = (Stateful.bind right rightRest view).2
    ∧ related (Stateful.bind left leftRest before).1 (Stateful.bind right rightRest view).1
  unfold Stateful.bind
  rcases leftRun : left before with ⟨middle, value | error⟩ <;>
    rcases rightRun : right view with ⟨other, found | failure⟩ <;>
    simp only [leftRun, rightRun, reduceCtorEq, Except.ok.injEq, Except.error.injEq] at same kept
  · exact ⟨congrArg Except.error same, kept⟩
  · subst same
    exact rest _ middle other kept

/-- By induction on the items. -/
theorem each {left : Item → Stateful Left Error Value} {right : Item → Stateful Right Error Value}
    (single : ∀ item, Agree related (left item) (right item)) (items : List Item)
    : Agree related (each left items) (each right items) := by
  induction items with
  | nil => exact .pure []
  | cons item rest ih =>
    exact (single item).bind fun value => ih.bind fun values => .pure (value :: values)

end Agree

end Stateful
