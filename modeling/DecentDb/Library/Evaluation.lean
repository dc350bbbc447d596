import Mathlib.Logic.Basic

/-! Statements that some computation returns a value with a property. They are decided by
running the computation once.
-/

namespace Evaluation

variable {Value : Type} {result : Option Value} {property goal : Value → Prop}

/-- A decided property of a result, as a property. -/
theorem any_iff [DecidablePred property] : result.any (fun value => decide (property value))
      ↔ ∃ value, result = some value ∧ property value := by
  simp [Option.any_eq_true]

instance decidableExists [DecidablePred property] :
    Decidable (∃ value, result = some value ∧ property value) :=
  decidable_of_iff _ any_iff

/-- What was checked of the value together with what follows from it. -/
theorem exists_of_checked (property : Value → Prop) [DecidablePred property]
    (checked : result.any (fun value => decide (property value)))
    (follows : ∀ value, result = some value → property value → goal value)
    : ∃ value, result = some value ∧ goal value := by
  obtain ⟨value, returned, holds⟩ := any_iff.mp checked
  exact ⟨value, returned, follows value returned holds⟩

end Evaluation
