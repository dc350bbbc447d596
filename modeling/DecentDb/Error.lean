import Mathlib.Logic.Basic

/-! The engine's error kinds that the modelled functions return, with their messages. -/

namespace DecentDb

inductive DbError where
  | io (context : String)
  | corruption (message : String)
  | constraint (message : String)
  | transaction (message : String)
  | sql (message : String)
  | internal (message : String)
  | unsupportedFormatVersion (version : Nat)
  deriving DecidableEq, Repr

/-- The text that an error is displayed as. -/
def DbError.text : DbError → String
  | .io context => s!"I/O error: {context}"
  | .corruption message => s!"database corruption: {message}"
  | .constraint message => s!"constraint violation: {message}"
  | .transaction message => s!"transaction error: {message}"
  | .sql message => s!"SQL error: {message}"
  | .internal message => s!"internal engine error: {message}"
  | .unsupportedFormatVersion version => s!"unsupported database format version: {version}"

/-- The engine's result type. -/
abbrev DbResult (α : Type) := Except DbError α

variable {α β : Type} {result first : DbResult α}

/-- A result is handed on. -/
@[simp]
theorem ok_bind (value : α) (next : α → DbResult β)
    : ((Except.ok value : DbResult α) >>= next) = next value := rfl

/-- An error ends a computation. -/
@[simp]
theorem error_bind (error : DbError) (next : α → DbResult β)
    : ((Except.error error : DbResult α) >>= next) = .error error := rfl

/-- A sequence succeeds exactly if both of its parts do. -/
theorem bind_eq_ok {next : α → DbResult β} {value : β}
    : (first >>= next) = .ok value ↔ ∃ middle, first = .ok middle ∧ next middle = .ok value := by
  cases first <;> simp

/-- Forgetting the error keeps only what succeeded. -/
theorem eq_ok_of_toOption {value : α} (found : result.toOption = some value)
    : result = .ok value := by
  cases result with
  | error error => cases found
  | ok inner => exact congrArg Except.ok (Option.some.inj found)

/-- A result is there exactly if the computation succeeded with it. -/
theorem toOption_eq_some {value : α}
    : result.toOption = some value ↔ result = .ok value :=
  ⟨eq_ok_of_toOption, fun same => by rw [same]; rfl⟩

/-- A mapped computation succeeds exactly if the computation does. -/
theorem map_eq_ok {f : α → β} {value : β}
    : result.map f = .ok value ↔ ∃ inner, result = .ok inner ∧ f inner = value := by
  cases result <;> simp [Except.map]

end DecentDb
