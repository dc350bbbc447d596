import Mathlib.Data.List.Basic

/-! Sequences that are cut into lines at a separator, and lines that are joined again. -/

namespace Lines

open List

variable {Symbol : Type} [DecidableEq Symbol] {separator : Symbol}

/-- The lines before, between and after the separators; nothing after the last one counts
as no line.
-/
def lines (separator : Symbol) : List Symbol → List (List Symbol)
  | [] => []
  | symbol :: rest =>
    if symbol = separator then [] :: lines separator rest
    else
      match lines separator rest with
      | [] => [[symbol]]
      | line :: others => (symbol :: line) :: others

/-- Every line with a separator behind it. -/
def joinLines (separator : Symbol) (texts : List (List Symbol)) : List Symbol :=
  texts.flatMap fun text => text ++ [separator]

/-- By induction on the first line. -/
theorem lines_append {line : List Symbol} (plain : separator ∉ line) (rest : List Symbol)
    : lines separator (line ++ separator :: rest) = line :: lines separator rest := by
  induction line with
  | nil => simp [lines]
  | cons symbol others ih =>
    obtain ⟨different, plainRest⟩ := not_or.mp (mem_cons.not.mp plain)
    rw [cons_append, lines, if_neg (Ne.symm different), ih plainRest]

/-- Joined lines are found again, by induction on them. -/
theorem lines_joinLines {texts : List (List Symbol)} (plain : ∀ text ∈ texts, separator ∉ text)
    : lines separator (joinLines separator texts) = texts := by
  induction texts with
  | nil => rfl
  | cons text rest ih =>
    obtain ⟨first, others⟩ := forall_mem_cons.mp plain
    rw [joinLines, flatMap_cons, append_assoc, singleton_append,
      lines_append first, ← joinLines, ih others]

end Lines
