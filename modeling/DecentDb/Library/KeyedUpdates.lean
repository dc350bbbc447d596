import Mathlib.Data.List.Basic

/-! Rows under keys, and updates that set or remove one row each. -/

namespace KeyedUpdates

variable {Key Row : Type} [DecidableEq Key]

/-- The rows after all the updates in order; an update without a row removes it. -/
def replay (rows : Key → Option Row) : List (Key × Option Row) → Key → Option Row
  | [] => rows
  | update :: rest => replay (Function.update rows update.1 update.2) rest

/-- What the last update of the key sets it to. -/
def lastImage : List (Key × Option Row) → Key → Option (Option Row)
  | [], _ => none
  | update :: rest, key =>
    (lastImage rest key).or (if update.1 = key then some update.2 else none)

variable (rows) {updates : List (Key × Option Row)} {key : Key} {image : Option Row}

/-- A key has the row of its last update, or the one that it had before. -/
theorem replay_eq (updates : List (Key × Option Row)) (key : Key)
    : replay rows updates key = (lastImage updates key).getD (rows key) := by
  induction updates generalizing rows with
  | nil => rfl
  | cons update rest ih =>
    rw [replay, ih, lastImage]
    cases lastImage rest key with
    | some image => rfl
    | none =>
      by_cases same : update.1 = key
      · simp [← same]
      · simp [same, Function.update_of_ne (Ne.symm same)]

/-- The last image of a key is that of one of the updates. -/
theorem lastImage_mem (last : lastImage updates key = some image) : (key, image) ∈ updates := by
  induction updates with
  | nil => cases last
  | cons update rest ih =>
    rw [lastImage] at last
    cases later : lastImage rest key with
    | some other =>
      rw [later] at last
      cases last
      exact List.mem_cons_of_mem _ (ih later)
    | none =>
      rw [later, Option.none_or] at last
      split at last <;> cases last
      next same =>
        rw [← same]
        exact List.mem_cons_self

/-- A key that an update names has a last image. -/
theorem lastImage_isSome (member : (key, image) ∈ updates) : (lastImage updates key).isSome := by
  induction updates with
  | nil => cases member
  | cons update rest ih =>
    rw [lastImage, Option.isSome_or]
    rcases List.mem_cons.mp member with rfl | later
    · simp
    · simp [ih later]

/-- Updates are replayed one after the other. -/
theorem replay_append (first second : List (Key × Option Row))
    : replay rows (first ++ second) = replay (replay rows first) second := by
  induction first generalizing rows with
  | nil => rfl
  | cons update rest ih => rw [List.cons_append, replay, ih, replay]

end KeyedUpdates
