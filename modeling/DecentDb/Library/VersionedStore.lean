import Mathlib.Logic.Basic

/-! A store of versions: settled values below a log of numbered commits, read at a
snapshot number.
-/

universe u v

/-- Commits are numbered; each gives some keys new values, later entries winning. -/
structure VersionedStore (Key : Type u) (Value : Type v) where
  settled : Key → Value
  commits : List (Nat × List (Key × Value))

namespace VersionedStore

variable {Key : Type u} {Value : Type v} [DecidableEq Key] (store : VersionedStore Key Value)

/-- The value that the last of the writes gave a key, or the one below them. -/
def lastWritten (below : Key → Value) (writes : List (Key × Value)) (key : Key) : Value :=
  ((writes.reverse.find? (·.1 = key)).map Prod.snd).getD (below key)

/-- The writes of all commits up to a snapshot, oldest first. -/
def writesUpTo (snapshot : Nat) : List (Key × Value) :=
  (store.commits.filter (·.1 ≤ snapshot)).flatMap (·.2)

/-- The value that the last commit at or before the snapshot gave the key. -/
def valueAt (key : Key) (snapshot : Nat) : Value :=
  match (store.writesUpTo snapshot).reverse.find? (·.1 = key) with
  | some write => write.2
  | none => store.settled key

def commit (number : Nat) (writes : List (Key × Value)) : VersionedStore Key Value :=
  { store with commits := store.commits ++ [(number, writes)] }

/-- Makes the values the settled ones and starts the numbering over. -/
def restart (values : Key → Value) : VersionedStore Key Value :=
  { settled := values, commits := [] }

section

variable {below : Key → Value} {key : Key}

/-- Writes after other writes are writes over what those left. -/
theorem lastWritten_append (first second : List (Key × Value))
    : lastWritten below (first ++ second) key
      = lastWritten (lastWritten below first) second key := by
  simp only [lastWritten, List.reverse_append, List.find?_append]
  cases second.reverse.find? (·.1 = key) <;> rfl

/-- Of the values below, only the key's own one matters. -/
theorem lastWritten_congr {other : Key → Value} (same : below key = other key)
    (writes : List (Key × Value))
    : lastWritten below writes key = lastWritten other writes key := by
  rw [lastWritten, lastWritten, same]

/-- A snapshot sees what the commits up to it wrote over the settled values. -/
theorem valueAt_eq_lastWritten (snapshot : Nat)
    : store.valueAt key snapshot
      = lastWritten store.settled (store.writesUpTo snapshot) key := by
  rw [valueAt, lastWritten]
  cases (store.writesUpTo snapshot).reverse.find? (·.1 = key) <;> rfl

end

/-- A later commit does not change what a snapshot sees. -/
theorem valueAt_commit_of_lt (store : VersionedStore Key Value) (key : Key)
    {snapshot number : Nat} (later : snapshot < number) (writes : List (Key × Value))
    : (store.commit number writes).valueAt key snapshot = store.valueAt key snapshot := by
  have same : (store.commit number writes).writesUpTo snapshot = store.writesUpTo snapshot := by
    simp [writesUpTo, commit, Nat.not_le.mpr later]
  rw [valueAt, valueAt, same]
  rfl

/-- Without commits every snapshot sees the settled values. -/
theorem valueAt_of_empty (empty : store.commits = []) (key : Key) (snapshot : Nat)
    : store.valueAt key snapshot = store.settled key := by
  rw [valueAt, writesUpTo, empty]
  rfl

end VersionedStore
