import DecentDb.Library.Lists
import DecentDb.Sync.Changesets
import DecentDb.Sync.ExportedBatches
import Mathlib.Data.List.Range

/-! The sequence numbers of a changeset increase, however it was made: a diff and an inverse
number their records from one, and an exported batch keeps the numbers of the journal.
-/

namespace DecentDb.Sync

open List
open Sql (TableSchema)

/-- Consecutive numbers from `start` on. -/
def NumberedFrom (start : Nat) (records : List SyncChangesetRecord) : Prop :=
  records.map (·.originSequence) = range' start records.length

variable {start : Nat} {records before : List SyncChangesetRecord}

/-- Numbering goes on behind the first records. -/
theorem NumberedFrom.append {first second : List SyncChangesetRecord}
    (firstNumbered : NumberedFrom start first)
    (secondNumbered : NumberedFrom (start + first.length) second)
    : NumberedFrom start (first ++ second) := by
  unfold NumberedFrom at firstNumbered secondNumbered ⊢
  rw [map_append, firstNumbered, secondNumbered, length_append, range'_append_1]

/-- Numbering begins with the first record. -/
theorem NumberedFrom.cons {record : SyncChangesetRecord} {rest : List SyncChangesetRecord}
    (isStart : record.originSequence = start) (numbered : NumberedFrom (start + 1) rest)
    : NumberedFrom start (record :: rest) := by
  unfold NumberedFrom at numbered ⊢
  rw [map_cons, isStart, numbered, length_cons, range'_succ]

/-- Consecutive numbers increase. -/
theorem NumberedFrom.increasing (numbered : NumberedFrom start records)
    : records.Pairwise fun earlier later => earlier.originSequence < later.originSequence := by
  refine pairwise_map.mp ?_
  rw [show records.map (·.originSequence) = _ from numbered]
  exact pairwise_lt_range'

section

variable [ChangesetPrimitives] {context : ChangesetContext}
  {sourceReplicaId baseKind fromRef toRef : String} {tables : List TableSchema}
  {diff : List BranchTableDiff} {maxRecords : Nat}

/-- The rows of a table are numbered consecutively, by induction on them. -/
theorem branchRowRecords_numbered {table : TableSchema} {rows : List (String × BranchRowDiff)}
    (ran : branchRowRecords context sourceReplicaId table start rows = .ok records)
    : NumberedFrom start records := by
  induction rows generalizing start records with
  | nil =>
    cases ran
    rfl
  | cons row rest ih =>
    obtain ⟨record, made, later⟩ := bind_eq_ok.mp ran
    obtain ⟨others, restRan, done⟩ := bind_eq_ok.mp later
    cases done
    refine .cons ?_ (ih restRan)
    obtain ⟨_, _, later⟩ := bind_eq_ok.mp made
    obtain ⟨_, _, later⟩ := bind_eq_ok.mp later
    obtain ⟨_, _, done⟩ := bind_eq_ok.mp later
    cases done
    rfl

/-- A table whose schema changed has no records, and the rows of any other are numbered. -/
theorem tableDiffRecords_numbered {diff : BranchTableDiff}
    (ran : tableDiffRecords context sourceReplicaId tables start diff = .ok records)
    : NumberedFrom start records := by
  obtain ⟨⟨⟩, -, later⟩ := bind_eq_ok.mp ran
  split at later
  · cases later
    rfl
  · exact branchRowRecords_numbered later

/-- By induction on the tables; the records so far are numbered from one. -/
theorem diffRecords_numbered (numbered : NumberedFrom 1 before)
    (ran : diffRecords context sourceReplicaId tables maxRecords before diff = .ok records)
    : NumberedFrom 1 records := by
  induction diff generalizing before with
  | nil =>
    cases ran
    exact numbered
  | cons table rest ih =>
    obtain ⟨more, made, later⟩ := bind_eq_ok.mp ran
    split at later
    · cases later
    · refine ih (numbered.append ?_) later
      rw [add_comm]
      exact tableDiffRecords_numbered made

omit [ChangesetPrimitives] in
/-- An inverse gets a number of its own, whatever the number of its record. -/
theorem invertRecordsFrom_numbered {changesetId : String} {index : Nat}
    (ran : invertRecordsFrom changesetId index before = .ok records)
    : NumberedFrom (index + 1) records := by
  induction before generalizing index records with
  | nil =>
    cases ran
    rfl
  | cons record rest ih =>
    obtain ⟨inverse, made, later⟩ := bind_eq_ok.mp ran
    obtain ⟨others, restRan, done⟩ := bind_eq_ok.mp later
    cases done
    refine .cons ?_ (ih restRan)
    obtain ⟨_, _, done⟩ := bind_eq_ok.mp made
    cases done
    rfl

/-- The sequence numbers of an inverse changeset increase. -/
theorem syncInvertChangeset_increasing {changeset inverse : SyncChangeset} {createdAtMicros : Int}
    (ran : syncInvertChangeset changeset createdAtMicros = .ok inverse)
    : inverse.records.Pairwise fun earlier later =>
      earlier.originSequence < later.originSequence := by
  obtain ⟨⟨⟩, -, later⟩ := bind_eq_ok.mp ran
  obtain ⟨inverted, made, done⟩ := bind_eq_ok.mp later
  cases done
  exact (invertRecordsFrom_numbered made).increasing

end

end DecentDb.Sync
