import DecentDb.Sync.JournalFile

/-! What a file of encoded records is read as, and which sequences follow each other in it. -/

namespace DecentDb.Sync

open List

open Lines (lines joinLines)
open JournalCodec (canEncode encode parse_encode trim_encode)

section Journal

variable [JournalCodec] {records : List SyncJournalRecord} {record : SyncJournalRecord}

-- Reading

/-- Every record is one line. -/
theorem lines_encodeRecords (encodable : ∀ record ∈ records, canEncode record)
    : lines newline (encodeRecords records) = records.map encode := by
  refine Lines.lines_joinLines fun text member => ?_
  obtain ⟨record, inside, rfl⟩ := mem_map.mp member
  exact JournalCodec.newline_not_mem record (encodable record inside)

/-- The line of a record is not blank. -/
theorem trim_encode_isEmpty (can : canEncode record)
    : (trim (encode record)).isEmpty = false := by
  rw [trim_encode record can, isEmpty_eq_false_iff]
  exact JournalCodec.encode_ne_nil record can

section

variable (encodable : ∀ record ∈ records, canEncode record)
include encodable

/-- By induction on the records. -/
theorem parseLines_encode : parseLines (records.map encode) = .ok records := by
  induction records with
  | nil => rfl
  | cons record rest ih =>
    obtain ⟨can, others⟩ := forall_mem_cons.mp encodable
    rw [map_cons, parseLines, trim_encode_isEmpty can, trim_encode record can,
      parse_encode record can, ih others]
    rfl

/-- What is written is read back. -/
theorem readJournalRecords_encode (positive : ∀ record ∈ records, 0 < record.sequence)
    : readJournalRecords (encodeRecords records) 0 none = .ok records := by
  rw [readJournalRecords, lines_encodeRecords encodable, parseLines_encode encodable, ok_bind]
  exact congrArg Except.ok (filter_eq_self.mpr fun record member =>
    decide_eq_true (positive record member))

/-- The last line has the sequence of the last record. -/
theorem lastSequence_encode
    : lastSequence (encodeRecords records) = records.getLast?.map (·.sequence) := by
  have parsed : (records.map encode).filterMap (fun line =>
    if (trim line).isEmpty then none else JournalCodec.parse (trim line)) = records := by
    induction records with
    | nil => rfl
    | cons record rest ih =>
      obtain ⟨can, others⟩ := forall_mem_cons.mp encodable
      rw [map_cons, filterMap_cons, trim_encode_isEmpty can,
        trim_encode record can, parse_encode record can, ih others]
      rfl
  rw [lastSequence, lines_encodeRecords encodable]
  simp only [parsed]

end

-- Sequences

/-- The sequence after those of the records. -/
def nextAfter (records : List SyncJournalRecord) : Nat :=
  (records.getLast?.map (·.sequence + 1)).getD 1

abbrev Increasing (records : List SyncJournalRecord) : Prop :=
  records.Pairwise (·.sequence < ·.sequence)

omit [JournalCodec] in
/-- The next sequence is above all that were used. -/
theorem Increasing.lt_nextAfter (increasing : Increasing records) (member : record ∈ records)
    : record.sequence < nextAfter records := by
  have nonempty := ne_nil_of_mem member
  rw [nextAfter, getLast?_eq_some_getLast nonempty, Option.map_some, Option.getD_some]
  rw [Increasing, ← dropLast_append_getLast nonempty] at increasing
  rw [← dropLast_append_getLast nonempty] at member
  rcases mem_append.mp member with earlier | last
  · exact Nat.lt_succ_of_lt ((pairwise_append.mp increasing).2.2 record earlier _ mem_cons_self)
  · rw [mem_singleton.mp last]
    exact Nat.lt_succ_self _

variable (origin : FlushOrigin) (mutations : List SyncMutation) (sequence : Nat)

omit [JournalCodec] in
/-- New records are numbered from the next sequence on. -/
theorem le_journalRecords
    : ∀ record ∈ journalRecords origin sequence mutations, sequence ≤ record.sequence := by
  induction mutations generalizing sequence with
  | nil => exact nofun
  | cons mutation rest ih =>
    refine forall_mem_cons.mpr ⟨le_rfl, fun record member => ?_⟩
    exact Nat.le_of_succ_le (ih (sequence + 1) record member)

omit [JournalCodec] in
/-- New records are numbered in order. -/
theorem journalRecords_increasing : Increasing (journalRecords origin sequence mutations) := by
  induction mutations generalizing sequence with
  | nil => exact .nil
  | cons mutation rest ih =>
    exact .cons (fun record => le_journalRecords origin rest (sequence + 1) record)
      (ih (sequence + 1))

omit [JournalCodec] in
/-- The next sequence moves on by the number of records. -/
theorem getLast_journalRecords
    : ((journalRecords origin sequence mutations).getLast?.map (·.sequence + 1)).getD sequence
      = sequence + mutations.length := by
  induction mutations generalizing sequence with
  | nil => rfl
  | cons mutation rest ih =>
    have later := ih (sequence + 1)
    rw [journalRecords, getLast?_cons, Option.map_some, Option.getD_some, length_cons,
      add_comm rest.length 1, ← add_assoc, ← later]
    cases (journalRecords origin (sequence + 1) rest).getLast? <;> rfl

omit [JournalCodec] in
/-- A flush behind the others keeps the sequences increasing. -/
theorem increasing_flush (increasing : Increasing records)
    : Increasing (records ++ journalRecords origin (nextAfter records) mutations) := by
  refine pairwise_append.mpr ⟨increasing, journalRecords_increasing origin _ _, ?_⟩
  intro earlier member later flushed
  exact lt_of_lt_of_le (increasing.lt_nextAfter member)
    (le_journalRecords origin mutations _ later flushed)

omit [JournalCodec] in
/-- What a prune retains is the end of the journal. -/
theorem Increasing.filter_suffix (increasing : Increasing records) (through : Nat)
    : records.filter (through < ·.sequence) <:+ records := by
  induction records with
  | nil => exact suffix_rfl
  | cons record rest ih =>
    obtain ⟨below, others⟩ := pairwise_cons.mp increasing
    by_cases retained : through < record.sequence
    · have all : ∀ other ∈ record :: rest, decide (through < other.sequence) := by
        refine forall_mem_cons.mpr ⟨decide_eq_true retained, fun other member => ?_⟩
        exact decide_eq_true (lt_trans retained (below other member))
      rw [filter_eq_self.mpr all]
    · rw [filter_cons, if_neg (by simpa using retained)]
      exact (ih others).trans (suffix_cons record rest)

end Journal

end DecentDb.Sync
