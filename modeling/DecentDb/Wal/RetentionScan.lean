import DecentDb.Wal.SlotOwnership

/-! What a scan of the reader slots knows while it runs: the records it has read show every
reader that is still registered, and a slot it has passed with nothing to report has none.
-/

namespace DecentDb.Wal.Coordination

open Scan

-- Phases

/-- The thread is on its way to a registered reader. -/
def Job.registering : Job → Bool
  | .seeking _ | .reserved _ | .refused _ | .locked _ | .initialized _ => true
  | _ => false

def Job.scanning : Job → Bool
  | .reading _ | .atSlot _ | .probing _ _ | .probeReserved _ _ | .probeLocked _
  | .probeUnlocking _ | .probeReleasing _ | .scanned _ => true
  | _ => false

variable {ok : Bool} {job : Job} {process : Nat} {held fewer : Nat → Prop} {scan other : Scan}

/-- A step at the slots goes on with a registration or a scan, or ends it, and only an
initialized reader becomes registered.
-/
theorem jobStep_phase {table following : SlotTable} {next : Job}
    (stepped : jobStep process ok table job = some (following, next))
    : (next.registering → job.registering)
      ∧ (next.scanning → job.scanning)
      ∧ ∀ reader, next = .registered reader → job = .initialized reader := by
  cases job <;> simp only [jobStep] at stepped
  all_goals
    repeat' split at stepped
  all_goals
    cases stepped
  all_goals
    simp [Job.registering, Job.scanning]

/-- A thread that scans registers no reader. -/
theorem Job.reader?_of_scanning (scans : job.scanning) : job.reader? = none := by
  cases job <;> first | rfl | cases scans

-- What a scan knows

/-- A slot has a registered reader. -/
def Registered (threads : List Thread) (slot : Nat) : Prop :=
  ∃ thread ∈ threads, ∃ reader, thread.job = .registered reader ∧ reader.slot = slot

/-- The scan found no reader and nothing that blocks the truncation. -/
def ReaderRetentionSnapshot.Clear (retention : ReaderRetentionSnapshot) : Prop :=
  retention.activeCount = 0 ∧ retention.truncationBlocked = false

/-- The records that were read at once show the readers, and a scan that is clear so far has
passed none.
-/
structure Scan.Sound (held : Nat → Prop) (scan : Scan) : Prop where
  records : ∀ records slot record, scan.records = some records
    → records[slot]? = some (some record) → held slot → record.state = .active
  passed : scan.retention.Clear → ∀ slot, slot < scan.slot → ¬held slot

/-- What a job of a scan knows of the slots that readers hold. -/
def Job.ScanSound (held : Nat → Prop) : Job → Prop
  | .reading records =>
    ∀ (slot : Nat) (record : ReaderSlotRecord), records[slot]? = some (some record)
      → held slot → record.state = .active
  | .atSlot scan | .probeLocked scan | .probeUnlocking scan => scan.Sound held
  | .probing scan record | .probeReserved scan record =>
    scan.Sound held ∧ (held scan.slot → record.state = .active)
  | .probeReleasing scan => scan.Sound held ∧ (scan.retention.Clear → ¬held scan.slot)
  | .scanned retention => retention.Clear → ∀ slot, slot < readerSlotCount → ¬held slot
  | _ => True

/-- Nothing is asked of a job that does not scan. -/
theorem Job.ScanSound.of_not_scanning (quiet : job.scanning = false)
    : job.ScanSound held := by
  cases job <;> trivial

section

/-- A scan is sound for fewer slots, too. -/
theorem Scan.Sound.mono (sound : scan.Sound held)
    (subset : ∀ slot, fewer slot → held slot) : scan.Sound fewer :=
  ⟨fun records slot record read found holds =>
    sound.records records slot record read found (subset slot holds),
    fun clear slot before holds => sound.passed clear slot before (subset slot holds)⟩

/-- What a scan knows stays true when readers go. -/
theorem Job.ScanSound.mono (sound : job.ScanSound held)
    (subset : ∀ slot, fewer slot → held slot) : job.ScanSound fewer := by
  cases job with
  | reading => exact fun slot record found holds => sound slot record found (subset slot holds)
  | atSlot | probeLocked | probeUnlocking => exact Sound.mono sound subset
  | probing | probeReserved => exact ⟨sound.1.mono subset, fun holds => sound.2 (subset _ holds)⟩
  | probeReleasing => exact ⟨sound.1.mono subset, fun clear holds => sound.2 clear (subset _ holds)⟩
  | scanned => exact fun clear slot inside holds => sound clear slot inside (subset slot holds)
  | _ => trivial

/-- A slot that is owned does not change what was read at once. -/
@[simp]
theorem Scan.owned_records (record : ReaderSlotRecord)
    : (scan.owned record).records = scan.records := by
  cases state : record.state <;> simp [owned, state, blocked]

/-- A slot that has an owner is not clear. -/
theorem Scan.not_clear_owned (scan : Scan) (record : ReaderSlotRecord)
    : ¬(scan.owned record).retention.Clear := by
  rintro ⟨count, unblocked⟩
  cases state : record.state <;> simp [owned, state, blocked] at count unblocked

section

variable (sound : scan.Sound held)
include sound

/-- Nothing is asked of a scan that is not clear but its records. -/
theorem Scan.Sound.not_clear
    (records : other.records = scan.records) (notClear : ¬other.retention.Clear)
    : other.Sound held :=
  ⟨fun read slot record isRead => sound.records read slot record (records.symm.trans isRead),
    fun clear => absurd clear notClear⟩

/-- A scan goes on from a slot without a reader. -/
theorem Scan.Sound.next (free : scan.retention.Clear → ¬held scan.slot) : scan.next.Sound held := by
  refine ⟨sound.records, fun clear slot before => ?_⟩
  rcases Nat.lt_or_eq_of_le (Nat.le_of_lt_succ before) with earlier | rfl
  · exact sound.passed clear slot earlier
  · exact free clear

/-- The record at the slot of a scan is active if a reader holds the slot. -/
theorem Scan.Sound.record_active {table : SlotTable}
    {record : ReaderSlotRecord} (active : ∀ slot, held slot → (table.slots slot).state = .active)
    (seen : scan.record table ok = some record) (holds : held scan.slot)
    : record.state = .active := by
  unfold Scan.record at seen
  cases read : scan.records with
  | none =>
    rw [read] at seen
    cases ok with
    | false => cases seen
    | true =>
      cases seen
      exact active scan.slot holds
  | some records =>
    rw [read] at seen
    exact sound.records records scan.slot record read (Option.join_eq_some_iff.mp seen) holds

end

/-- Every step of a scan keeps what it knows. -/
theorem jobStep_scanSound {table following : SlotTable} {next : Job}
    (sound : job.ScanSound held) (active : ∀ slot, held slot → (table.slots slot).state = .active)
    (free : ∀ scan, job = .probeUnlocking scan → ¬held scan.slot)
    (stepped : jobStep process ok table job = some (following, next)) : next.ScanSound held := by
  have quiet (notScanning : job.scanning = false) : next.ScanSound held := by
    refine Job.ScanSound.of_not_scanning (Bool.eq_false_iff.mpr fun scanning => ?_)
    rw [(jobStep_phase stepped).2.1 scanning] at notScanning
    cases notScanning
  cases job with
  | reading records =>
    simp only [jobStep] at stepped
    split at stepped <;> cases stepped
    next =>
      intro slot record found holds
      rcases Nat.lt_trichotomy slot records.length with before | same | after
      · rw [List.getElem?_append_left before] at found
        exact sound slot record found holds
      · subst same
        rw [List.getElem?_concat_length] at found
        cases ok with
        | false => cases found
        | true =>
          cases found
          exact active _ holds
      · rw [List.getElem?_eq_none (by simpa using Nat.succ_le_of_lt after)] at found
        cases found
    next =>
      refine ⟨?_, fun _ slot before => absurd before (Nat.not_lt_zero slot)⟩
      rintro _ slot record ⟨⟩ found holds
      exact sound slot record found holds
  | atSlot scan =>
    simp only [jobStep] at stepped
    split at stepped
    next all =>
      cases stepped
      intro clear slot inside
      exact sound.passed clear slot (Nat.lt_of_lt_of_le inside all)
    next =>
      split at stepped <;> cases stepped
      next =>
        refine sound.not_clear rfl ?_
        rintro ⟨-, ⟨⟩⟩
      next record seen => exact ⟨sound, sound.record_active active seen⟩
  | probing scan record =>
    simp only [jobStep] at stepped
    split at stepped <;> cases stepped
    · exact sound.1.not_clear (owned_records record) (scan.not_clear_owned record)
    · exact sound
  | probeReserved scan record =>
    simp only [jobStep] at stepped
    split at stepped
    next empty =>
      cases stepped
      refine ⟨sound.1, fun _ holds => ?_⟩
      have isActive := sound.2 holds
      rw [empty] at isActive
      cases isActive
    next =>
      split at stepped
      · cases stepped
        trivial
      split at stepped <;> cases stepped
      · exact sound.1
      · have notClear := scan.not_clear_owned record
        exact ⟨sound.1.not_clear (owned_records record) notClear,
          fun clear => absurd clear notClear⟩
  | probeLocked scan =>
    simp only [jobStep] at stepped
    split at stepped <;> cases stepped
    · exact sound
    · trivial
  | probeUnlocking scan =>
    cases stepped
    exact ⟨sound, fun _ => free scan rfl⟩
  | probeReleasing scan =>
    cases stepped
    exact sound.1.next sound.2
  | scanned retention =>
    cases stepped
    trivial
  | _ => exact quiet rfl

end

end DecentDb.Wal.Coordination
