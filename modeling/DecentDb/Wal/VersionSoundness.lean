import DecentDb.Wal.Ledger

/-! Sound versions: each one is backed by a frame in the WAL file from which its image can
be rebuilt, and the visible version of a page is the ledger's newest entry.
-/

namespace DecentDb.Wal

open List PageSlot WalHandle WalVersion

open WalIndex (newestAtOrBefore)

namespace WalVersion

variable (version : WalVersion)

def walOffset : Nat := version.payload.walMetadata.1
def frameLen : Nat := version.payload.walMetadata.2.1
def encoding : FrameEncoding := version.payload.walMetadata.2.2

/-- The version gives its image without a base: its bytes are resident or its frame is a
full page.
-/
def Direct : Prop :=
  version.payload.isResident ∨ version.encoding = .page

variable (version : WalVersion)

/-- A demoted version still knows where its frame is. -/
@[simp]
theorem walOffset_demoted : version.demoted.walOffset = version.walOffset := by
  simp [walOffset, demoted]

/-- A demoted version still knows how long its frame is. -/
@[simp]
theorem frameLen_demoted : version.demoted.frameLen = version.frameLen := by
  simp [frameLen, demoted]

/-- A demoted version still knows how its frame is encoded. -/
@[simp]
theorem encoding_demoted : version.demoted.encoding = version.encoding := by
  simp [encoding, demoted]

/-- Demoting twice is demoting once. -/
@[simp]
theorem demoted_demoted : version.demoted.demoted = version.demoted := by
  rcases version with ⟨_, payload⟩
  cases payload <;> rfl

/-- What the sidecar keeps of a version is the demoted version. -/
@[simp]
theorem version_record : version.record.version = version.demoted := by
  rcases version with ⟨lsn, payload⟩
  cases payload <;> rfl

/-- A demoted version keeps its LSN. -/
@[simp]
theorem lsn_demoted : version.demoted.lsn = version.lsn := rfl

end WalVersion

/-- All that soundness of a version refers to. -/
structure Ledger where
  config : WalConfig
  file : ByteFile
  settled : PageId → Page
  entries : List LedgerEntry
  snapshots : List Nat

/-- Deltas may be encoded against resident WAL versions. -/
def WalConfig.Chained (config : WalConfig) : Prop :=
  canEncodeAgainstResidentWalBase config

variable {version : WalVersion} {pageId : PageId} {entry : LedgerEntry} {slot : PageSlot}
  {ledger : Ledger}

namespace Ledger

variable (ledger : Ledger) {frame : WalFrame}

/-- A delta over the main file: the first entry of its page, and applying it to the settled
page gives the image, as does applying it again.
-/
structure OverMain (entry : LedgerEntry) (payload : List UInt8) : Prop where
  first : ∀ other ∈ ledger.entries, other.pageId = entry.pageId → entry.lsn ≤ other.lsn
  applies : applyPageDelta (ledger.settled entry.pageId) payload = .ok entry.image
  idempotent : applyPageDelta entry.image payload = .ok entry.image

/-- The frame of a version and the entry it stands for. -/
structure BackedBy (version : WalVersion) (entry : LedgerEntry) (frame : WalFrame) : Prop where
  member : entry ∈ ledger.entries
  lsn : entry.lsn = version.lsn
  stored : FrameAt ledger.file version.walOffset ledger.config.pageSize frame
  pageId : frame.pageId = entry.pageId
  frameType : frame.frameType = version.encoding.frameType
  frameLen : version.frameLen = frame.encodedLen ledger.config.pageSize
  ends : version.walOffset + version.frameLen = version.lsn
  afterHeader : walHeaderSize ≤ version.walOffset
  resident : ∀ data offset length encoding,
    version.payload = .resident data offset length encoding → data = entry.image
  full : version.encoding = .page → frame.payload = entry.image
  delta : version.encoding = .pageDelta
    → ledger.config.Chained ∨ ledger.OverMain entry frame.payload

def Backed (pageId : PageId) (version : WalVersion) : Prop :=
  ∃ entry frame, entry.pageId = pageId ∧ ledger.BackedBy version entry frame

variable {ledger}

/-- A version that is backed by its frame is so without its bytes. -/
theorem Backed.demoted (backed : ledger.Backed pageId version)
    : ledger.Backed pageId version.demoted := by
  obtain ⟨entry, frame, page, sound⟩ := backed
  refine ⟨entry, frame, page, ?_⟩
  exact { sound with
    stored := by simpa using sound.stored
    frameType := by simpa using sound.frameType
    frameLen := by simpa using sound.frameLen
    ends := by simpa using sound.ends
    afterHeader := by simpa using sound.afterHeader
    resident := by
      intro data offset length encoding resident
      have onDisk : version.demoted.payload.isResident = false := by
        rcases version with ⟨lsn, payload⟩
        cases payload <;> rfl
      rw [resident] at onDisk
      cases onDisk
    full := by simpa using sound.full
    delta := by simpa using sound.delta
  }

/-- A page that a frame was written for is not page 0. -/
theorem BackedBy.pageId_ne_zero
    (backed : ledger.BackedBy version entry frame) : entry.pageId ≠ 0 := by
  rw [← backed.pageId]
  apply backed.stored.wellFormed.pageId.mp
  rw [backed.frameType]
  cases version.encoding <;> rfl

-- Materialization

/-- No indexed version is older than a delta over the main file. -/
theorem OverMain.latestVisible_eq_none
    {payload : List UInt8} (overMain : ledger.OverMain entry payload) {index : WalIndex}
    (indexed : ∀ version ∈ index.versions entry.pageId, ledger.Backed entry.pageId version)
    (positive : 0 < entry.lsn)
    : index.latestVisible entry.pageId (entry.lsn - 1) = none := by
  apply newestAtOrBefore_eq_none_of_lt
  intro older member
  obtain ⟨other, _, page, sound⟩ := indexed older member
  have later := overMain.first other sound.member page
  rw [← sound.lsn]
  omega

/-- A sound version materializes to its entry's image, also while a checkpoint has already
copied the image into the main file.
-/
theorem BackedBy.materialize
    (backed : ledger.BackedBy version entry frame) {handle : WalHandle} {storage : Storage}
    (file : storage.wal = ledger.file) (reaches : version.lsn ≤ handle.walEndLsn)
    (direct : ledger.config.Chained → version.Direct)
    (indexed : ∀ other ∈ handle.index.versions entry.pageId, ledger.Backed entry.pageId other)
    (main : storage.main entry.pageId = ledger.settled entry.pageId
      ∨ storage.main entry.pageId = entry.image)
    : handle.materializeVersionLocked ledger.config storage entry.pageId version
      = .ok entry.image := by
  have ends := backed.ends
  have afterHeader := backed.afterHeader
  have nonzero := backed.pageId_ne_zero
  obtain ⟨lsn, payload⟩ := version
  cases payload with
  | resident data offset length encoding =>
    rw [materializeVersionLocked, materialize, backed.resident data offset length encoding rfl]
  | onDisk offset length encoding =>
    have decoded : WalFrame.decodeFromFileWithLen storage.wal offset length
      ledger.config.pageSize handle.walEndLsn = .ok (some frame) := by
      have length_eq : length = frame.encodedLen ledger.config.pageSize := backed.frameLen
      rw [file, length_eq]
      apply backed.stored.decodeFromFileWithLen ledger.config.supported
      rw [← length_eq]
      exact ends ▸ reaches
    have samePage : ¬frame.pageId ≠ entry.pageId := not_not.mpr backed.pageId
    have sameType : ¬frame.frameType ≠ encoding.frameType := not_not.mpr backed.frameType
    rw [materializeVersionLocked, materialize]
    simp only [latestSnapshot, decoded, ok_bind, samePage, sameType, if_false]
    cases encoding with
    | page =>
      have full : frame.payload = entry.image := backed.full rfl
      simp [full]
    | pageDelta =>
      have unchained : ¬ledger.config.Chained := by
        intro chained
        rcases direct chained with resident | full
        · cases resident
        · cases full
      have overMain := (backed.delta rfl).resolve_left unchained
      have entryLsn : entry.lsn = lsn := backed.lsn
      have positive : 0 < entry.lsn := by
        rw [entryLsn]
        have : walHeaderSize ≤ lsn := le_trans afterHeader (Nat.le.intro ends)
        exact lt_of_lt_of_le (by decide) this
      have noBase := overMain.latestVisible_eq_none indexed positive
      rw [entryLsn] at noBase
      simp only [noBase, Storage.readPageFromDisk, nonzero, if_false, ok_bind]
      rcases main with settled | copied
      · rw [settled, overMain.applies]
      · rw [copied, overMain.idempotent]

end Ledger

-- Slots

/-- The spilled and the indexed versions together. -/
def PageSlot.all (slot : PageSlot) : List WalVersion :=
  slot.record.toList.map SidecarRecord.version ++ slot.versions

/-- The LSN of the newest version depends on the LSNs only. -/
theorem newestAtOrBefore_map_lsn (versions : List WalVersion) (snapshotLsn : Nat)
    : (newestAtOrBefore versions snapshotLsn).map lsn
      = (versions.map lsn).reverse.find? (· ≤ snapshotLsn) := by
  rw [← map_reverse, find?_map]
  rfl

namespace Ledger

/-- A page's slot agrees with the ledger at every snapshot in use. With chained deltas the
visible versions have to be direct, since their bases may be gone.
-/
structure SlotSound (ledger : Ledger) (pageId : PageId) (slot : PageSlot) : Prop where
  disjoint : slot.versions ≠ [] → slot.record = none
  backed : ∀ version ∈ slot.all, ledger.Backed pageId version
  visible : ∀ snapshot ∈ ledger.snapshots,
    (newestAtOrBefore slot.all snapshot).map WalVersion.lsn
      = (lastEntry ledger.entries pageId snapshot).map LedgerEntry.lsn
  unspilled : ledger.config.Chained → slot.record = none
  direct : ledger.config.Chained → ∀ snapshot ∈ ledger.snapshots, ∀ version,
    newestAtOrBefore slot.versions snapshot = some version → version.Direct

namespace SlotSound

/-- A page with versions in the index has none in the sidecar that count. -/
theorem all_of_indexed (sound : ledger.SlotSound pageId slot) (indexed : slot.versions ≠ [])
    : slot.all = slot.versions := by
  rw [PageSlot.all, sound.disjoint indexed]
  rfl

variable (sound : ledger.SlotSound pageId slot) {moved : PageSlot}
include sound

/-- One move keeps the slot sound. -/
theorem move (step : PageMove ledger.config slot moved)
    : ledger.SlotSound pageId moved := by
  cases step with
  | spill version record hot =>
    have unchained : ¬ledger.config.Chained := by
      simp [WalConfig.Chained, canEncodeAgainstResidentWalBase, hot]
    have all := sound.all_of_indexed (by simp)
    refine ⟨by simp, ?_, ?_, fun chained => absurd chained unchained,
      fun chained => absurd chained unchained⟩
    · intro other member
      have only : other = version.demoted := by simpa [PageSlot.all] using member
      rw [only]
      exact (sound.backed version (by simp [all])).demoted
    · intro snapshot used
      rw [← sound.visible snapshot used, all, newestAtOrBefore_map_lsn, newestAtOrBefore_map_lsn]
      simp [PageSlot.all]
  | promote record =>
    have unchained : ¬ledger.config.Chained := by
      intro chained
      cases sound.unspilled chained
    refine ⟨by simp, ?_, ?_, fun chained => absurd chained unchained,
      fun chained => absurd chained unchained⟩
    · simpa [PageSlot.all] using sound.backed
    · simpa [PageSlot.all] using sound.visible
  | clear versions record indexed =>
    have all := sound.all_of_indexed indexed
    have backed := sound.backed
    have visible := sound.visible
    rw [all] at backed visible
    exact ⟨by simp, by simpa [PageSlot.all] using backed,
      by simpa [PageSlot.all] using visible, fun _ => rfl, sound.direct⟩

/-- Moves keep the slot sound. -/
theorem moves (steps : PageMoves ledger.config slot moved)
    : ledger.SlotSound pageId moved := by
  induction steps with
  | refl => exact sound
  | tail _ step ih => exact ih.move step

/-- Demoting versions keeps their LSNs and frames; whether the visible ones stay direct is
left to the caller.
-/
theorem demote {versions : List WalVersion}
    (demotes : List.Forall₂ (fun before after => after = before ∨ after = before.demoted)
      slot.versions versions)
    (direct : ledger.config.Chained → ∀ snapshot ∈ ledger.snapshots, ∀ version,
      newestAtOrBefore versions snapshot = some version → version.Direct)
    : ledger.SlotSound pageId { slot with versions } := by
  have lsns : slot.versions.map WalVersion.lsn = versions.map WalVersion.lsn :=
    demotes.map_eq fun before after related => by rcases related with rfl | rfl <;> rfl
  refine ⟨?_, ?_, ?_, sound.unspilled, direct⟩
  · intro indexed
    apply sound.disjoint
    intro none
    rw [none] at demotes
    cases demotes
    exact indexed rfl
  · intro version member
    rcases mem_append.mp member with spilled | indexed
    · exact sound.backed version (mem_append_left _ spilled)
    obtain ⟨before, old, related⟩ := demotes.flip.exists_of_mem indexed
    have backed := sound.backed before (mem_append_right _ old)
    rcases related with rfl | rfl
    · exact backed
    · exact backed.demoted
  · intro snapshot used
    rw [← sound.visible snapshot used, newestAtOrBefore_map_lsn, newestAtOrBefore_map_lsn]
    simp [PageSlot.all, lsns]

/-- Only which entries the snapshots in use see matters. -/
theorem of_snapshots {snapshots : List Nat}
    (same : ∀ snapshot ∈ snapshots, ∃ old ∈ ledger.snapshots,
      ∀ entry ∈ ledger.entries, entry.lsn ≤ snapshot ↔ entry.lsn ≤ old)
    : ({ ledger with snapshots }).SlotSound pageId slot := by
  have lsns : ∀ version ∈ slot.all, ∃ entry ∈ ledger.entries, entry.lsn = version.lsn := by
    intro version member
    obtain ⟨entry, _, _, backed⟩ := sound.backed version member
    exact ⟨entry, backed.member, backed.lsn⟩
  refine ⟨sound.disjoint, ?_, ?_, sound.unspilled, ?_⟩
  · intro version member
    obtain ⟨entry, frame, page, backed⟩ := sound.backed version member
    exact ⟨entry, frame, page, { backed with
      delta := fun delta => (backed.delta delta).imp id fun overMain => { overMain with } }⟩
  · intro snapshot used
    obtain ⟨old, present, sees⟩ := same snapshot used
    have versions : newestAtOrBefore slot.all snapshot = newestAtOrBefore slot.all old := by
      apply newestAtOrBefore_congr
      intro version member
      obtain ⟨entry, listed, lsn⟩ := lsns version member
      rw [← lsn]
      exact sees entry listed
    have same : lastEntry ledger.entries pageId old = lastEntry ledger.entries pageId snapshot :=
      find?_congr_of_mem fun entry member => by simp [sees entry (mem_reverse.mp member)]
    rw [versions, sound.visible old present, same]
  intro chained snapshot used version newest
  obtain ⟨old, present, sees⟩ := same snapshot used
  refine sound.direct chained old present version ?_
  rw [← newest]
  apply newestAtOrBefore_congr
  intro other member
  obtain ⟨entry, listed, lsn⟩ := lsns other (mem_append_right _ member)
  rw [← lsn]
  exact (sees entry listed).symm

/-- Writing past the frames leaves the slot sound. -/
theorem of_file {file : ByteFile} {walEnd : Nat}
    (bounded : ∀ entry ∈ ledger.entries, entry.lsn ≤ walEnd)
    (kept : ∀ offset frame, walHeaderSize ≤ offset
      → offset + frame.encodedLen ledger.config.pageSize ≤ walEnd
      → FrameAt ledger.file offset ledger.config.pageSize frame
      → FrameAt file offset ledger.config.pageSize frame)
    : ({ ledger with file }).SlotSound pageId slot :=
  {
    disjoint := sound.disjoint
    backed := fun version member => by
      obtain ⟨entry, frame, page, backed⟩ := sound.backed version member
      have inside : version.walOffset + frame.encodedLen ledger.config.pageSize ≤ walEnd := by
        rw [← backed.frameLen, backed.ends, ← backed.lsn]
        exact bounded entry backed.member
      exact ⟨entry, frame, page, { backed with
        stored := kept _ _ backed.afterHeader inside backed.stored
        delta := fun delta => (backed.delta delta).imp id fun overMain => { overMain with } }⟩
    visible := sound.visible
    unspilled := sound.unspilled
    direct := sound.direct
  }

end SlotSound

-- New entries

/-- The ledger with one more entry. -/
def addEntry (ledger : Ledger) (entry : LedgerEntry) : Ledger :=
  { ledger with entries := ledger.entries ++ [entry] }

section AddEntry

/-- A newer entry does not change what backs a version. -/
theorem Backed.addEntry (backed : ledger.Backed pageId version)
    (newer : ∀ other ∈ ledger.entries, other.lsn < entry.lsn)
    : (ledger.addEntry entry).Backed pageId version := by
  obtain ⟨old, frame, page, sound⟩ := backed
  refine ⟨old, frame, page, { sound with
    member := mem_append_left _ sound.member
    delta := fun delta => (sound.delta delta).imp id fun overMain =>
      { overMain with first := fun other member same => ?_ } }⟩
  rcases mem_append.mp member with listed | added
  · exact overMain.first other listed same
  · rw [mem_singleton.mp added]
    exact le_of_lt (newer old sound.member)

variable (sound : ledger.SlotSound pageId slot)
include sound

/-- An entry of another page. -/
theorem SlotSound.addOther
    (newer : ∀ other ∈ ledger.entries, other.lsn < entry.lsn) (different : entry.pageId ≠ pageId)
    : (ledger.addEntry entry).SlotSound pageId slot := by
  refine { sound with
    backed := fun version member => (sound.backed version member).addEntry newer, visible := ?_ }
  intro snapshot used
  have absent : lastEntry [entry] pageId snapshot = none := by simp [lastEntry, different]
  rw [sound.visible snapshot used, Ledger.addEntry, lastEntry_append, absent, Option.none_or]

/-- An entry of the page itself, with its version: the older versions are kept for the
snapshots that do not see it.
-/
theorem SlotSound.addVersion (unspilled : slot.record = none) (page : entry.pageId = pageId)
    (newer : ∀ other ∈ ledger.entries, other.lsn < entry.lsn)
    (backed : (ledger.addEntry entry).Backed pageId version) (lsn : version.lsn = entry.lsn)
    (direct : version.Direct) {retainHistory : Bool}
    (retained : retainHistory ∨ ∀ snapshot ∈ ledger.snapshots, entry.lsn ≤ snapshot)
    : (ledger.addEntry entry).SlotSound pageId { slot with
      versions := if retainHistory then slot.versions ++ [version] else [version] } := by
  obtain ⟨versions, record⟩ := slot
  subst unspilled
  have all : ∀ versions, all ⟨versions, none⟩ = versions := fun _ => rfl
  have oldVisible := sound.visible
  rw [all] at oldVisible
  -- The newest version is the new one or, below it, the one it was before.
  have newest : ∀ snapshot ∈ ledger.snapshots, newestAtOrBefore
      (if retainHistory then versions ++ [version] else [version]) snapshot
      = if entry.lsn ≤ snapshot then some version
        else newestAtOrBefore versions snapshot := by
    intro snapshot used
    have alone : newestAtOrBefore [version] snapshot
      = if entry.lsn ≤ snapshot then some version else none := by
      simp [newestAtOrBefore, lsn]
    rcases retained with retains | seen
    · rw [if_pos retains, newestAtOrBefore_append, alone]
      split
      · rfl
      · rfl
    rw [if_pos (seen snapshot used)]
    split
    · rw [newestAtOrBefore_append, alone, if_pos (seen snapshot used)]
      rfl
    · rw [alone, if_pos (seen snapshot used)]
  refine ⟨fun _ => rfl, ?_, ?_, fun _ => rfl, ?_⟩
  · intro other member
    rw [all] at member
    split at member
    · rcases mem_append.mp member with old | added
      · exact (sound.backed other old).addEntry newer
      · exact mem_singleton.mp added ▸ backed
    · exact mem_singleton.mp member ▸ backed
  · intro snapshot used
    have last : lastEntry [entry] pageId snapshot
      = if entry.lsn ≤ snapshot then some entry else none := by
      simp [lastEntry, page]
    rw [all, newest snapshot used, Ledger.addEntry, lastEntry_append, last]
    split
    · simp [lsn]
    · rw [oldVisible snapshot used, Option.none_or]
  intro chained snapshot used other found
  rw [newest snapshot used] at found
  split at found
  · exact Option.some.inj found ▸ direct
  · exact sound.direct chained snapshot used other found

end AddEntry

end Ledger

end DecentDb.Wal
