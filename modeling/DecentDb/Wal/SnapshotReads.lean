import DecentDb.Wal.HotSet
import DecentDb.Wal.System
import DecentDb.Wal.VersionSoundness
import Mathlib.Data.List.Pairwise

/-! A state whose slots agree with a ledger of its commits, and that a registered reader
then reads what the commits up to its snapshot wrote.
-/

namespace DecentDb.Wal

open List Option WalHandle WalIndex

namespace WalState

/-- The snapshots that reads are made at: the readers' own and, for lookups, the end. -/
def snapshots (state : WalState) : List Nat :=
  state.handle.walEndLsn :: state.handle.readerRegistry.readers.map ReaderInfo.snapshotLsn

def ledger (config : WalConfig) (state : WalState) (entries : List LedgerEntry) : Ledger :=
  {
    config
    file := state.storage.wal
    settled := state.spec.settled
    entries
    snapshots := state.snapshots
  }

/-- The entries are the commits of the current generation, and the versions in the index and
the sidecar stand for them.
-/
structure Tracks (config : WalConfig) (state : WalState) (entries : List LedgerEntry)
    : Prop where
  slots : ∀ pageId, (state.ledger config entries).SlotSound pageId (state.handle.slot pageId)
  queued : state.handle.index.WellQueued
  describes : Describes entries state.spec
  ascending : entries.Pairwise (·.lsn < ·.lsn)
  within : ∀ entry ∈ entries, entry.lsn < entry.commitLsn ∧ entry.commitLsn ≤ state.handle.walEndLsn
  aligned : ∀ snapshot ∈ state.snapshots, ∀ entry ∈ entries,
    entry.commitLsn ≤ snapshot ↔ entry.lsn ≤ snapshot
  below : ∀ snapshot ∈ state.snapshots, snapshot ≤ state.handle.walEndLsn
  started : state.handle.walEndLsn = 0 ∨ walHeaderSize ≤ state.handle.walEndLsn
  images : ∀ entry ∈ entries, entry.image.length = config.pageSize
  settledPages : ∀ pageId, (state.spec.settled pageId).length = config.pageSize

end WalState

-- Visible versions

variable {entries : List LedgerEntry} {pageId : PageId} {version : WalVersion} {ledger : Ledger}
  {handle other : WalHandle} {config : WalConfig} {state : WalState} {snapshotLsn snapshot : Nat}
  {slot : PageSlot}

/-- Entries of one ledger with the same LSN are the same. -/
theorem eq_of_lsn_eq (ascending : entries.Pairwise (·.lsn < ·.lsn))
    {left right : LedgerEntry} (leftMember : left ∈ entries) (rightMember : right ∈ entries)
    (same : left.lsn = right.lsn) : left = right := by
  by_contra different
  have apart : entries.Pairwise fun first second => first.lsn ≠ second.lsn :=
    ascending.imp ne_of_lt
  have : Std.Symm fun first second : LedgerEntry => first.lsn ≠ second.lsn := ⟨fun _ _ => Ne.symm⟩
  exact apart.forall leftMember rightMember different same

namespace Ledger.SlotSound

/-- The visible version stands for the newest entry. -/
theorem lastEntry_eq (sound : ledger.SlotSound pageId slot)
    (ascending : ledger.entries.Pairwise (·.lsn < ·.lsn)) (used : snapshot ∈ ledger.snapshots)
    (newest : newestAtOrBefore slot.all snapshot = some version)
    : ∃ entry frame, lastEntry ledger.entries pageId snapshot = some entry
      ∧ entry.pageId = pageId ∧ ledger.BackedBy version entry frame := by
  have visible := sound.visible snapshot used
  rw [newest, map_some] at visible
  obtain ⟨last, found, lastLsn⟩ := map_eq_some_iff.mp visible.symm
  have listed := mem_reverse.mp (mem_of_find?_eq_some newest)
  obtain ⟨entry, frame, page, backed⟩ := sound.backed version listed
  have same : entry = last := eq_of_lsn_eq ascending backed.member (lastEntry_spec found).1
    (backed.lsn.trans lastLsn.symm)
  exact ⟨entry, frame, same ▸ found, page, backed⟩

/-- If no version is visible, no commit has written the page. -/
theorem lastEntry_eq_none (sound : ledger.SlotSound pageId slot)
    (used : snapshot ∈ ledger.snapshots) (newest : newestAtOrBefore slot.all snapshot = none)
    : lastEntry ledger.entries pageId snapshot = none := by
  have visible := sound.visible snapshot used
  rw [newest, map_none] at visible
  exact map_eq_none_iff.mp visible.symm

end Ledger.SlotSound

-- Promotion

namespace WalHandle

/-- Without a record at or below the snapshot there is nothing to promote. -/
theorem promoteSpilledLatestLocked_of_no_record
    (unseen : ∀ record, handle.sidecarRecord pageId = some record → snapshotLsn < record.lsn)
    : handle.promoteSpilledLatestLocked config pageId snapshotLsn = (handle, .ok ()) := by
  unfold promoteSpilledLatestLocked
  split
  · rfl
  next sidecar present =>
    split
    · rfl
    split
    · rfl
    next version found =>
      obtain ⟨_, record, stored, rfl⟩ := readLatest_eq_some found
      have later := unseen record (by rw [sidecarRecord, present, bind_some, stored])
      exact if_pos later

/-- Spilling fails only for page 0. -/
theorem spillExcess_ok (hotSetPages turns : Nat) {index : WalIndex} (sidecar : WalIndexSidecar)
    (noZero : index.versions 0 = [])
    : (spillExcess hotSetPages turns index sidecar).2.2 = .ok () := by
  induction turns generalizing index sidecar with
  | zero => rfl
  | succ turns ih =>
    have took := spillFrom_spilledOne hotSetPages index index.accessOrder
    unfold spillExcess spillOneColdLatest
    generalize index.spillFrom hotSetPages index.accessOrder = result at took
    cases took with
    | none same => rfl
    | @some left gone version single erased =>
      have nonzero : gone ≠ 0 := by
        rintro rfl
        rw [noZero] at single
        cases single
      dsimp only
      rw [WalIndexSidecar.writeLatest, if_neg nonzero]
      apply ih
      rw [index.versions_of_erase gone 0 erased, noZero, ite_self]

/-- A promotion does not fail. -/
theorem promoteSpilledLatestLocked_ok (noZero : handle.index.versions 0 = [])
    : (handle.promoteSpilledLatestLocked config pageId snapshotLsn).2 = .ok () := by
  unfold promoteSpilledLatestLocked
  split
  · rfl
  split
  · rfl
  split
  · rfl
  next version found =>
    split
    · rfl
    split
    · obtain ⟨nonzero, _⟩ := readLatest_eq_some found
      unfold spillExcessHotPagesLocked
      split
      · rfl
      · apply spillExcess_ok
        rw [seedLatest, versions_store, if_neg nonzero, noZero]
    · rfl

end WalHandle

-- Reading

/-- What the index shows of a page is what index and sidecar show together. -/
def WalHandle.Shown (handle : WalHandle) (pageId : PageId) (snapshot : Nat) : Prop :=
  handle.index.latestVisible pageId snapshot
    = WalIndex.newestAtOrBefore (handle.slot pageId).all snapshot

/-- What is shown depends on the slot of the page only. -/
theorem WalHandle.Shown.of_slot {snapshot : Nat}
    (shown : handle.Shown pageId snapshot) (same : other.slot pageId = handle.slot pageId)
    : other.Shown pageId snapshot := by
  have versions : other.index.versions pageId = handle.index.versions pageId :=
    congrArg PageSlot.versions same
  rw [Shown, latestVisible, versions, same]
  exact shown

/-- A page with versions in the index is shown from there. -/
theorem Ledger.SlotSound.shown (sound : ledger.SlotSound pageId (handle.slot pageId))
    (indexed : handle.index.versions pageId ≠ []) (snapshot : Nat)
    : handle.Shown pageId snapshot := by
  rw [Shown, sound.all_of_indexed indexed]
  rfl

/-- After a promotion that stays, the index shows the page. -/
theorem Ledger.shown_of_promote (slots : ∀ pageId, ledger.SlotSound pageId (handle.slot pageId))
    (queued : handle.index.WellQueued) {snapshot : Nat} (nonzero : pageId ≠ 0)
    (stays : 0 < handle.readerRegistry.activeReaderCount
      ∨ handle.index.multiVersionPages.card < ledger.config.walIndexHotSetPages
      ∨ handle.sidecarRecord pageId = none)
    (hidden : handle.index.latestVisible pageId snapshot = none)
    : (handle.promoteSpilledLatestLocked ledger.config pageId snapshot).1.Shown pageId snapshot := by
  by_cases indexed : handle.index.versions pageId = []
  · by_cases seen : ∃ record, handle.sidecarRecord pageId = some record ∧ record.lsn ≤ snapshot
    · obtain ⟨record, spilled, visible⟩ := seen
      have kept : (handle.promoteSpilledLatestLocked ledger.config pageId snapshot).1.index.versions pageId
        = [record.version] := by
        apply promoteSpilledLatestLocked_keeps ledger.config nonzero queued indexed spilled visible
        rcases stays with readers | room | unspilled
        · exact .inl readers
        · exact .inr room
        · rw [unspilled] at spilled
          cases spilled
      have sound := (slots pageId).moves
        (handle.promoteSpilledLatestLocked_moved ledger.config pageId snapshot pageId)
      exact sound.shown (by simp [kept]) snapshot
    -- Nothing is promoted, and a record that is there lies past the snapshot.
    have unseen : ∀ record, handle.sidecarRecord pageId = some record
      → snapshot < record.lsn := fun record spilled =>
      lt_of_not_ge fun visible => seen ⟨record, spilled, visible⟩
    rw [promoteSpilledLatestLocked_of_no_record unseen, Shown, hidden]
    symm
    apply newestAtOrBefore_eq_none_of_lt
    intro version member
    rcases mem_append.mp member with spilled | still
    · obtain ⟨record, present, rfl⟩ := mem_map.mp spilled
      exact unseen record (mem_toList.mp present)
    · rw [slot, indexed] at still
      cases still
  · have unspilled : handle.sidecarRecord pageId = none := (slots pageId).disjoint indexed
    rw [promoteSpilledLatestLocked_of_no_record (by simp [unspilled])]
    exact (slots pageId).shown indexed snapshot

namespace WalState.Tracks

variable (tracks : state.Tracks config entries) {entry : LedgerEntry} {storage : Storage}
include tracks

/-- Page 0 has no versions. -/
theorem noZero : state.handle.index.versions 0 = [] := by
  by_contra indexed
  obtain ⟨version, rest, shape⟩ := exists_cons_of_ne_nil indexed
  obtain ⟨entry, frame, page, backed⟩ := (tracks.slots 0).backed version
    (mem_append_right _ (by rw [slot, shape]; simp))
  exact backed.pageId_ne_zero page

/-- No entry lies behind the end of the log. -/
theorem lsn_le_walEnd (member : entry ∈ entries)
    : entry.lsn ≤ state.handle.walEndLsn := by
  have := tracks.within entry member
  omega

/-- Other slots and another file, with the same end and readers. -/
theorem of_slots (walEnd : handle.walEndLsn = state.handle.walEndLsn)
    (readers : handle.readerRegistry = state.handle.readerRegistry)
    (queued : handle.index.WellQueued)
    (slots : ∀ pageId, ({ state.ledger config entries with file := storage.wal }).SlotSound pageId
      (handle.slot pageId))
    : ({ state with handle, storage }).Tracks config entries := by
  have snapshots : ({ state with handle, storage } : WalState).snapshots = state.snapshots := by
    simp only [WalState.snapshots, walEnd, readers]
  refine ⟨?_, queued, tracks.describes, tracks.ascending, ?_, ?_, ?_, ?_, tracks.images,
    tracks.settledPages⟩
  · rw [ledger, snapshots]
    exact slots
  · rw [walEnd]
    exact tracks.within
  · rw [snapshots]
    exact tracks.aligned
  · rw [snapshots, walEnd]
    exact tracks.below
  · rw [walEnd]
    exact tracks.started

/-- Moving versions between the index and the sidecar. -/
theorem of_cache (moved : Moved config state.handle handle)
    (cache : CacheOnly state.handle handle) (queued : handle.index.WellQueued)
    : ({ state with handle }).Tracks config entries :=
  tracks.of_slots cache.walEndLsn cache.readerRegistry queued fun pageId =>
    (tracks.slots pageId).moves (moved pageId)

/-- New readers that read at snapshots in use, or fewer readers. -/
theorem of_readers {readerRegistry : ReaderRegistry}
    (known : ∀ reader ∈ readerRegistry.readers, reader.snapshotLsn ∈ state.snapshots)
    : ({ state with handle := { state.handle with readerRegistry } }).Tracks config entries := by
  have used : ∀ snapshot ∈ state.handle.walEndLsn
    :: readerRegistry.readers.map ReaderInfo.snapshotLsn, snapshot ∈ state.snapshots := by
    intro snapshot member
    rcases mem_cons.mp member with rfl | reader
    · exact mem_cons_self
    · obtain ⟨info, registered, rfl⟩ := mem_map.mp reader
      exact known info registered
  exact { tracks with
    slots := fun pageId => (tracks.slots pageId).of_snapshots fun snapshot member =>
      ⟨snapshot, used snapshot member, fun _ _ => .rfl⟩
    aligned := fun snapshot member => tracks.aligned snapshot (used snapshot member)
    below := fun snapshot member => tracks.below snapshot (used snapshot member) }

/-- A change of the file that keeps the frames below the end. -/
theorem of_file (control : SameControl state.handle handle)
    (index : handle.index = state.handle.index)
    (indexSidecar : handle.indexSidecar = state.handle.indexSidecar)
    (kept : ∀ offset frame, walHeaderSize ≤ offset
      → offset + frame.encodedLen config.pageSize ≤ state.handle.walEndLsn
      → FrameAt state.storage.wal offset config.pageSize frame
      → FrameAt storage.wal offset config.pageSize frame)
    : ({ state with handle, storage }).Tracks config entries := by
  refine tracks.of_slots control.walEndLsn control.readerRegistry (index ▸ tracks.queued) ?_
  intro pageId
  have slots : handle.slot pageId = state.handle.slot pageId := by
    simp only [slot, sidecarRecord, index, indexSidecar]
  rw [slots]
  exact (tracks.slots pageId).of_file (fun _ => tracks.lsn_le_walEnd) kept

section

variable (sound : (state.ledger config entries).SlotSound pageId (handle.slot pageId))
  (walEnd : handle.walEndLsn = state.handle.walEndLsn)
include sound walEnd

/-- A sound version in any handle that differs by moves only materializes to its image. -/
theorem materialize {frame : WalFrame}
    (page : entry.pageId = pageId)
    (backed : (state.ledger config entries).BackedBy version entry frame)
    (direct : config.Chained → version.Direct)
    (main : state.storage.main pageId = state.spec.settled pageId
      ∨ state.storage.main pageId = entry.image)
    : handle.materializeVersionLocked config state.storage pageId version = .ok entry.image := by
  subst page
  refine backed.materialize rfl ?_ direct ?_ main
  · rw [walEnd, ← backed.lsn]
    exact tracks.lsn_le_walEnd backed.member
  · exact fun other member => sound.backed other (mem_append_right _ member)

/-- What a handle shows at a snapshot in use is the ledger's value, and the main file's page
if it shows nothing.
-/
theorem materializeLatestVisible {snapshot : Nat} (used : snapshot ∈ state.snapshots)
    (shown : handle.Shown pageId snapshot)
    (main : state.storage.main pageId = state.spec.settled pageId)
    : ∃ page, handle.materializeLatestVisibleLocked config state.storage pageId snapshot = .ok page
      ∧ page.getD (state.storage.main pageId) = state.spec.valueAt pageId snapshot := by
  have value := tracks.describes.valueAt pageId (tracks.aligned snapshot used)
  unfold materializeLatestVisibleLocked
  cases newest : handle.index.latestVisible pageId snapshot with
  | none =>
    refine ⟨none, rfl, ?_⟩
    have nothing := sound.lastEntry_eq_none used (shown ▸ newest)
    rw [value, main]
    simp only [ledger] at nothing
    simp [nothing]
  | some version =>
    obtain ⟨entry, frame, last, page, backed⟩ :=
      sound.lastEntry_eq tracks.ascending used (shown ▸ newest)
    have materialized := tracks.materialize sound walEnd page backed
      (fun chained => sound.direct chained snapshot used version newest) (.inl main)
    refine ⟨some entry.image, ?_, ?_⟩
    · simp only [materialized, ok_bind]
      rfl
    · simp only [ledger] at last
      rw [value, last]
      rfl

end

/-- A registered reader reads the value of its snapshot. -/
theorem readPage (main : ∀ pageId, state.storage.main pageId = state.spec.settled pageId)
    {reader : ReaderInfo} (registered : reader ∈ state.handle.readerRegistry.readers)
    (nonzero : pageId ≠ 0)
    : state.handle.readPage config state.storage pageId reader.snapshotLsn
      = .ok (state.spec.valueAt pageId reader.snapshotLsn) := by
  have used : reader.snapshotLsn ∈ state.snapshots :=
    mem_cons_of_mem _ (mem_map_of_mem registered)
  have readers : 0 < state.handle.readerRegistry.activeReaderCount :=
    length_pos_of_mem registered
  have outcome : (state.handle.promoteIfNotVisible config pageId reader.snapshotLsn).2
    = .ok () := by
    unfold WalHandle.promoteIfNotVisible
    split
    · exact WalHandle.promoteSpilledLatestLocked_ok tracks.noZero
    · rfl
  have shown : (state.handle.promoteIfNotVisible config pageId reader.snapshotLsn).1.Shown pageId
    reader.snapshotLsn := by
    unfold WalHandle.promoteIfNotVisible
    split
    next hidden =>
      exact Ledger.shown_of_promote tracks.slots tracks.queued nonzero (.inl readers)
        (by simpa using hidden)
    next visible =>
      apply (tracks.slots pageId).shown
      intro none
      rw [WalIndex.latestVisible, none] at visible
      exact visible rfl
  have moved := state.handle.promoteIfNotVisible_moved config pageId reader.snapshotLsn
  have control := state.handle.promoteIfNotVisible_cacheOnly config pageId reader.snapshotLsn
  unfold WalHandle.readPage WalHandle.readPageAtSnapshot
  generalize state.handle.promoteIfNotVisible config pageId reader.snapshotLsn = result at *
  obtain ⟨promoted, done⟩ := result
  subst outcome
  dsimp only
  -- Touching the page changes neither its versions nor the end.
  have touched := promoted.slot_touchIfVisible pageId pageId reader.snapshotLsn
  have sound : (state.ledger config entries).SlotSound pageId
    ((promoted.touchIfVisible pageId reader.snapshotLsn).slot pageId) := by
    rw [touched]
    exact (tracks.slots pageId).moves (moved pageId)
  have walEnd := (control.trans
    (promoted.touchIfVisible_cacheOnly pageId reader.snapshotLsn)).walEndLsn
  obtain ⟨page, read, value⟩ := tracks.materializeLatestVisible sound walEnd used
    (shown.of_slot touched) (main pageId)
  rw [read]
  cases page with
  | none =>
    rw [← value]
    simp [Storage.readPageFromDisk, nonzero]
  | some image => rw [← value, getD_some]

end WalState.Tracks

end DecentDb.Wal
