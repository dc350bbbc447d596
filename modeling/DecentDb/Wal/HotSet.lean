import DecentDb.Wal.Slots

/-! The access queue: every page with a single version can be reached by spilling, so a page
that was just promoted is spilled again only if the pages with several versions fill the
hot set.
-/

namespace DecentDb.Wal

open List Option WalIndex

open WalIndex (seedLatest store versions_store)

variable {index left : WalIndex} {pageId other : PageId} {hotSetPages epoch snapshotLsn : Nat}
  {handle : WalHandle} {pages : Std.ExtTreeMap PageId (List WalVersion)}
  {rest order : List (PageId × Nat)} {epochs : Std.ExtTreeMap PageId Nat}

namespace WalIndex

/-- The pages with several versions, which are never spilled. -/
def multiVersionPages (index : WalIndex) : Finset PageId :=
  (index.pages.keys.filter fun pageId => 1 < (index.versions pageId).length).toFinset

/-- The pages that are counted against the hot set. -/
theorem mem_multiVersionPages
    : pageId ∈ index.multiVersionPages ↔ 1 < (index.versions pageId).length := by
  simp only [multiVersionPages, List.mem_toFinset, List.mem_filter, Std.ExtTreeMap.mem_keys,
    decide_eq_true_eq, and_iff_right_iff_imp]
  intro several
  by_contra missing
  simp [versions, missing] at several

/-- They depend on the number of versions only. -/
theorem multiVersionPages_congr
    (same : ∀ pageId, 1 < (left.versions pageId).length ↔ 1 < (index.versions pageId).length)
    : left.multiVersionPages = index.multiVersionPages := by
  ext pageId
  rw [mem_multiVersionPages, mem_multiVersionPages, same]

/-- The index has no more pages than any set that holds their ids. -/
theorem size_le_card {pages : Finset PageId}
    (covered : ∀ pageId : PageId, index.pages[pageId]?.isSome → pageId ∈ pages)
    : index.pages.size ≤ pages.card := by
  rw [← Std.ExtTreeMap.length_keys]
  have distinct : index.pages.keys.Nodup := by
    have := index.pages.distinct_keys
    simpa [Nodup] using this
  rw [← toFinset_card_of_nodup distinct]
  apply Finset.card_le_card
  intro pageId member
  apply covered
  rw [← Std.ExtTreeMap.mem_iff_isSome_getElem?]
  exact Std.ExtTreeMap.mem_keys.mp (List.mem_toFinset.mp member)

-- Live entries

/-- Every page with a single version has its live entry in the queue. -/
structure Queued (index : WalIndex) (order : List (PageId × Nat)) : Prop where
  nonempty : ∀ pageId : PageId, index.pages[pageId]? ≠ some []
  live : ∀ (pageId : PageId) (version : WalVersion), index.pages[pageId]? = some [version]
    → ∃ epoch, index.pageTouchEpochs[pageId]? = some epoch ∧ (pageId, epoch) ∈ order
  bounded : ∀ entry ∈ order, entry.2 ≤ index.nextTouchEpoch

/-- The queue invariant of the index itself. -/
abbrev WellQueued (index : WalIndex) : Prop := index.Queued index.accessOrder

/-- An empty index has an empty queue. -/
theorem wellQueued_empty : empty.WellQueued where
  nonempty := by simp [empty]
  live := by simp [empty]
  bounded := by simp [empty]

section

variable (queued : index.WellQueued)
include queued

/-- Changes that keep the queue and the number of versions of each page. -/
theorem WellQueued.of_lengths (order : left.accessOrder = index.accessOrder)
    (epochs : left.pageTouchEpochs = index.pageTouchEpochs)
    (next : left.nextTouchEpoch = index.nextTouchEpoch)
    (lengths : ∀ pageId : PageId, left.pages[pageId]?.map length = index.pages[pageId]?.map length)
    : left.WellQueued := by
  have transfer : ∀ (pageId : PageId) (versions : List WalVersion), left.pages[pageId]? = some versions
    → ∃ old, index.pages[pageId]? = some old ∧ old.length = versions.length := by
    intro pageId versions stored
    have same := lengths pageId
    rw [stored, map_some] at same
    exact map_eq_some_iff.mp same.symm
  refine ⟨?_, ?_, ?_⟩
  · intro pageId stored
    obtain ⟨old, before, length⟩ := transfer pageId [] stored
    exact queued.nonempty pageId (eq_nil_of_length_eq_zero length ▸ before)
  · intro pageId version stored
    obtain ⟨old, before, length⟩ := transfer pageId [version] stored
    obtain ⟨single, rfl⟩ := length_eq_one_iff.mp length
    rw [order, epochs]
    exact queued.live pageId single before
  · rw [order, next]
    exact queued.bounded

/-- A touched page's old entries do not matter, so its versions may be new. -/
theorem WellQueued.touch_changed (nonempty : pages[pageId]? ≠ some [])
    (elsewhere : ∀ other, pageId ≠ other → pages[other]? = index.pages[other]?)
    : ({ index with pages }.touch pageId).WellQueued := by
  refine ⟨?_, ?_, ?_⟩
  · intro other stored
    by_cases same : pageId = other
    · subst same
      exact nonempty stored
    · exact queued.nonempty other ((elsewhere other same).symm.trans stored)
  · intro other version stored
    by_cases same : pageId = other
    · subst same
      exact ⟨index.nextTouchEpoch + 1, by simp [touch], by simp [touch]⟩
    obtain ⟨epoch, current, queuedEntry⟩ :=
      queued.live other version ((elsewhere other same).symm.trans stored)
    refine ⟨epoch, ?_, mem_append_left _ queuedEntry⟩
    simpa [touch, Std.ExtTreeMap.getElem?_insert, same] using current
  intro entry member
  rcases mem_append.mp member with old | new
  · exact Nat.le_succ_of_le (queued.bounded entry old)
  · rw [mem_singleton.mp new]
    exact le_rfl

/-- A touched page is queued anew. -/
theorem WellQueued.touch (pageId : PageId) : (index.touch pageId).WellQueued :=
  queued.touch_changed (queued.nonempty pageId) fun _ _ => rfl

/-- Marking a page keeps the queue. -/
theorem WellQueued.markDirtySinceDemote (pageId : PageId)
    : (index.markDirtySinceDemote pageId).WellQueued := by
  unfold WalIndex.markDirtySinceDemote
  split
  · exact queued
  · exact { queued with }

/-- A page that gets versions is queued. -/
theorem WellQueued.store (pageId : PageId) {versions : List WalVersion} (some : versions ≠ [])
    : (index.store pageId versions).WellQueued := by
  apply markDirtySinceDemote
  refine queued.touch_changed (by simpa using some) fun other different => ?_
  simp [Std.ExtTreeMap.getElem?_insert, different]

/-- A page that gets a version is queued. -/
theorem WellQueued.addVersion (pageId : PageId) (version : WalVersion) (retainHistory : Bool)
    : (index.addVersion pageId version retainHistory).WellQueued := by
  apply queued.store
  split <;> simp

/-- A page that is promoted is queued. -/
theorem WellQueued.seedLatest (pageId : PageId) (version : WalVersion)
    : (index.seedLatest pageId version).WellQueued :=
  queued.store pageId (by simp)

/-- A page without versions is not in the index. -/
theorem WellQueued.containsPage (absent : index.versions pageId = [])
    : index.containsPage pageId = false := by
  rw [WalIndex.containsPage, Std.ExtTreeMap.contains_eq_isSome_getElem?]
  cases stored : index.pages[pageId]? with
  | none => rfl
  | some versions =>
    rw [WalIndex.versions, stored, getD_some] at absent
    exact absurd (absent ▸ stored) (queued.nonempty pageId)

end

section

/-- A page with a single version has its live entry in the queue. -/
def LiveIn (pages : Std.ExtTreeMap PageId (List WalVersion)) (epochs : Std.ExtTreeMap PageId Nat)
    (order : List (PageId × Nat)) (pageId : PageId) : Prop :=
  ∀ version, pages[pageId]? = some [version]
    → ∃ epoch, epochs[pageId]? = some epoch ∧ (pageId, epoch) ∈ order

variable (live : LiveIn pages epochs ((pageId, epoch) :: rest) other)
include live

/-- An entry that is dropped without effect was not the one that counts. -/
theorem LiveIn.pop
    (idle : ∀ version, epochs[pageId]? = some epoch → pages[pageId]? ≠ some [version])
    : LiveIn pages epochs rest other := by
  intro version stored
  obtain ⟨current, found, member⟩ := live version stored
  refine ⟨current, found, ?_⟩
  rcases mem_cons.mp member with same | later
  · obtain ⟨rfl, rfl⟩ := Prod.mk.inj same
    exact absurd stored (idle version found)
  · exact later

/-- Other pages stay queued when one is erased. -/
theorem LiveIn.erase : LiveIn (pages.erase pageId) (epochs.erase pageId) rest other := by
  intro version stored
  by_cases same : pageId = other
  · simp [same] at stored
  simp only [Std.ExtTreeMap.getElem?_erase, Std.compare_eq_iff_eq, same, if_false] at stored ⊢
  obtain ⟨current, found, member⟩ := live version stored
  refine ⟨current, found, (mem_cons.mp member).resolve_left fun first => ?_⟩
  exact same (Prod.mk.inj first).1.symm

end

/-- An entry that is dropped from the queue belongs to no page with a single version. -/
theorem Queued.pop (queued : index.Queued ((pageId, epoch) :: rest))
    (idle : ∀ version, index.pageTouchEpochs[pageId]? = some epoch
      → index.pages[pageId]? ≠ some [version])
    : index.Queued rest :=
  ⟨queued.nonempty, fun other => LiveIn.pop (queued.live other) idle,
    fun entry member => queued.bounded entry (by simp [member])⟩

/-- Spilling from the front of the queue keeps the rest queued. -/
theorem Queued.spillFrom (queued : index.Queued order) (hotSetPages : Nat)
    : (index.spillFrom hotSetPages order).1.WellQueued := by
  induction order with
  | nil => exact { queued with }
  | cons entry rest ih =>
    obtain ⟨pageId, epoch⟩ := entry
    unfold WalIndex.spillFrom
    split
    · exact { queued with }
    split
    next stale => exact ih (queued.pop fun version live => absurd live stale)
    next live =>
      split
      next version single =>
        refine ⟨fun other stored => queued.nonempty other ?_,
          fun other => LiveIn.erase (queued.live other),
          fun entry member => queued.bounded entry (by simp [member])⟩
        by_cases same : pageId = other
        · simp [same] at stored
        · simpa [Std.ExtTreeMap.getElem?_erase, same] using stored
      next several => exact ih (queued.pop fun version _ single => several version single)

-- The page at the end of the queue

/-- The page has a single version whose live entry is the last one, every other page with a
single version stands before it, and the pages with several leave room in the hot set.
-/
structure LastQueued (index : WalIndex) (pageId : PageId) (hotSetPages : Nat)
    (order : List (PageId × Nat)) : Prop where
  nonempty : ∀ other : PageId, index.pages[other]? ≠ some []
  single : (index.versions pageId).length = 1
  last : ∃ earlier epoch, order = earlier ++ [(pageId, epoch)]
    ∧ (∀ entry ∈ earlier, index.pageTouchEpochs[entry.1]? = some entry.2 → entry.1 ≠ pageId)
    ∧ ∀ (other : PageId) (version : WalVersion), other ≠ pageId
      → index.pages[other]? = some [version]
      → ∃ current, index.pageTouchEpochs[other]? = some current ∧ (other, current) ∈ earlier
  room : index.multiVersionPages.card < hotSetPages

/-- With nobody before it in the queue, the index fits the hot set. -/
theorem LastQueued.size_le (nonempty : ∀ other : PageId, index.pages[other]? ≠ some [])
    (alone : ∀ (other : PageId) (version : WalVersion), other ≠ pageId
      → index.pages[other]? ≠ some [version]) (room : index.multiVersionPages.card < hotSetPages)
    : index.pages.size ≤ hotSetPages := by
  have bound : index.pages.size ≤ (insert pageId index.multiVersionPages).card := by
    apply size_le_card
    intro other present
    by_cases same : other = pageId
    · exact Finset.mem_insert.mpr (.inl same)
    apply Finset.mem_insert_of_mem
    rw [mem_multiVersionPages]
    obtain ⟨versions, stored⟩ := isSome_iff_exists.mp present
    rw [WalIndex.versions, stored, getD_some]
    rcases versions with _ | ⟨version, _ | ⟨next, rest⟩⟩
    · exact absurd stored (nonempty other)
    · exact absurd stored (alone other version same)
    · simp
  have grown := Finset.card_insert_le pageId index.multiVersionPages
  omega

/-- Spilling one page does not take the last one, by induction on those before it. -/
theorem LastQueued.spillFrom (queued : index.LastQueued pageId hotSetPages order)
    : (index.spillFrom hotSetPages order).1.LastQueued pageId hotSetPages
        (index.spillFrom hotSetPages order).1.accessOrder
      ∧ (index.spillFrom hotSetPages order).1.versions pageId = index.versions pageId := by
  obtain ⟨nonempty, single, ⟨earlier, epoch, rfl, distinct, others⟩, room⟩ := queued
  induction earlier with
  | nil =>
    have fits := LastQueued.size_le nonempty (fun other version different stored => by
        obtain ⟨_, _, member⟩ := others other version different stored
        cases member)
      room
    rw [nil_append, WalIndex.spillFrom, if_pos fits]
    exact ⟨⟨nonempty, single, ⟨[], epoch, rfl, distinct, others⟩, room⟩, rfl⟩
  | cons entry earlier ih =>
    obtain ⟨front, mark⟩ := entry
    have later : ∀ entry ∈ earlier, index.pageTouchEpochs[entry.1]? = some entry.2
        → entry.1 ≠ pageId := fun entry member => distinct entry (by simp [member])
    -- An entry that is popped without spilling is not the live one of a single version.
    have skip (idle : ∀ version, index.pageTouchEpochs[front]? = some mark
          → index.pages[front]? ≠ some [version]) (other : PageId) (version : WalVersion)
        (different : other ≠ pageId) :=
      LiveIn.pop (others other · different) idle version
    rw [cons_append, WalIndex.spillFrom]
    split
    · exact ⟨⟨nonempty, single, ⟨(front, mark) :: earlier, epoch, rfl, distinct, others⟩, room⟩,
        rfl⟩
    split
    next stale => exact ih later (skip fun _ live => absurd live stale)
    next live =>
      have live : index.pageTouchEpochs[front]? = some mark := of_not_not live
      split
      next version found =>
        have different : front ≠ pageId := distinct (front, mark) (by simp) live
        have kept : ∀ other, front ≠ other
            → (index.pages.erase front)[other]? = index.pages[other]? := by
          intro other apart
          simp [Std.ExtTreeMap.getElem?_erase, apart]
        have same (left : WalIndex) (erased : left.pages = index.pages.erase front)
            : left.versions pageId = index.versions pageId := by
          rw [index.versions_of_erase front pageId erased, if_neg different]
        refine ⟨⟨?_, ?_, ⟨earlier, epoch, rfl, ?_, ?_⟩, ?_⟩, same _ rfl⟩
        · intro other
          by_cases equal : front = other
          · simp [equal]
          · simpa [kept other equal] using nonempty other
        · rw [same _ rfl]
          exact single
        · intro entry member current
          apply later entry member
          by_cases equal : front = entry.1
          · simp [equal] at current
          · simpa [Std.ExtTreeMap.getElem?_erase, equal] using current
        · exact fun other found apart => LiveIn.erase (others other · apart) found
        refine lt_of_le_of_lt
          (le_of_eq (congrArg Finset.card (multiVersionPages_congr ?_))) room
        intro other
        rw [index.versions_of_erase front other rfl]
        split
        next equal =>
          subst equal
          simp [WalIndex.versions, found]
        next => rfl
      next several => exact ih later (skip fun version _ found => several version found)

end WalIndex

-- Spilling and promotion

namespace WalHandle

/-- Spilling until the hot set fits keeps the queue. -/
theorem spillExcess_wellQueued (hotSetPages turns : Nat) (sidecar : WalIndexSidecar)
    (queued : index.WellQueued)
    : (spillExcess hotSetPages turns index sidecar).1.WellQueued := by
  induction turns generalizing index sidecar with
  | zero => exact queued
  | succ turns ih =>
    have spilled := queued.spillFrom hotSetPages
    unfold spillExcess spillOneColdLatest
    split
    next left taken => rwa [taken] at spilled
    next left pageId version taken =>
      rw [taken] at spilled
      split
      · exact ih _ spilled
      · exact spilled.seedLatest pageId version

/-- The loop keeps the last page of the queue. -/
theorem spillExcess_keeps_last (turns : Nat) (sidecar : WalIndexSidecar)
    (queued : index.LastQueued pageId hotSetPages index.accessOrder)
    : (spillExcess hotSetPages turns index sidecar).1.versions pageId = index.versions pageId := by
  induction turns generalizing index sidecar with
  | zero => rfl
  | succ turns ih =>
    obtain ⟨still, same⟩ := queued.spillFrom
    have took := spillFrom_spilledOne hotSetPages index index.accessOrder
    unfold spillExcess spillOneColdLatest
    split
    next left taken => rwa [taken] at same
    next left gone version taken =>
      rw [taken] at still same took
      split
      · rw [ih _ still, same]
      cases took with
      | some single erased =>
        have different : gone ≠ pageId := by
          intro equal
          have lost := index.versions_of_erase gone pageId erased
          rw [if_pos equal, same] at lost
          have one := queued.single
          rw [lost] at one
          cases one
        rw [seedLatest, versions_store, if_neg different, same]

/-- Spilling under the configured limit keeps the queue. -/
theorem spillExcessHotPagesLocked_wellQueued (config : WalConfig) (sidecar : WalIndexSidecar)
    (queued : index.WellQueued)
    : (spillExcessHotPagesLocked config index sidecar).1.WellQueued := by
  unfold spillExcessHotPagesLocked
  split
  · exact queued
  · exact spillExcess_wellQueued _ _ sidecar queued

/-- A page that was just seeded stands last in the queue. -/
theorem seedLatest_lastQueued (queued : index.WellQueued) (absent : index.versions pageId = [])
    (room : index.multiVersionPages.card < hotSetPages) (version : WalVersion)
    : (index.seedLatest pageId version).LastQueued pageId hotSetPages
        (index.seedLatest pageId version).accessOrder := by
  have elsewhere : ∀ other, other ≠ pageId
      → (index.seedLatest pageId version).pages[other]? = index.pages[other]? := by
    intro other different
    rw [seedLatest, pages_store]
    simp [Std.ExtTreeMap.getElem?_insert, Ne.symm different]
  refine ⟨(queued.seedLatest pageId version).nonempty, ?_,
    ⟨index.accessOrder, index.nextTouchEpoch + 1, ?_, ?_, ?_⟩, ?_⟩
  · simp [seedLatest]
  · simp [seedLatest, store, touch]
  · intro entry member current same
    have newest : entry.2 = index.nextTouchEpoch + 1 := by
      simpa [seedLatest, store, touch, same, eq_comm] using current
    have old := queued.bounded entry member
    omega
  · intro other found different stored
    rw [elsewhere other different] at stored
    obtain ⟨epoch, live, member⟩ := queued.live other found stored
    refine ⟨epoch, ?_, member⟩
    simpa [seedLatest, store, touch, Std.ExtTreeMap.getElem?_insert, Ne.symm different] using live
  refine lt_of_le_of_lt (le_of_eq (congrArg Finset.card (multiVersionPages_congr ?_))) room
  intro other
  rw [seedLatest, versions_store]
  split
  next same =>
    rw [← same, absent]
    simp
  next => rfl

variable (config : WalConfig)

/-- A promotion keeps the queue. -/
theorem promoteSpilledLatestLocked_wellQueued (pageId : PageId) (snapshotLsn : Nat)
    (queued : handle.index.WellQueued)
    : (handle.promoteSpilledLatestLocked config pageId snapshotLsn).1.index.WellQueued := by
  unfold promoteSpilledLatestLocked
  split
  · exact queued
  split
  · exact queued
  split
  · exact queued
  split
  · exact queued
  next version _ _ =>
    have seeded := queued.seedLatest pageId version
    split
    · exact spillExcessHotPagesLocked_wellQueued config _ seeded
    · exact seeded

/-- A read keeps the queue. -/
theorem readPageAtSnapshot_wellQueued (storage : Storage) (pageId : PageId) (snapshotLsn : Nat)
    (queued : handle.index.WellQueued)
    : (handle.readPageAtSnapshot config storage pageId snapshotLsn).1.index.WellQueued := by
  refine readPageAtSnapshot_rule (motive := (·.index.WellQueued)) storage queued
    (promoteSpilledLatestLocked_wellQueued config pageId snapshotLsn queued) ?_
  intro promoted promotes
  unfold touchIfVisible
  split
  · exact promotes.touch pageId
  · exact promotes

/-- Consulting the sidecar keeps the queue. -/
theorem consultSidecar_wellQueued (snapshotLsn : Nat) (pageId : PageId)
    (queued : handle.index.WellQueued)
    : (handle.consultSidecar config snapshotLsn pageId).1.index.WellQueued := by
  unfold consultSidecar
  split
  · exact promoteSpilledLatestLocked_wellQueued config pageId snapshotLsn queued
  · exact queued

/-- With a reader registered nothing is spilled, and with room in the hot set another page
is: a promoted page stays in the index.
-/
theorem promoteSpilledLatestLocked_keeps {record : SidecarRecord}
    (nonzero : pageId ≠ 0) (queued : handle.index.WellQueued)
    (absent : handle.index.versions pageId = [])
    (spilled : handle.sidecarRecord pageId = some record) (visible : record.lsn ≤ snapshotLsn)
    (stays : 0 < handle.readerRegistry.activeReaderCount
      ∨ handle.index.multiVersionPages.card < config.walIndexHotSetPages)
    : (handle.promoteSpilledLatestLocked config pageId snapshotLsn).1.index.versions pageId
      = [record.version] := by
  obtain ⟨sidecar, present, stored⟩ := bind_eq_some_iff.mp spilled
  have notContained := queued.containsPage absent
  have found : sidecar.readLatest pageId = some record.version := by
    rw [WalIndexSidecar.readLatest, if_neg nonzero, stored, map_some]
  have seeded : (handle.index.seedLatest pageId record.version).versions pageId
    = [record.version] := by simp [seedLatest]
  unfold promoteSpilledLatestLocked
  simp only [present, notContained, found, Bool.false_eq_true, if_false]
  rw [if_neg (by simpa [SidecarRecord.version] using visible)]
  split
  next noReaders =>
    have room := stays.resolve_left (by omega)
    have last := seedLatest_lastQueued queued absent room record.version
    unfold spillExcessHotPagesLocked
    split
    · exact seeded
    · rw [← seeded]
      exact spillExcess_keeps_last _ _ last
  next => exact seeded

end WalHandle

end DecentDb.Wal
