import DecentDb.Wal.Demotion

/-! A checkpoint copies what the commits wrote: every collected version stands for the last
entry of its page, and every page with an entry is collected.
-/

namespace DecentDb.Wal

open List WalIndex

open WalHandle (slot)

variable {safeLsn : Nat} {pageId : PageId} {version : WalVersion}
  {list rest : List (PageId × WalVersion)} {config : WalConfig} {state : WalState}
  {entries : List LedgerEntry} {handle : WalHandle}

namespace WalState

/-- A checkpoint has found no reader, and none can begin. -/
structure Quiet (state : WalState) : Prop where
  pending : state.handle.checkpointPending
  readers : state.handle.readerRegistry.readers = []

/-- Each listed version stands for the last entry of its page. -/
def Listed (config : WalConfig) (state : WalState) (entries : List LedgerEntry)
    (list : List (PageId × WalVersion)) : Prop :=
  ∀ pair ∈ list, ∃ entry frame,
    lastEntry entries pair.1 state.handle.walEndLsn = some entry
    ∧ (state.ledger config entries).BackedBy pair.2 entry frame
    ∧ (config.Chained → pair.2.Direct)

/-- Every page with an entry is in the list, or has a record in the sidecar. -/
def Covered (state : WalState) (entries : List LedgerEntry) (list : List (PageId × WalVersion))
    : Prop :=
  ∀ pageId, (lastEntry entries pageId state.handle.walEndLsn).isSome
    → pageId ∈ list.map Prod.fst ∨ (state.handle.sidecarRecord pageId).isSome

-- Collection

/-- The checkpoint collects the newest visible version of every page in the index. -/
theorem mem_collectIndex : (pageId, version) ∈ handle.collectIndex safeLsn
      ↔ handle.index.latestVisible pageId safeLsn = some version := by
  simp only [WalHandle.collectIndex, populateLatestVersionsAtOrBefore,
    mem_filterMap, Prod.exists, Option.map_eq_some_iff, Prod.mk.injEq,
    Std.ExtTreeMap.mem_toList_iff_getElem?_eq_some, latestVisible, versions]
  constructor
  · rintro ⟨other, versions, stored, found, newest, rfl, rfl⟩
    rwa [stored]
  intro newest
  cases stored : handle.index.pages[pageId]? with
  | none =>
    rw [stored] at newest
    cases newest
  | some versions =>
    rw [stored] at newest
    exact ⟨pageId, versions, stored, version, newest, rfl, rfl⟩

/-- The checkpoint collects the visible records of the sidecar. -/
theorem mem_populateSidecar {sidecar : WalIndexSidecar}
    : (pageId, version) ∈ sidecar.populateLatestVersionsAtOrBefore safeLsn
      ↔ ∃ record, sidecar.records[pageId]? = some record ∧ record.lsn ≤ safeLsn
        ∧ record.version = version := by
  simp only [WalIndexSidecar.populateLatestVersionsAtOrBefore, mem_map, mem_filter,
    Prod.exists, Prod.mk.injEq, Std.ExtTreeMap.mem_toList_iff_getElem?_eq_some, decide_eq_true_eq]
  constructor
  · rintro ⟨other, record, ⟨stored, seen⟩, rfl, rfl⟩
    exact ⟨record, stored, seen, rfl⟩
  · rintro ⟨record, stored, seen, rfl⟩
    exact ⟨pageId, record, ⟨stored, seen⟩, rfl, rfl⟩

/-- What the sidecar adds to the list. -/
theorem mem_collectSidecar
    : (pageId, version) ∈ handle.collectSidecar safeLsn list ↔ (pageId, version) ∈ list
        ∨ ∃ record, handle.sidecarRecord pageId = some record ∧ record.lsn ≤ safeLsn
          ∧ record.version = version := by
  unfold WalHandle.collectSidecar WalHandle.sidecarRecord
  dsimp only
  rw [mem_insertionSort, mem_append]
  cases handle.indexSidecar with
  | none => simp
  | some sidecar => rw [mem_populateSidecar, Option.bind_some]

section

variable (tracks : state.Tracks config entries)
include tracks

/-- What is collected from the index has the bytes of the last commits. -/
theorem Tracks.listed_collectIndex
    : state.Listed config entries (state.handle.collectIndex state.handle.walEndLsn) := by
  have used : state.handle.walEndLsn ∈ state.snapshots := mem_cons_self
  rintro ⟨pageId, version⟩ member
  have newest := mem_collectIndex.mp member
  have sound := tracks.slots pageId
  have indexed : state.handle.index.versions pageId ≠ [] := by
    intro none
    rw [latestVisible, none] at newest
    cases newest
  obtain ⟨entry, frame, last, _, backed⟩ := sound.lastEntry_eq tracks.ascending used
    (sound.shown indexed _ ▸ newest)
  exact ⟨entry, frame, last, backed, fun chained => sound.direct chained _ used version newest⟩

/-- Every page that a commit wrote is collected. -/
theorem Tracks.covered_collectIndex
    : state.Covered entries (state.handle.collectIndex state.handle.walEndLsn) := by
  intro pageId written
  have visible := (tracks.slots pageId).visible _ (mem_cons_self : state.handle.walEndLsn ∈ _)
  cases spilled : state.handle.sidecarRecord pageId with
  | some record => exact .inr rfl
  | none =>
    left
    rw [PageSlot.all, slot, spilled] at visible
    obtain ⟨entry, found⟩ := Option.isSome_iff_exists.mp written
    have last : lastEntry (state.ledger config entries).entries pageId state.handle.walEndLsn
      = some entry := found
    rw [last, Option.map_some] at visible
    obtain ⟨version, newest, _⟩ := Option.map_eq_some_iff.mp visible
    exact mem_map_of_mem (f := Prod.fst) (mem_collectIndex.mpr newest)

/-- A spilled version is the only one of its page. -/
theorem Tracks.listed_collectSidecar (listed : state.Listed config entries list)
    : state.Listed config entries (state.handle.collectSidecar state.handle.walEndLsn list) := by
  have used : state.handle.walEndLsn ∈ state.snapshots := mem_cons_self
  rintro ⟨pageId, version⟩ member
  rcases mem_collectSidecar.mp member with old | ⟨record, spilled, seen, rfl⟩
  · exact listed _ old
  have sound := tracks.slots pageId
  have unindexed : state.handle.index.versions pageId = [] := by
    by_contra indexed
    have := sound.disjoint indexed
    rw [slot, spilled] at this
    cases this
  have newest : newestAtOrBefore (state.handle.slot pageId).all
    state.handle.walEndLsn = some record.version := by
    have all : (state.handle.slot pageId).all = [record.version] := by
      rw [PageSlot.all, slot, spilled, unindexed]
      rfl
    rw [all]
    exact find?_cons_of_pos (decide_eq_true seen)
  obtain ⟨entry, frame, last, _, backed⟩ := sound.lastEntry_eq tracks.ascending used newest
  refine ⟨entry, frame, last, backed, fun chained => ?_⟩
  have none := sound.unspilled chained
  rw [slot, spilled] at none
  cases none

end

-- Copying

/-- The main file while versions are copied into it: a page is as it was settled or as the
commits left it, and the latter unless it is still to come.
-/
structure Copying (config : WalConfig) (state : WalState) (entries : List LedgerEntry)
    (list : List (PageId × WalVersion)) : Prop where
  listed : state.Listed config entries list
  main : ∀ pageId, state.storage.main pageId = state.spec.settled pageId
    ∨ state.storage.main pageId = state.spec.valueAt pageId state.handle.walEndLsn
  copied : ∀ pageId, pageId ∉ list.map Prod.fst
    → state.storage.main pageId = state.spec.valueAt pageId state.handle.walEndLsn

/-- At the end of the log a page is its last entry or the settled page. -/
theorem Tracks.valueAt_walEnd (tracks : state.Tracks config entries) (pageId : PageId)
    : state.spec.valueAt pageId state.handle.walEndLsn
      = ((lastEntry entries pageId state.handle.walEndLsn).map LedgerEntry.image).getD
        (state.spec.settled pageId) :=
  tracks.describes.valueAt pageId (tracks.aligned _ mem_cons_self)

/-- The list is complete once the sidecar is collected too. -/
theorem Tracks.copying_collectSidecar (tracks : state.Tracks config entries)
    (main : ∀ pageId, state.storage.main pageId = state.spec.settled pageId)
    (listed : state.Listed config entries list) (covered : state.Covered entries list)
    : state.Copying config entries (state.handle.collectSidecar state.handle.walEndLsn list) := by
  refine ⟨tracks.listed_collectSidecar listed, fun pageId => .inl (main pageId), ?_⟩
  intro pageId unlisted
  have unwritten : lastEntry entries pageId state.handle.walEndLsn = none := by
    by_contra written
    apply unlisted
    rcases covered pageId (Option.isSome_iff_ne_none.mpr written) with old | spilled
    · obtain ⟨pair, member, rfl⟩ := mem_map.mp old
      exact mem_map_of_mem (mem_collectSidecar.mpr (.inl member))
    obtain ⟨record, present⟩ := Option.isSome_iff_exists.mp spilled
    have seen : record.lsn ≤ state.handle.walEndLsn := by
      obtain ⟨entry, _, _, backed⟩ := (tracks.slots pageId).backed record.version
        (mem_append_left _ (by rw [slot, present]; simp))
      rw [← record.lsn_version, ← backed.lsn]
      exact tracks.lsn_le_walEnd backed.member
    exact mem_map_of_mem (f := Prod.fst)
      (mem_collectSidecar.mpr (.inr ⟨record, present, seen, rfl⟩))
  rw [tracks.valueAt_walEnd, unwritten, main]
  rfl

section

variable (copying : state.Copying config entries ((pageId, version) :: rest))
include copying

/-- Copying back never fails, and leaves the page as the commits did. -/
theorem Copying.copyback (tracks : state.Tracks config entries)
    : state.handle.copyback config state.storage pageId version
      = .ok (state.storage.writePage pageId
        (state.spec.valueAt pageId state.handle.walEndLsn)) := by
  obtain ⟨entry, frame, last, backed, direct⟩ := copying.listed _ mem_cons_self
  have value : state.spec.valueAt pageId state.handle.walEndLsn = entry.image := by
    rw [tracks.valueAt_walEnd, last]
    rfl
  have page := (lastEntry_spec last).2.1
  have materialized := tracks.materialize (tracks.slots pageId) rfl page backed direct
    (value ▸ copying.main pageId)
  have length : ¬entry.image.length ≠ config.pageSize :=
    not_not.mpr (tracks.images entry backed.member)
  unfold WalHandle.copyback
  simp only [materialized, ok_bind, length, if_false, value]
  rfl

/-- Copying one page back leaves the rest of the list to be copied. -/
theorem Copying.next : ({ state with
      storage := state.storage.writePage pageId (state.spec.valueAt pageId state.handle.walEndLsn)
      }).Copying config entries rest := by
  refine ⟨fun pair member => copying.listed pair (mem_cons_of_mem _ member), ?_, ?_⟩
  · intro other
    by_cases same : other = pageId
    · subst same
      exact .inr (by simp [Storage.writePage])
    · simpa [Storage.writePage, same] using copying.main other
  intro other unlisted
  by_cases same : other = pageId
  · subst same
    simp [Storage.writePage]
  · have := copying.copied other (by simpa [same] using unlisted)
    simpa [Storage.writePage, same] using this

end

-- Restarting

/-- The main file holds everything: nothing is committed in the new generation. -/
structure Restarted (config : WalConfig) (state : WalState) : Prop where
  quiet : state.Quiet
  main : ∀ pageId, state.storage.main pageId = state.spec.settled pageId
  commits : state.spec.commits = []
  settledPages : ∀ pageId, (state.spec.settled pageId).length = config.pageSize

/-- What a reader at the end of the log sees is a whole page. -/
theorem Tracks.length_valueAt_walEnd (tracks : state.Tracks config entries) (pageId : PageId)
    : (state.spec.valueAt pageId state.handle.walEndLsn).length = config.pageSize := by
  rw [tracks.valueAt_walEnd]
  cases last : lastEntry entries pageId state.handle.walEndLsn with
  | none => exact tracks.settledPages pageId
  | some entry => exact tracks.images entry (lastEntry_spec last).1

/-- Once everything is copied back, the log may start over. -/
theorem Copying.restarted (copying : state.Copying config entries [])
    (tracks : state.Tracks config entries) (quiet : state.Quiet)
    {rewritten : List (PageId × Page)}
    (lengths : ∀ page ∈ rewritten, page.2.length = config.pageSize) (pageCount : Option PageId)
    : ({ state with
      storage := { state.storage with
        main := maintainPager config rewritten pageCount state.storage.main }
      spec := .restart (maintainPager config rewritten pageCount
        fun pageId => state.spec.valueAt pageId state.handle.latestSnapshot)
      }).Restarted config := by
  have main : state.storage.main
    = fun pageId => state.spec.valueAt pageId state.handle.latestSnapshot :=
    funext fun pageId => copying.copied pageId (by simp)
  refine ⟨⟨quiet.pending, quiet.readers⟩, ?_, rfl, ?_⟩
  · intro pageId
    dsimp only
    rw [main]
    rfl
  intro pageId
  simp only [VersionedStore.restart, maintainPager]
  split
  next found =>
    obtain ⟨_, _, listed, _⟩ := lookup_eq_some_iff.mp found
    exact lengths (pageId, _) (by simp [listed])
  · split
    · exact length_replicate
    · exact tracks.length_valueAt_walEnd pageId

/-- An empty WAL over the settled pages is described by no entries. -/
theorem tracks_nil (index : state.handle.index = .empty)
    (records : ∀ pageId, state.handle.sidecarRecord pageId = none)
    (walEnd : state.handle.walEndLsn = 0) (readers : state.handle.readerRegistry.readers = [])
    (commits : state.spec.commits = [])
    (settledPages : ∀ pageId, (state.spec.settled pageId).length = config.pageSize)
    : state.Tracks config [] := by
  have slot : ∀ pageId, state.handle.slot pageId = ⟨[], none⟩ := by
    intro pageId
    rw [slot, records, index, versions_empty]
  refine {
    slots := fun pageId => ?_
    queued := index ▸ wellQueued_empty
    describes := fun snapshot => by simp [VersionedStore.writesUpTo, commits]
    ascending := .nil
    within := by simp
    aligned := by simp
    below := by simp [snapshots, readers]
    started := .inl walEnd
    images := by simp
    settledPages
  }
  rw [slot]
  exact ⟨by simp, by simp [PageSlot.all], fun snapshot _ => rfl, fun _ => rfl, by
    simp [newestAtOrBefore]⟩

end WalState

end DecentDb.Wal
