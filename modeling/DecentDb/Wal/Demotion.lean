import DecentDb.Wal.SnapshotReads

/-! Demotion forgets page bytes that the WAL file still has: versions keep their frames and
their order.
-/

namespace DecentDb.Wal

open List WalIndex

/-- The version itself, or its demoted form. -/
def WalVersion.DemotesTo (before after : WalVersion) : Prop :=
  after = before ∨ after = before.demoted

/-- Demoting twice is demoting. -/
theorem WalVersion.DemotesTo.trans {first second third : WalVersion}
    (left : first.DemotesTo second) (right : second.DemotesTo third) : first.DemotesTo third := by
  rcases left with rfl | rfl
  · exact right
  · rcases right with rfl | rfl
    · exact .inr rfl
    · exact .inr first.demoted_demoted

variable {pageId : PageId} {before after index first second third : WalIndex} {config : WalConfig}
  {handle : WalHandle} {state : WalState} {entries : List LedgerEntry} {retainRecentPerPage : Nat}
  {related : List WalVersion → List WalVersion → Prop}

namespace WalIndex

/-- The same pages and queue, with the versions of each page related. -/
structure Rewritten (related : List WalVersion → List WalVersion → Prop)
    (before after : WalIndex) : Prop where
  accessOrder : after.accessOrder = before.accessOrder
  pageTouchEpochs : after.pageTouchEpochs = before.pageTouchEpochs
  nextTouchEpoch : after.nextTouchEpoch = before.nextTouchEpoch
  pages : ∀ pageId : PageId, Option.Rel related before.pages[pageId]? after.pages[pageId]?

namespace Rewritten

/-- An index is rewritten to itself. -/
theorem refl (reflexive : ∀ versions, related versions versions) (index : WalIndex)
    : Rewritten related index index := by
  refine ⟨rfl, rfl, rfl, fun pageId => ?_⟩
  cases index.pages[pageId]? with
  | none => exact .none
  | some versions => exact .some (reflexive versions)

/-- Two rewritings compose. -/
theorem trans (compose : ∀ first second third, related first second → related second third
      → related first third)
    (left : Rewritten related first second) (right : Rewritten related second third)
    : Rewritten related first third := by
  refine ⟨right.accessOrder.trans left.accessOrder,
    right.pageTouchEpochs.trans left.pageTouchEpochs,
    right.nextTouchEpoch.trans left.nextTouchEpoch, fun pageId => ?_⟩
  have before := left.pages pageId
  have after := right.pages pageId
  generalize first.pages[pageId]? = one at *
  generalize second.pages[pageId]? = two at *
  generalize third.pages[pageId]? = three at *
  cases before with
  | none => exact after
  | some first =>
    cases after with
    | some second => exact .some (compose _ _ _ first second)

/-- Rewriting the versions of one page. -/
theorem insert (reflexive : ∀ versions, related versions versions)
    {versions rewritten : List WalVersion} (stored : index.pages[pageId]? = some versions)
    (relates : related versions rewritten)
    : Rewritten related index { index with pages := index.pages.insert pageId rewritten } := by
  refine ⟨rfl, rfl, rfl, fun other => ?_⟩
  rw [Std.ExtTreeMap.getElem?_insert]
  by_cases same : pageId = other
  · subst same
    rw [stored]
    simpa using relates
  simp only [Std.LawfulEqCmp.compare_eq_iff_eq, same, if_false]
  cases index.pages[other]? with
  | none => exact .none
  | some versions => exact .some (reflexive versions)

variable (rewritten : Rewritten related before after)
include rewritten

/-- Marking a page rewrites no versions. -/
theorem markDirtySinceDemote (pageId : PageId)
    : Rewritten related before (after.markDirtySinceDemote pageId) := by
  unfold WalIndex.markDirtySinceDemote
  split
  · exact rewritten
  · exact { rewritten with }

/-- The versions of every page are rewritten. -/
theorem versions (nil : related [] []) (pageId : PageId)
    : related (before.versions pageId) (after.versions pageId) := by
  have pages := rewritten.pages pageId
  unfold WalIndex.versions
  generalize before.pages[pageId]? = old at *
  generalize after.pages[pageId]? = new at *
  cases pages with
  | none => exact nil
  | some relates => exact relates

/-- A rewriting that keeps the number of versions keeps the queue. -/
theorem wellQueued (lengths : ∀ before after, related before after → after.length = before.length)
    (queued : before.WellQueued) : after.WellQueued := by
  refine queued.of_lengths rewritten.accessOrder rewritten.pageTouchEpochs
    rewritten.nextTouchEpoch fun pageId => ?_
  have pages := rewritten.pages pageId
  generalize before.pages[pageId]? = old at *
  generalize after.pages[pageId]? = new at *
  cases pages with
  | none => rfl
  | some relates => rw [Option.map_some, Option.map_some, lengths _ _ relates]

end Rewritten

-- Cold versions

/-- Demotion of the older versions: the last one stays if any may. -/
structure ColdDemoted (retainRecentPerPage : Nat) (before after : List WalVersion)
    : Prop where
  versions : List.Forall₂ WalVersion.DemotesTo before after
  last : 0 < retainRecentPerPage → after.getLast? = before.getLast?

variable (versions)

/-- No version has to be demoted. -/
theorem ColdDemoted.refl : ColdDemoted retainRecentPerPage versions versions :=
  ⟨forall₂_same.mpr fun _ _ => .inl rfl, fun _ => rfl⟩

/-- Demoting cold versions twice demotes cold versions. -/
theorem ColdDemoted.trans (first second third : List WalVersion)
    (left : ColdDemoted retainRecentPerPage first second)
    (right : ColdDemoted retainRecentPerPage second third)
    : ColdDemoted retainRecentPerPage first third :=
  ⟨left.versions.comp right.versions fun _ _ _ => .trans,
    fun some => (right.last some).trans (left.last some)⟩

/-- All but the most recent versions are demoted. -/
theorem coldDemoted_demoteVersions : ColdDemoted retainRecentPerPage versions
      (demoteVersions none retainRecentPerPage versions) := by
  unfold demoteVersions
  refine ⟨?_, fun some => ?_⟩
  · nth_rewrite 1 [← take_append_drop (versions.length - retainRecentPerPage) versions]
    apply rel_append
    · exact forall₂_map_right_iff.mpr (forall₂_same.mpr fun _ _ => .inr rfl)
    · exact forall₂_same.mpr fun _ _ => .inl rfl
  cases versions with
  | nil => simp
  | cons first rest =>
    -- A version is kept, so the last one is among the kept ones.
    have kept : (first :: rest).drop ((first :: rest).length - retainRecentPerPage) ≠ [] := by
      simp only [ne_eq, drop_eq_nil_iff, length_cons]
      omega
    rw [getLast?_append_of_ne_nil _ kept, getLast?_drop, if_neg]
    simp only [length_cons]
    omega

variable (index)

/-- Demoting one page rewrites that page. -/
theorem demoteColdPage_rewritten (pageId : PageId)
    : Rewritten (ColdDemoted retainRecentPerPage) index
      (demoteColdPage none retainRecentPerPage index pageId) := by
  unfold demoteColdPage
  split
  next => exact .refl .refl index
  next versions stored =>
    have demoted : ColdDemoted retainRecentPerPage versions _ := coldDemoted_demoteVersions versions
    dsimp only
    split
    · exact (Rewritten.insert .refl stored demoted).markDirtySinceDemote pageId
    · exact .insert .refl stored demoted

/-- Demoting every page rewrites the index. -/
theorem demoteCold_rewritten : Rewritten (ColdDemoted retainRecentPerPage) index
      (index.demoteCold none retainRecentPerPage) := by
  have along : ∀ (pageIds : List PageId) (index : WalIndex),
    Rewritten (ColdDemoted retainRecentPerPage) index
      (pageIds.foldl (demoteColdPage none retainRecentPerPage) index) := by
    intro pageIds
    induction pageIds with
    | nil => exact .refl .refl
    | cons pageId rest ih =>
      intro index
      exact (index.demoteColdPage_rewritten pageId).trans ColdDemoted.trans (ih _)
  have rest := along index.dirtySinceDemote { index with dirtySinceDemote := [] }
  exact { rest with }

-- Full pages

/-- Demotion of full pages only. -/
abbrev FullDemoted : List WalVersion → List WalVersion → Prop :=
  List.Forall₂ fun before after =>
    after = before ∨ after = before.demoted ∧ before.encoding = .page

/-- No full image has to be demoted. -/
theorem FullDemoted.refl : FullDemoted versions versions :=
  forall₂_same.mpr fun _ _ => .inl rfl

/-- Demoting full images twice demotes full images. -/
theorem FullDemoted.trans (first second third : List WalVersion)
    (left : FullDemoted first second) (right : FullDemoted second third)
    : FullDemoted first third := by
  refine left.comp right fun before middle after demotes again => ?_
  rcases demotes with rfl | ⟨rfl, full⟩
  · exact again
  · rcases again with rfl | ⟨rfl, _⟩
    · exact .inr ⟨rfl, full⟩
    · exact .inr ⟨before.demoted_demoted, full⟩

/-- Only full images are demoted to free memory. -/
theorem demoteFullVersions_fullDemoted (targetBytes freed : Nat) (versions : List WalVersion)
    : FullDemoted versions (demoteFullVersions targetBytes freed versions).1 := by
  induction versions generalizing freed with
  | nil => exact .nil
  | cons version rest ih =>
    unfold demoteFullVersions
    split
    · exact FullDemoted.refl _
    split
    next data offset length full =>
      refine .cons (.inr ⟨rfl, ?_⟩) (ih _)
      rw [WalVersion.encoding, full]
      rfl
    next => exact .cons (.inl rfl) (ih _)

/-- Demoting page after page rewrites the index. -/
theorem demoteHighPages_rewritten (targetBytes freed : Nat) (pageIds : List PageId)
    (index : WalIndex)
    : Rewritten FullDemoted index (demoteHighPages targetBytes freed pageIds index) := by
  induction pageIds generalizing freed index with
  | nil => exact .refl FullDemoted.refl index
  | cons pageId rest ih =>
    unfold demoteHighPages
    split
    next => exact ih freed index
    next versions stored =>
      have demoted := demoteFullVersions_fullDemoted targetBytes freed versions
      exact (Rewritten.insert FullDemoted.refl stored demoted).trans FullDemoted.trans (ih _ _)

/-- Freeing memory demotes full images only. -/
theorem demoteHighPageIdsResidentBytes_rewritten (targetBytes : Nat)
    : Rewritten FullDemoted index (index.demoteHighPageIdsResidentBytes targetBytes) := by
  unfold demoteHighPageIdsResidentBytes
  split
  · exact .refl FullDemoted.refl index
  · have pages := demoteHighPages_rewritten targetBytes 0 index.pages.keys.reverse index
    exact { pages with }

end WalIndex

-- Demotion steps

namespace WalState.Tracks

variable (tracks : state.Tracks config entries)
include tracks

/-- New indexed versions that are the old ones or their demoted forms. -/
theorem of_demoted (queued : index.WellQueued)
    (demotes : ∀ pageId, Forall₂ WalVersion.DemotesTo (state.handle.index.versions pageId)
      (index.versions pageId))
    (direct : config.Chained → ∀ pageId, ∀ snapshot ∈ state.snapshots, ∀ version,
      index.latestVisible pageId snapshot = some version → version.Direct)
    : ({ state with handle := { state.handle with index } }).Tracks config entries :=
  { tracks with
    slots := fun pageId =>
      (tracks.slots pageId).demote (demotes pageId) fun chained => direct chained pageId
    queued }

/-- Freeing memory keeps the versions on track: a full image can be read back from its frame. -/
theorem demoteResidentVersions (targetBytes : Nat)
    : ({ state with handle := state.handle.demoteResidentVersions targetBytes }).Tracks config
      entries := by
  have rewritten := state.handle.index.demoteHighPageIdsResidentBytes_rewritten targetBytes
  refine tracks.of_demoted (rewritten.wellQueued (fun _ _ full => full.length_eq.symm)
    tracks.queued) (fun pageId => ?_) fun chained pageId snapshot used version newest => ?_
  · exact (rewritten.versions .nil pageId).imp fun _ _ full => full.imp id And.left
  -- A full page that lost its bytes is still direct.
  have related := (rel_reverse (rewritten.versions .nil pageId)).find?
    (·.lsn ≤ snapshot) (·.lsn ≤ snapshot)
    fun before after full => by rcases full with rfl | ⟨rfl, _⟩ <;> rfl
  have direct := (tracks.slots pageId).direct chained snapshot used
  unfold latestVisible newestAtOrBefore at *
  rw [newest] at related
  generalize found : (state.handle.index.versions pageId).reverse.find? _ = old at related
  cases related with
  | @some before _ full =>
    rcases full with rfl | ⟨rfl, page⟩
    · exact direct _ found
    · exact .inr (by rw [WalVersion.encoding_demoted, page])

/-- Demoting cold versions keeps them on track if no reader needs a chained delta. -/
theorem demoteColdVersions (atEnd : config.Chained → ∀ reader ∈ state.handle.readerRegistry.readers,
      reader.snapshotLsn = state.handle.walEndLsn)
    : ({ state with handle := state.handle.demoteColdVersions config }).Tracks config entries := by
  have rewritten : WalIndex.Rewritten (WalIndex.ColdDemoted config.residentVersionsPerPage)
    state.handle.index _ := state.handle.index.demoteCold_rewritten
  have cold := rewritten.versions (WalIndex.ColdDemoted.refl [])
  have demoted : ({ state with
    handle := { state.handle with
      index := state.handle.index.demoteCold none config.residentVersionsPerPage }
    }).Tracks config entries := by
    refine tracks.of_demoted (rewritten.wellQueued (fun _ _ cold => cold.versions.length_eq.symm)
      tracks.queued) (fun pageId => (cold pageId).versions)
      fun chained pageId snapshot used version newest => ?_
    -- All snapshots are the end, where the last version shows, and that one is kept.
    have retains : 0 < config.residentVersionsPerPage := by
      have := (Bool.and_eq_true_iff.mp chained).1
      exact of_decide_eq_true this
    have current : snapshot = state.handle.walEndLsn := by
      rcases mem_cons.mp used with same | reader
      · exact same
      · obtain ⟨info, registered, rfl⟩ := mem_map.mp reader
        exact atEnd chained info registered
    subst current
    have before : ∀ version ∈ state.handle.index.versions pageId,
      version.lsn ≤ state.handle.walEndLsn := by
      intro version indexed
      obtain ⟨entry, _, _, backed⟩ :=
        (tracks.slots pageId).backed version (mem_append_right _ indexed)
      exact backed.lsn ▸ tracks.lsn_le_walEnd backed.member
    have after : ∀ version ∈ (state.handle.index.demoteCold none
      config.residentVersionsPerPage).versions pageId, version.lsn ≤ state.handle.walEndLsn := by
      intro version member
      obtain ⟨old, listed, demotes⟩ := (cold pageId).versions.flip.exists_of_mem member
      rcases demotes with rfl | rfl
      · exact before _ listed
      · exact before old listed
    apply (tracks.slots pageId).direct chained _ used
    rw [← newest, WalHandle.slot, WalIndex.latestVisible, newestAtOrBefore_eq_getLast? after,
      newestAtOrBefore_eq_getLast? before, (cold pageId).last retains]
  unfold WalHandle.demoteColdVersions
  split
  next => exact demoted
  next sidecar present =>
    refine demoted.of_cache ?_ (WalHandle.cacheOnly_with _ _ _)
      (WalHandle.spillExcessHotPagesLocked_wellQueued config sidecar demoted.queued)
    intro pageId
    have moves := spillExcessHotPagesLocked_moves config
      (state.handle.index.demoteCold none config.residentVersionsPerPage) sidecar pageId
    rw [← WalHandle.slot_with_index present] at moves
    exact moves

end WalState.Tracks

-- What demotion does without readers

namespace WalHandle

/-- Demotion, then moves to the sidecar. -/
theorem demoteColdVersions_effect (config : WalConfig) (handle : WalHandle)
    : ∃ middle : WalHandle, (∀ pageId, ColdDemoted config.residentVersionsPerPage
      (handle.index.versions pageId) (middle.index.versions pageId))
      ∧ middle.indexSidecar = handle.indexSidecar ∧ middle.walEndLsn = handle.walEndLsn
      ∧ (handle.index.WellQueued → middle.index.WellQueued)
      ∧ Moved config middle (handle.demoteColdVersions config)
      ∧ (handle.index.WellQueued → (handle.demoteColdVersions config).index.WellQueued) := by
  have rewritten : Rewritten (ColdDemoted config.residentVersionsPerPage)
    handle.index _ := handle.index.demoteCold_rewritten
  have queued (before : handle.index.WellQueued)
    : (handle.index.demoteCold none config.residentVersionsPerPage).WellQueued :=
    rewritten.wellQueued (fun _ _ cold => cold.versions.length_eq.symm) before
  refine ⟨{ handle with index := handle.index.demoteCold none config.residentVersionsPerPage },
    rewritten.versions (ColdDemoted.refl []), rfl, rfl, queued, ?_, ?_⟩
  · unfold demoteColdVersions
    dsimp only
    split
    next => exact .refl config _
    next sidecar present =>
      intro pageId
      have moves := spillExcessHotPagesLocked_moves config
        (handle.index.demoteCold none config.residentVersionsPerPage) sidecar pageId
      rw [← slot_with_index present] at moves
      exact moves
  intro before
  unfold demoteColdVersions
  dsimp only
  split
  next => exact queued before
  next sidecar present => exact spillExcessHotPagesLocked_wellQueued config sidecar (queued before)

/-- Spilling takes no record out of the sidecar. -/
theorem spillExcess_records (hotSetPages turns : Nat) (index : WalIndex) (sidecar : WalIndexSidecar)
    (spilled : sidecar.records[pageId]?.isSome)
    : (spillExcess hotSetPages turns index sidecar).2.1.records[pageId]?.isSome := by
  induction turns generalizing index sidecar with
  | zero => exact spilled
  | succ turns ih =>
    unfold spillExcess
    split
    · exact spilled
    next left gone version took =>
      split
      next written wrote =>
        apply ih
        unfold WalIndexSidecar.writeLatest at wrote
        split at wrote <;> cases wrote
        rw [Std.ExtTreeMap.getElem?_insert]
        split
        · rfl
        · exact spilled
      next => exact spilled

/-- A demotion takes no record out of the sidecar. -/
theorem demoteColdVersions_records (handle : WalHandle)
    (spilled : (handle.sidecarRecord pageId).isSome)
    : ((handle.demoteColdVersions config).sidecarRecord pageId).isSome := by
  unfold demoteColdVersions
  split
  · exact spilled
  next sidecar present =>
    rw [sidecarRecord, present, Option.bind_some] at spilled
    unfold spillExcessHotPagesLocked
    split
    · exact spilled
    · exact spillExcess_records _ _ _ _ spilled

/-- There is nothing to demote or spill in an empty index. -/
theorem demoteColdVersions_empty (empty : handle.index = .empty)
    : (handle.demoteColdVersions config).index = .empty
      ∧ (handle.demoteColdVersions config).indexSidecar = handle.indexSidecar := by
  have demoted : handle.index.demoteCold none config.residentVersionsPerPage = .empty := by
    rw [empty]
    rfl
  unfold demoteColdVersions
  rw [demoted]
  split
  next absent => exact ⟨rfl, rfl⟩
  next sidecar present =>
    rw [present]
    unfold spillExcessHotPagesLocked
    split
    · exact ⟨rfl, rfl⟩
    · exact ⟨rfl, rfl⟩

end WalHandle

end DecentDb.Wal
