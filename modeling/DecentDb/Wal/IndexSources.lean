import DecentDb.Wal.PositiveLsns
import DecentDb.Wal.WrittenLog

/-! Where the bases of deltas come from: a resident version holds an image that was committed
for its page, whatever was moved, demoted or spilled since.
-/

namespace DecentDb.Wal

open List WalHandle

open Overlays (Edit fromAnyImage)

/-- The bytes that the version holds in memory are allowed. -/
def WalVersion.ResidentIn (allowed : Page → Prop) (version : WalVersion) : Prop :=
  ∀ data walOffset frameLen encoding,
    version.payload = .resident data walOffset frameLen encoding → allowed data

variable {allowed : Page → Prop} {config : WalConfig}

/-- A demotion brings no bytes in. -/
theorem WalVersion.ResidentIn.of_demotes {before after : WalVersion}
    (resident : before.ResidentIn allowed) (demotes : before.DemotesTo after)
    : after.ResidentIn allowed := by
  rcases demotes with rfl | rfl
  · exact resident
  · obtain ⟨lsn, payload⟩ := before
    cases payload <;> exact nofun

/-- Moves between the index and the sidecar bring no bytes back, by induction on the moves. -/
theorem PageMoves.residentIn {before after : PageSlot} (moves : PageMoves config before after)
    (residents : ∀ version ∈ before.versions, version.ResidentIn allowed)
    : ∀ version ∈ after.versions, version.ResidentIn allowed := by
  induction moves with
  | refl => exact residents
  | tail _ move ih =>
    cases move with
    | spill => exact nofun
    | promote record =>
      intro version member
      rw [mem_singleton.mp member]
      exact nofun
    | clear => exact ih

/-- Every version that holds its page in memory holds an allowed image. -/
def WalHandle.ResidentsIn (allowed : PageId → Page → Prop) (handle : WalHandle) : Prop :=
  ∀ pageId, ∀ version ∈ handle.index.versions pageId, version.ResidentIn (allowed pageId)

variable {after handle : WalHandle} {snapshotLsn pageSize walOffset frameLen : Nat}
  {pageId : PageId} {image : Page} {allowed offers : PageId → Page → Prop}

namespace WalHandle

/-- Moving versions brings no bytes in. -/
theorem ResidentsIn.of_moved (residents : handle.ResidentsIn allowed)
    (moved : Moved config handle after) : after.ResidentsIn allowed :=
  fun pageId => (moved pageId).residentIn (residents pageId)

/-- Demoting versions brings no bytes in. -/
theorem ResidentsIn.of_demotes (residents : handle.ResidentsIn allowed)
    (demotes : ∀ pageId, Forall₂ WalVersion.DemotesTo (handle.index.versions pageId)
      (after.index.versions pageId))
    : after.ResidentsIn allowed := by
  intro pageId version member
  obtain ⟨old, listed, demoted⟩ := (demotes pageId).flip.exists_of_mem member
  exact (residents pageId old listed).of_demotes demoted

/-- Freeing memory demotes versions one by one. -/
theorem demoteResidentVersions_demotes (handle : WalHandle) (targetBytes : Nat) (pageId : PageId)
    : Forall₂ WalVersion.DemotesTo (handle.index.versions pageId)
      ((handle.demoteResidentVersions targetBytes).index.versions pageId) :=
  ((handle.index.demoteHighPageIdsResidentBytes_rewritten targetBytes).versions .nil
    pageId).imp fun _ _ full => full.imp id And.left

/-- A published page is resident with the image of its edit, by induction on the pages. -/
theorem publishPages_residentsIn {edits : List PageEdit} {frames : List WalFrame}
    {prepared : List PreparedWalPage} (run : PreparedEdits pageSize offers edits frames prepared)
    (retainHistory : Bool) (startLsn : Nat) (index : WalIndex)
    (residents : ∀ pageId, ∀ version ∈ index.versions pageId, version.ResidentIn (allowed pageId))
    (added : ∀ edit ∈ edits, allowed edit.1 edit.2.image) (pageId : PageId)
    : ∀ version ∈ (publishPages config retainHistory startLsn index prepared).versions pageId,
      version.ResidentIn (allowed pageId) := by
  induction run with
  | nil => exact residents pageId
  | @snoc edits frames prepared edit frame next run last base ih =>
    obtain ⟨earlier, new⟩ := forall_mem_append.mp added
    have before := ih earlier
    have image := forall_mem_singleton.mp new
    rw [publishPages_append]
    intro version member
    rw [versions_publishPage] at member
    have fresh (lsn : Nat) : (preparedPageVersion next lsn).1.ResidentIn (allowed edit.1) := by
      unfold preparedPageVersion
      split
      · exact nofun
      next data encoding made =>
        rintro _ _ _ _ ⟨⟩
        rw [last.resident data encoding made]
        exact image
    split at member
    next same =>
      rw [last.pageId] at same
      subst same
      split at member
      · rcases mem_append.mp member with old | added
        · exact before version old
        · rw [mem_singleton.mp added]
          exact fresh _
      · rw [mem_singleton.mp member]
        exact fresh _
    next => exact before version member

-- Bases

/-- A usable base is the main file's page, or the bytes of the newest visible version. -/
theorem usable_basePage {storage : Storage} {base : WalBasePage}
    (read : handle.basePage config storage snapshotLsn pageId = .ok base)
    (usable : usableBase config base = some image)
    : (handle.index.latestVisible pageId snapshotLsn = none ∧ pageId ≠ 0
      ∧ image = storage.main pageId) ∨ ∃ version walOffset frameLen encoding,
        handle.index.latestVisible pageId snapshotLsn = some version
        ∧ version.payload = .resident image walOffset frameLen encoding
        ∧ canEncodeAgainstResidentWalBase config := by
  unfold basePage at read
  cases newest : handle.index.latestVisible pageId snapshotLsn with
  | none =>
    rw [newest] at read
    dsimp only at read
    unfold Storage.readPageFromDisk at read
    by_cases zero : pageId = 0
    · rw [if_pos zero] at read
      cases read
      cases usable
    · rw [if_neg zero] at read
      cases read
      exact .inl ⟨rfl, zero, (Option.some.inj usable).symm⟩
  | some version =>
    rw [newest] at read
    dsimp only at read
    obtain ⟨page, materialized, found⟩ := bind_eq_ok.mp read
    cases found
    obtain ⟨lsn, payload⟩ := version
    cases payload with
    | onDisk => cases usable
    | resident data walOffset frameLen encoding =>
      cases materialized
      change (if canEncodeAgainstResidentWalBase config then some page else none) = some image
        at usable
      split at usable <;> cases usable
      next chained => exact .inr ⟨_, walOffset, frameLen, encoding, rfl, rfl, chained⟩

/-- The bytes of a resident version that is used as a base are allowed. -/
theorem ResidentsIn.latestVisible (residents : handle.ResidentsIn allowed) {version : WalVersion}
    {encoding : FrameEncoding}
    (newest : handle.index.latestVisible pageId snapshotLsn = some version)
    (resident : version.payload = .resident image walOffset frameLen encoding)
    : allowed pageId image :=
  residents pageId version (mem_reverse.mp (mem_of_find?_eq_some newest)) _ _ _ _
    resident

end WalHandle

-- Any committed image

/-- A resident version holds an image that was committed for its page. -/
abbrev ResidentsCommitted (edits : List PageEdit) (handle : WalHandle) : Prop :=
  handle.ResidentsIn fun pageId image => image ∈ (editsOf pageId edits).map Edit.image

/-- Whatever the configuration and the interleaving, a delta is made against the main file's
page or an image that was committed before.
-/
theorem indexRule_fromAnyImage {main : PageId → Page}
    (mainPages : ∀ pageId, (main pageId).length = config.pageSize)
    : IndexRule config main fromAnyImage (fun _ _ => True) ResidentsCommitted where
  same residents index _ _ := by
    intro pageId
    rw [index]
    exact residents pageId
  read residents storage pageId snapshotLsn :=
    residents.of_moved (readPageAtSnapshot_moved config _ storage pageId snapshotLsn)
  demote {_ handle} residents := by
    obtain ⟨middle, cold, -, -, -, moved, -⟩ := handle.demoteColdVersions_effect config
    exact (residents.of_demotes fun pageId => (cold pageId).versions).of_moved moved
  demoteResident {_ handle} residents targetBytes :=
    residents.of_demotes (handle.demoteResidentVersions_demotes targetBytes)
  lookup {edits handle storage pages _ _} residents sized mainFile _ looked := by
    have sound : LookupSound config storage handle.walEndLsn
      (fun pageId => fromAnyImage (main pageId) (editsOf pageId edits)) pages
      (ResidentsCommitted edits) := ⟨?_, ?_⟩
    · exact sound.lookupBasePages (fun _ listed => listed) residents looked
    · intro handle residents page _
      exact residents.of_moved (handle.lookupBasePage_moved config storage _ page.1)
    intro before residents page _ base found _ image usable
    have consulted := residents.of_moved
      (before.consultSidecar_moved config handle.walEndLsn page.1)
    rcases usable_basePage (basePage_of_lookupBasePage found) usable with
      ⟨-, -, rfl⟩ | ⟨version, _, _, _, newest, resident, -⟩
    · rw [mainFile]
      exact ⟨.inl rfl, mainPages page.1⟩
    · have committed := consulted.latestVisible newest resident
      obtain ⟨edit, listed, rfl⟩ := mem_map.mp committed
      exact ⟨.inr committed, (sized _ (mem_editsOf.mp listed)).image⟩
  publish {edits _ more _ _ _} residents run _ _ := by
    refine publishPages_residentsIn run _ _ _ (fun pageId version member => ?_) ?_
    · intro data walOffset frameLen encoding resident
      rw [editsOf_append, map_append]
      exact mem_append_left _ (residents pageId version member _ _ _ _ resident)
    · intro edit member
      rw [editsOf_append, map_append]
      exact mem_append_right _ (mem_map_of_mem (mem_editsOf.mpr member))

end DecentDb.Wal
