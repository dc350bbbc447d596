import DecentDb.Library.Lists
import DecentDb.Library.VersionedStore
import DecentDb.Wal.Slots

/-! The commits of the current WAL generation as a ledger of page images, and what the
versions in the index and the sidecar have to do with it.
-/

namespace DecentDb.Wal

open List

open WalIndex (newestAtOrBefore)

/-- One committed page: its version's LSN is where its frame ends, its commit's LSN where
the commit marker does.
-/
structure LedgerEntry where
  lsn : Nat
  commitLsn : Nat
  pageId : PageId
  image : Page

variable (entries : List LedgerEntry) {snapshotLsn other commitLsn : Nat}
  {versions more : List WalVersion}

/-- The newest entry of a page at or below a snapshot. -/
def lastEntry (pageId : PageId) (snapshotLsn : Nat)
    : Option LedgerEntry :=
  entries.reverse.find? fun entry => entry.pageId = pageId ∧ entry.lsn ≤ snapshotLsn

/-- The entries list exactly the writes of the commits. -/
def Describes (spec : VersionedStore PageId Page) : Prop :=
  ∀ snapshot, spec.writesUpTo snapshot
    = (entries.filter (·.commitLsn ≤ snapshot)).map fun entry => (entry.pageId, entry.image)

section Entries

variable {entries more : List LedgerEntry} {pageId : PageId} {spec : VersionedStore PageId Page}

/-- Of later entries the last one wins. -/
theorem lastEntry_append : lastEntry (entries ++ more) pageId snapshotLsn
      = (lastEntry more pageId snapshotLsn).or (lastEntry entries pageId snapshotLsn) := by
  simp [lastEntry]

/-- The last entry is one of the page's, at or before the snapshot. -/
theorem lastEntry_spec {entry : LedgerEntry}
    (found : lastEntry entries pageId snapshotLsn = some entry)
    : entry ∈ entries ∧ entry.pageId = pageId ∧ entry.lsn ≤ snapshotLsn := by
  have holds := find?_some found
  exact ⟨mem_reverse.mp (mem_of_find?_eq_some found), by simpa using holds⟩

/-- At a snapshot that splits no commit, the value is the newest entry's image. -/
theorem Describes.valueAt (describes : Describes entries spec) (pageId : PageId)
    (aligned : ∀ entry ∈ entries, entry.commitLsn ≤ snapshotLsn ↔ entry.lsn ≤ snapshotLsn)
    : spec.valueAt pageId snapshotLsn
      = ((lastEntry entries pageId snapshotLsn).map LedgerEntry.image).getD
        (spec.settled pageId) := by
  have same : entries.filter (·.commitLsn ≤ snapshotLsn) = entries.filter (·.lsn ≤ snapshotLsn) :=
    filter_congr fun entry member => by simp [aligned entry member]
  have found : ((entries.filter (·.lsn ≤ snapshotLsn)).map
    fun entry => (entry.pageId, entry.image)).reverse.find? (·.1 = pageId)
    = (lastEntry entries pageId snapshotLsn).map fun entry => (entry.pageId, entry.image) := by
    rw [← map_reverse, ← filter_reverse, find?_map, find?_filter, lastEntry]
    congr 2
    funext entry
    simp [and_comm]
  rw [VersionedStore.valueAt, describes snapshotLsn, same, found]
  cases lastEntry entries pageId snapshotLsn <;> rfl

/-- The entries of a commit describe what it wrote. -/
theorem Describes.commit (describes : Describes entries spec) {pages : List (PageId × Page)}
    (written : more.map (fun entry => (entry.pageId, entry.image)) = pages)
    (commits : ∀ entry ∈ more, entry.commitLsn = commitLsn)
    : Describes (entries ++ more) (spec.commit commitLsn pages) := by
  intro snapshot
  have old := describes snapshot
  have new : more.filter (·.commitLsn ≤ snapshot) = if commitLsn ≤ snapshot then more else [] := by
    rw [filter_congr (q := fun _ => decide (commitLsn ≤ snapshot))
      fun entry member => by simp [commits entry member]]
    split <;> simp_all
  unfold VersionedStore.writesUpTo at *
  rw [VersionedStore.commit, filter_append, flatMap_append, old, filter_append, map_append, new]
  by_cases visible : commitLsn ≤ snapshot
  · simp [visible, written]
  · simp [visible]

end Entries

-- Versions

section Versions

/-- Of later versions the newest one wins. -/
theorem newestAtOrBefore_append : newestAtOrBefore (versions ++ more) snapshotLsn
      = (newestAtOrBefore more snapshotLsn).or (newestAtOrBefore versions snapshotLsn) := by
  simp [newestAtOrBefore]

/-- A snapshot before all versions sees none. -/
theorem newestAtOrBefore_eq_none_of_lt (later : ∀ version ∈ versions, snapshotLsn < version.lsn)
    : newestAtOrBefore versions snapshotLsn = none := by
  apply find?_eq_none.mpr
  intro version member
  have := later version (mem_reverse.mp member)
  simp
  omega

/-- A snapshot that sees every version sees the last one. -/
theorem newestAtOrBefore_eq_getLast? (seen : ∀ version ∈ versions, version.lsn ≤ snapshotLsn)
    : newestAtOrBefore versions snapshotLsn = versions.getLast? := by
  rw [← head?_reverse, newestAtOrBefore]
  cases shape : versions.reverse with
  | nil => rfl
  | cons last rest =>
    have member : last ∈ versions := mem_reverse.mp (shape ▸ mem_cons_self)
    simp [seen last member]

/-- Snapshots between the same versions see the same. -/
theorem newestAtOrBefore_congr
    (same : ∀ version ∈ versions, version.lsn ≤ snapshotLsn ↔ version.lsn ≤ other)
    : newestAtOrBefore versions snapshotLsn = newestAtOrBefore versions other := by
  unfold newestAtOrBefore
  apply find?_congr_of_mem
  intro version member
  simp [same version (mem_reverse.mp member)]

end Versions

end DecentDb.Wal
