import DecentDb.Db.NamedSnapshots
import DecentDb.Wal.PositiveLsns

/-! Named snapshots are immutable as long as no second one is created from `main`. Without
readers every capture follows a full checkpoint, so a snapshot's LSN is 0 and its pages are
those of the main file; the retention floor 0 then blocks every later checkpoint but the one
that the next capture makes.
-/

namespace DecentDb.Db

open Database List Stateful Stateful.Follows Wal WalHandle
open TransitionSystem (System)

variable {config : WalConfig}

/-- The WAL header names the end, there are no readers, and all recorded LSNs are 0. -/
structure Database.Sound (config : WalConfig) (db : Database) : Prop where
  header : HeaderAt db.storage.wal config.pageSize db.wal.walEndLsn
  noReaders : db.wal.readerRegistry.readers = []
  positive : db.wal.PositiveLsns
  heads : ∀ head ∈ db.heads, head.commitLsn = 0

/-- What statements do to a sound database: they append to the WAL, and change at most the
header page of the main file.
-/
structure Written (config : WalConfig) (before after : Database) : Prop where
  snapshots : after.snapshots = before.snapshots
  retained : before.Sound config
    → after.wal.retainedSnapshotLsn = before.wal.retainedSnapshotLsn
  sound : before.Sound config → after.Sound config
  main : before.Sound config → ∀ pageId, pageId ≠ headerPageId
    → after.storage.main pageId = before.storage.main pageId
  grows : before.Sound config → before.wal.walEndLsn ≤ after.wal.walEndLsn

instance : Std.Refl (Written config) where
  refl _ := ⟨rfl, fun _ => rfl, id, fun _ _ _ => rfl, fun _ => Nat.le_refl _⟩

instance : IsTrans Database (Written config) where
  trans _ _ _ left right := {
    snapshots := right.snapshots.trans left.snapshots
    retained := fun sound => (right.retained (left.sound sound)).trans (left.retained sound)
    sound := fun sound => right.sound (left.sound sound)
    main := fun sound pageId other =>
      (right.main (left.sound sound) pageId other).trans (left.main sound pageId other)
    grows := fun sound => Nat.le_trans (left.grows sound) (right.grows (left.sound sound))
  }

-- Statements

variable {db after before middle : Database}

section Statements

variable (config)

/-- The header is written at once, not through the log. -/
theorem setSchemaCookie_follows (header : Option Page)
    : (setSchemaCookie header).Follows (Written config) := by
  intro db
  cases header with
  | none => exact Std.Refl.refl db
  | some page =>
    refine ⟨rfl, fun _ => rfl, fun sound => { sound with },
      fun _ pageId other => ?_, fun _ => Nat.le_refl _⟩
    exact Function.update_of_ne other page db.storage.main

/-- A handle that differs from the one before at most in the index and the sidecar. -/
theorem Database.Sound.of_cacheOnly {after : WalHandle} (sound : db.Sound config)
    (same : CacheOnly db.wal after) (positive : after.PositiveLsns)
    : ({ db with wal := after } : Database).Sound config := by
  refine { sound with header := ?_, noReaders := ?_, positive }
  · rw [show after.walEndLsn = db.wal.walEndLsn from same.walEndLsn]
    exact sound.header
  · rw [show after.readerRegistry = db.wal.readerRegistry from same.readerRegistry]
    exact sound.noReaders

/-- A commit and its demotion. -/
theorem commitPages_written (pages : List (PageId × Page)) (db : Database)
    : Written config db (commitPages config pages db).1
      ∧ (db.Sound config → (commitPages config pages db).2 = .ok ()
        → 0 < (commitPages config pages db).1.wal.walEndLsn) := by
  unfold commitPages
  generalize committed : db.wal.commitPages config db.storage pages = outcome
  obtain ⟨wal, storage, result⟩ := outcome
  have effect := fun sound : db.Sound config => commitPages_effect sound.header committed
  have positive := fun sound : db.Sound config => sound.positive.commitPages sound.header committed
  have written : ∀ after : WalHandle, CacheOnly wal after → (db.Sound config → after.PositiveLsns)
    → Written config db { db with wal := after, storage } := by
    intro after same kept
    refine ⟨rfl, fun sound => ?_, fun sound => ?_, fun sound pageId _ => ?_, fun sound => ?_⟩
    · exact same.retainedSnapshotLsn.trans (effect sound).retainedSnapshotLsn
    · have committed : ({ db with wal, storage } : Database).Sound config :=
        ⟨(effect sound).header, (effect sound).readerRegistry ▸ sound.noReaders, positive sound,
          sound.heads⟩
      exact committed.of_cacheOnly config same (kept sound)
    · rw [(effect sound).main]
    · rw [show after.walEndLsn = wal.walEndLsn from same.walEndLsn]
      exact (effect sound).grows
  cases result with
  | error error => exact ⟨written wal (.refl wal) positive, fun _ failed => nomatch failed⟩
  | ok lsn =>
    have ended := fun sound => Nat.lt_of_lt_of_le (show 0 < walHeaderSize by decide)
      ((effect sound).committed lsn rfl)
    dsimp only
    split
    · have same := wal.demoteColdVersions_cacheOnly config
      refine ⟨written _ same fun sound => (positive sound).demoteColdVersions, fun sound _ => ?_⟩
      rw [show (wal.demoteColdVersions config).walEndLsn = wal.walEndLsn from same.walEndLsn]
      exact ended sound
    · exact ⟨written wal (.refl wal) positive, fun sound _ => ended sound⟩

/-- A statement commits pages and leaves the catalog's snapshots alone. -/
theorem execute_follows (statement : Statement)
    : (execute config statement).Follows (Written config) :=
  (setSchemaCookie_follows config statement.header).bind fun _ db =>
    (commitPages_written config _ db).1

/-- A read changes only the index and the sidecar. -/
theorem readPageAtSnapshotLsn_follows (pageId : PageId) (snapshotLsn : Nat)
    : (readPageAtSnapshotLsn config pageId snapshotLsn).Follows (Written config) := by
  intro db
  have same := db.wal.readPageAtSnapshot_cacheOnly config db.storage pageId snapshotLsn
  have moved := db.wal.readPageAtSnapshot_moved config db.storage pageId snapshotLsn
  refine ⟨rfl, fun _ => same.retainedSnapshotLsn, fun sound => ?_,
    fun _ _ _ => rfl, fun _ => Nat.le_of_eq same.walEndLsn.symm⟩
  exact sound.of_cacheOnly config same (sound.positive.of_moved moved)

variable {config}

/-- A statement that succeeds leaves a WAL that is not empty. -/
theorem walEndLsn_of_execute {statement : Statement}
    (sound : db.Sound config) (executed : execute config statement db = (after, .ok ()))
    : 0 < after.wal.walEndLsn := by
  obtain ⟨middle, _, cookie, committed⟩ := Stateful.bind_eq_ok.mp executed
  have set := setSchemaCookie_follows config statement.header db
  rw [cookie] at set
  have wrote := (commitPages_written config statement.pages middle).2 (set.sound sound)
  rw [committed] at wrote
  exact wrote rfl

end Statements

-- Catalog rows

variable (statements)

/-- Another head does not matter to the log. -/
theorem Database.Sound.addHead (sound : db.Sound config) (headId : String)
    : ({ db with heads := db.heads ++ [{ headId, commitLsn := 0 }] } : Database).Sound config := by
  exact { sound with
    heads := forall_mem_append.mpr ⟨sound.heads, forall_mem_singleton.mpr rfl⟩ }

/-- Making the main branch only writes. -/
theorem bootstrapMainBranch_follows
    : (bootstrapMainBranch config statements).Follows (Written config) := by
  refine (Stateful.Follows.all (execute_follows config) statements).bind fun _ db => ?_
  refine ⟨?_, fun _ => ?_, fun sound => ?_, fun _ _ _ => ?_, fun _ => Nat.le_of_eq ?_⟩
  all_goals unfold Stateful.modify; dsimp only; split
  any_goals rfl
  · exact sound
  · exact sound.addHead _

/-- Adding a head only writes. -/
theorem insertHead_follows (headId : String)
    : (insertHead config statements headId 0).Follows (Written config) := by
  refine (all (execute_follows config) statements).bind fun _ db => ?_
  exact ⟨rfl, fun _ => rfl, fun sound => sound.addHead _, fun _ _ _ => rfl, fun _ => Nat.le_refl _⟩

/-- Statements, and in the end perhaps the row of one more snapshot. -/
inductive Adds (config : WalConfig) (row : NamedSnapshot) (before : Database)
    : Database → Prop where
  | failed {after : Database} (written : Written config before after) : Adds config row before after
  | added {middle : Database} (written : Written config before middle)
    (ended : before.Sound config → 0 < middle.wal.walEndLsn)
    : Adds config row before { middle with snapshots := middle.snapshots ++ [row] }

variable {row snapshot : NamedSnapshot}

/-- What is written before a snapshot is added is part of its adding. -/
theorem Adds.of_written (written : Written config before middle)
    (adds : Adds config row middle after)
    : Adds config row before after := by
  cases adds with
  | failed later => exact .failed (IsTrans.trans _ _ _ written later)
  | added later ended =>
    exact .added (IsTrans.trans _ _ _ written later) fun sound => ended (written.sound sound)

/-- A program that adds a snapshot may write before. -/
theorem Adds.bind {α : Type} {first : DbM α} {rest : α → DbM Unit}
    (head : first.Follows (Written config)) (tail : ∀ value, (rest value).Follows (Adds config row))
    : (first >>= rest).Follows (Adds config row) :=
  head.comp tail (fun _ _ => .failed) fun _ _ _ => .of_written

variable (config) in
/-- Creating a snapshot adds its row to the catalog. -/
theorem createNamedSnapshot_follows (name headId : String) (captured : PageId → DbResult Page)
    (statements : CatalogStatements)
    : (createNamedSnapshot config name headId 0 captured statements).Follows
      (Adds config { name, headId, snapshotLsn := 0, captured }) := by
  refine Adds.bind (.lift _) fun _ => Adds.bind (bootstrapMainBranch_follows _) fun _ =>
    Adds.bind (.read _) fun existing => ?_
  split
  · intro db
    exact .failed (Std.Refl.refl db)
  refine Adds.bind (insertHead_follows _ _) fun _ db => ?_
  have written := execute_follows config statements.row db
  -- The row is there exactly if its statement succeeded.
  refine bind_cases (fun _ _ outcome => ?_) fun _ _ outcome => ?_
  all_goals rw [outcome] at written
  · exact .failed written
  · exact .added written fun sound => walEndLsn_of_execute sound outcome

/-- Creating a branch only writes. -/
theorem createBranch_follows (name headId : String) (statements : CatalogStatements)
    : (createBranch config name headId 0 statements).Follows (Written config) := by
  refine .bind (.lift _) fun _ => ?_
  split
  · exact .lift _
  refine .bind (bootstrapMainBranch_follows _) fun _ => .bind (.read _) fun existing => ?_
  split
  · exact .lift _
  refine .bind (insertHead_follows _ _) fun _ => .bind (execute_follows config _) fun _ db => ?_
  exact ⟨rfl, fun _ => rfl, fun sound => { sound with }, fun _ _ _ => rfl, fun _ => Nat.le_refl _⟩

-- Checkpoints

variable (config) in
/-- Copying back does not touch the log. -/
theorem copybackLatestVersions_wal (handle : WalHandle) (storage : Storage)
    (latestVersions : List (PageId × WalVersion))
    : (handle.copybackLatestVersions config storage latestVersions).1.wal = storage.wal := by
  induction latestVersions generalizing storage with
  | nil => rfl
  | cons entry rest ih =>
    unfold copybackLatestVersions
    split
    · rfl
    next written copied =>
      rw [ih]
      obtain ⟨page, -, wrote⟩ := bind_eq_ok.mp copied
      split at wrote <;> cases wrote
      · rfl

variable {maintenance : PagerMaintenance} {result : DbResult Unit}

/-- A checkpoint keeps a database sound, and one that is not blocked and succeeds leaves an
empty WAL.
-/
theorem checkpointWal_sound (sound : db.Sound config)
    (checked : checkpointWal config maintenance db = (after, result))
    : after.Sound config ∧ after.snapshots = db.snapshots
      ∧ (db.wal.checkpointBlocked = false → result = .ok () → after.wal.walEndLsn = 0) := by
  unfold checkpointWal checkpoint at checked
  by_cases blocked : db.wal.checkpointBlocked = true
  · rw [if_pos blocked] at checked
    cases checked
    refine ⟨{ sound with }, rfl, ?_⟩
    intro free
    rw [free] at blocked
    cases blocked
  rw [if_neg blocked] at checked
  have files := copybackLatestVersions_wal config db.wal db.storage
    (db.wal.collectSidecar db.wal.latestSnapshot (db.wal.collectIndex db.wal.latestSnapshot))
  dsimp only at checked
  generalize db.wal.copybackLatestVersions config db.storage
    (db.wal.collectSidecar db.wal.latestSnapshot (db.wal.collectIndex db.wal.latestSnapshot))
    = outcome at files checked
  obtain ⟨copied, result⟩ := outcome
  cases result with
  | error error =>
    cases checked
    refine ⟨{ sound with header := ?_ }, rfl, nofun⟩
    rw [show copied.wal = db.storage.wal from files]
    exact sound.header
  | ok =>
    cases checked
    refine ⟨⟨HeaderAt.of_encode _ _, sound.noReaders, ?_, sound.heads⟩, rfl, fun _ _ => rfl⟩
    refine .of_empty rfl fun sidecar present => ?_
    obtain ⟨-, -, rfl⟩ := Option.map_eq_some_iff.mp present
    rfl

-- The invariant

/-- Every snapshot reads the main file as it was captured, and while there is one the floor 0
keeps the main file as it is.
-/
structure Database.Immutable (config : WalConfig) (db : Database) : Prop where
  sound : db.Sound config
  pinned : db.snapshots ≠ [] → db.wal.retainedSnapshotLsn = some 0 ∧ 0 < db.wal.walEndLsn
  lsns : ∀ snapshot ∈ db.snapshots, snapshot.snapshotLsn = 0
  images : ∀ snapshot ∈ db.snapshots, ∀ pageId, pageId ≠ headerPageId
    → snapshot.captured pageId = db.storage.readPageFromDisk pageId

namespace Database.Immutable

variable {pageId : PageId}

/-- A retained snapshot reads what it captured. -/
theorem readPage (immutable : db.Immutable config)
    (retained : snapshot ∈ db.snapshots) (other : pageId ≠ headerPageId)
    : db.readPage config pageId snapshot.snapshotLsn = snapshot.captured pageId := by
  rw [immutable.lsns snapshot retained, immutable.images snapshot retained pageId other]
  exact immutable.sound.positive.readPage_zero pageId

/-- Without snapshots there is nothing but the files to keep. -/
theorem of_none (sound : db.Sound config) (none : db.snapshots = []) : db.Immutable config := by
  refine ⟨sound, fun some => absurd none some, ?_, ?_⟩
  · simp [none]
  · simp [none]

/-- A read from disk depends on the one page only. -/
theorem readPageFromDisk_congr {before after : Storage}
    (same : after.main pageId = before.main pageId)
    : after.readPageFromDisk pageId = before.readPageFromDisk pageId := by
  unfold Storage.readPageFromDisk
  rw [same]

variable (immutable : db.Immutable config)
include immutable

/-- Statements change no page that a snapshot reads. -/
theorem of_written (written : Written config db after) : after.Immutable config := by
  refine ⟨written.sound immutable.sound, fun some => ?_, ?_, ?_⟩
  · rw [written.snapshots] at some
    obtain ⟨floor, used⟩ := immutable.pinned some
    exact ⟨(written.retained immutable.sound).trans floor,
      Nat.lt_of_lt_of_le used (written.grows immutable.sound)⟩
  · rw [written.snapshots]
    exact immutable.lsns
  rw [written.snapshots]
  intro snapshot retained pageId other
  rw [immutable.images snapshot retained pageId other]
  exact (readPageFromDisk_congr (written.main immutable.sound pageId other)).symm

/-- While there is a snapshot, its LSN 0 is the smallest one. -/
theorem retainedSnapshotLsn (some : db.snapshots ≠ []) : db.retainedSnapshotLsn = .some 0 := by
  obtain ⟨snapshot, retained⟩ := exists_mem_of_ne_nil _ some
  refine min?_eq_some_iff.mpr ⟨?_, fun _ _ => Nat.zero_le _⟩
  refine mem_append_left _ (mem_map.mpr ⟨snapshot, retained, ?_⟩)
  exact immutable.lsns snapshot retained

/-- Recomputing the retention floor keeps the snapshots. -/
theorem refresh : ((refreshNamedSnapshotRetention db).1).Immutable config := by
  refine ⟨?_, fun some => ⟨?_, (immutable.pinned some).2⟩, immutable.lsns, immutable.images⟩
  · exact { immutable.sound with }
  · exact immutable.retainedSnapshotLsn some

/-- The floor blocks the checkpoint while there is a snapshot. -/
theorem checkpointWal (maintenance : WalHandle.PagerMaintenance)
    : ((Db.checkpointWal config maintenance db).1).Immutable config := by
  by_cases none : db.snapshots = []
  · obtain ⟨sound, same, -⟩ := checkpointWal_sound immutable.sound
      (rfl : Db.checkpointWal config maintenance db = _)
    exact of_none sound (same.trans none)
  obtain ⟨floor, used⟩ := immutable.pinned none
  have blocked : db.wal.checkpointBlocked = true := by
    simp [WalHandle.checkpointBlocked, floor, WalHandle.latestSnapshot, used]
  unfold Db.checkpointWal WalHandle.checkpoint
  rw [if_pos blocked]
  exact { immutable with sound := { immutable.sound with } }

end Database.Immutable

-- Calls that capture nothing

/-- The invariant goes over from one state to the other. -/
def Keeps (config : WalConfig) (before after : Database) : Prop :=
  before.Immutable config → after.Immutable config

instance : Std.Refl (Keeps config) where
  refl _ := id

instance : IsTrans Database (Keeps config) where
  trans _ _ _ left right := fun immutable => right (left immutable)

/-- A program that only writes keeps the snapshots. -/
theorem keeps_of_written {α : Type} {program : DbM α} (follows : program.Follows (Written config))
    : program.Follows (Keeps config) :=
  fun db immutable => immutable.of_written (follows db)

/-- Recomputing the retention floor keeps the snapshots, as a program. -/
theorem refresh_keeps : refreshNamedSnapshotRetention.Follows (Keeps config) :=
  fun _ immutable => immutable.refresh

/-- Deleting a snapshot leaves the others as they are. -/
theorem snapshotDelete_keeps (name : String) (setup : List Statement) (delete : Statement)
    : (snapshotDelete config name setup delete).Follows (Keeps config) := by
  refine .bind (.all (fun statement => keeps_of_written (execute_follows config statement)) setup)
    fun _ => .bind (.lift _) fun _ => .bind (.read _) fun existing => ?_
  split
  · refine .bind (keeps_of_written (execute_follows config delete)) fun _ =>
    .bind (fun db immutable => ?_) fun _ => refresh_keeps
    have sound := immutable.sound
    refine ⟨{ sound with }, fun some => ?_, ?_, ?_⟩
    · refine immutable.pinned fun none => some ?_
      simp [Stateful.modify, none]
    · exact fun snapshot left => immutable.lsns snapshot (mem_of_mem_filter left)
    · exact fun snapshot left => immutable.images snapshot (mem_of_mem_filter left)
  · exact .pure ()

/-- A branch from a given LSN 0. -/
theorem branchFromZero_keeps (name headId : String) (statements : CatalogStatements) : (do
      setRetainedSnapshotLsn (some 0)
      let _ ← readPageAtSnapshotLsn config headerPageId 0
      let result ← (createBranch config name headId 0 statements).attempt
      refreshNamedSnapshotRetention
      .lift result : DbM Unit).Follows (Keeps config) := by
  refine .bind (fun db immutable => ?_) fun _ =>
    .bind (keeps_of_written (readPageAtSnapshotLsn_follows config _ _)) fun _ =>
    .bind (keeps_of_written (createBranch_follows _ _ _).attempt) fun _ =>
    .bind refresh_keeps fun _ => .lift _
  have sound := immutable.sound
  exact ⟨{ sound with },
    fun some => ⟨rfl, (immutable.pinned some).2⟩, immutable.lsns, immutable.images⟩

/-- All recorded LSNs are 0, so every source but `main` has LSN 0. -/
theorem sourceLsnOf_zero {source : String} {lsn : Nat}
    (immutable : db.Immutable config) (found : db.sourceLsnOf source = .ok lsn) : lsn = 0 := by
  have looked : ∀ (headId : String) (error : DbError),
    (db.branchHeadLsnById headId).elim (.error error) .ok = (.ok lsn : DbResult Nat) → lsn = 0 := by
    intro headId error known
    cases lookup : db.branchHeadLsnById headId with
    | none =>
      rw [lookup] at known
      cases known
    | some commitLsn =>
      rw [lookup] at known
      cases known
      obtain ⟨head, listed, rfl⟩ := Option.map_eq_some_iff.mp lookup
      exact immutable.sound.heads head (mem_of_find?_eq_some listed)
  unfold sourceLsnOf at found
  split at found
  next => exact looked _ _ found
  split at found
  next snapshot listed =>
    cases found
    exact immutable.lsns snapshot (mem_of_find?_eq_some listed)
  next => exact looked _ _ found

-- Captures

section

variable (sound : db.Sound config)
include sound

/-- Retaining the current end does not block the checkpoint that follows. -/
theorem capture_sound (checked : checkpointWal config maintenance
      (setRetainedSnapshotLsn (some db.wal.latestSnapshot) db).1 = (after, result))
    : after.Sound config ∧ after.snapshots = db.snapshots
      ∧ (result = .ok () → after.wal.latestSnapshot = 0) := by
  have retained : ((setRetainedSnapshotLsn (some db.wal.latestSnapshot) db).1).Sound config :=
    { sound with }
  obtain ⟨soundAfter, same, ended⟩ := checkpointWal_sound retained checked
  refine ⟨soundAfter, same, ended ?_⟩
  simp [WalHandle.checkpointBlocked, setRetainedSnapshotLsn, Stateful.modify,
    WalHandle.latestSnapshot, ReaderRegistry.minSnapshotLsn, sound.noReaders]

/-- A snapshot that is captured while there is none starts out with the main file's pages. -/
theorem Adds.immutable (none : db.snapshots = [])
    (floor : db.wal.retainedSnapshotLsn = some 0) (lsn : row.snapshotLsn = 0)
    (captured : ∀ pageId, pageId ≠ headerPageId
      → row.captured pageId = db.storage.readPageFromDisk pageId) (adds : Adds config row db after)
    : after.Immutable config := by
  cases adds with
  | failed written => exact .of_none (written.sound sound) (written.snapshots.trans none)
  | @added middle written ended =>
    have rows : middle.snapshots ++ [row] = [row] := by rw [written.snapshots, none]; rfl
    have after := written.sound sound
    refine ⟨{ after with }, fun _ => ⟨?_, ?_⟩, ?_, ?_⟩
    · exact (written.retained sound).trans floor
    · exact ended sound
    · dsimp only
      rw [rows]
      simpa using lsn
    rw [rows]
    intro snapshot only pageId other
    rw [mem_singleton.mp only, captured pageId other]
    exact (Immutable.readPageFromDisk_congr (written.main sound pageId other)).symm

/-- A first snapshot captures what its LSN shows. -/
theorem snapshotCreate_immutable (none : db.snapshots = []) (name headId : String)
    (maintenance : WalHandle.PagerMaintenance) (statements : CatalogStatements)
    : ((snapshotCreate config name headId maintenance statements db).1).Immutable config := by
  unfold snapshotCreate latestSnapshot
  simp only [Stateful.read_bind]
  change (((Db.checkpointWal config maintenance >>= _ : DbM Unit)
    (setRetainedSnapshotLsn (some db.wal.latestSnapshot) db).1).1).Immutable _
  refine bind_cases (fun _ _ outcome => ?_) fun checked _ outcome => ?_
  all_goals obtain ⟨checkedSound, same, atZero⟩ := capture_sound sound outcome
  · exact .of_none checkedSound (same.trans none)
  have noSnapshots := same.trans none
  have zero := atZero rfl
  simp only [read_bind, zero]
  have read := readPageAtSnapshotLsn_follows config headerPageId 0 checked
  refine bind_cases (fun _ _ outcome => ?_) fun looked _ outcome => ?_
  all_goals rw [outcome] at read
  · exact .of_none (read.sound checkedSound) (read.snapshots.trans noSnapshots)
  have retained : ((setRetainedSnapshotLsn (some 0) looked).1).Sound config := by
    have lookedSound := read.sound checkedSound
    exact { lookedSound with }
  have adds := createNamedSnapshot_follows config name headId
    (fun pageId => checked.readPage config pageId 0) statements
    (setRetainedSnapshotLsn (some 0) looked).1
  refine (adds.immutable retained (read.snapshots.trans noSnapshots) rfl rfl ?_).refresh
  intro pageId other
  exact (checkedSound.positive.readPage_zero pageId).trans
    (Immutable.readPageFromDisk_congr (read.main checkedSound pageId other)).symm

end

/-- The database after a capture is immutable, and the LSN of the source is 0. -/
def AtZero (config : WalConfig) (outcome : Database × DbResult Nat) : Prop :=
  outcome.1.Immutable config ∧ ∀ lsn, outcome.2 = .ok lsn → lsn = 0

/-- Without snapshots a new branch starts from an empty log. -/
theorem mainSourceLsn_zero (mainHead : List Statement) (sound : db.Sound config)
    (none : db.snapshots = []) : AtZero config (mainSourceLsn config maintenance mainHead db) := by
  unfold mainSourceLsn latestSnapshot
  simp only [read_bind]
  change AtZero _ ((Db.checkpointWal config maintenance >>= _ : DbM Nat)
    (setRetainedSnapshotLsn (some db.wal.latestSnapshot) db).1)
  refine bind_cases (fun _ _ outcome => ?_) fun checked _ outcome => ?_
  all_goals obtain ⟨checkedSound, same, atZero⟩ := capture_sound sound outcome
  · exact ⟨.of_none checkedSound (same.trans none), nofun⟩
  simp only [read_bind, atZero rfl]
  have written := all (execute_follows config) mainHead checked
  refine bind_cases (fun _ _ outcome => ?_) fun _ _ outcome => ?_
  all_goals
    rw [outcome] at written
    refine ⟨.of_none (written.sound checkedSound) (written.snapshots.trans (same.trans none)), ?_⟩
  · nofun
  · rintro _ ⟨⟩
    rfl

/-- Creating a branch keeps the snapshots; one of the main branch is made while there are none. -/
theorem branchCreate_immutable (immutable : db.Immutable config) {source : Option String}
    (fromMain : source.getD defaultBranchName = defaultBranchName → db.snapshots = [])
    (name headId : String) (maintenance : WalHandle.PagerMaintenance) (mainHead : List Statement)
    (statements : CatalogStatements)
    : ((branchCreate config name headId source maintenance mainHead statements db).1).Immutable
      config := by
  have zero : AtZero config
      (branchSourceLsn config (source.getD defaultBranchName) maintenance mainHead db) := by
    unfold branchSourceLsn
    split
    next isMain => exact mainSourceLsn_zero mainHead immutable.sound (fromMain isMain)
    next => exact ⟨immutable, fun lsn => sourceLsnOf_zero immutable⟩
  unfold branchCreate
  refine bind_cases (fun _ _ outcome => ?_) fun after lsn outcome => ?_
  all_goals
    rw [outcome] at zero
    obtain ⟨kept, atZero⟩ := zero
  · exact kept
  · rw [atZero lsn rfl]
    exact branchFromZero_keeps name headId statements after kept

-- Runs

/-- A capture of `main` waits until there is no snapshot, and the WAL that is recovered is
shorter than its 64-bit offsets allow.
-/
def SnapshotGuard (db : Database) : DbAction → Prop
  | .snapshotCreate .. => db.snapshots.isEmpty
  | .branchCreate _ _ source _ _ _ =>
    source.getD defaultBranchName = defaultBranchName → db.snapshots.isEmpty
  | .reopen _ => db.wal.walEndLsn < 2 ^ 64
  | _ => True

instance (db : Database) (action : DbAction) : Decidable (SnapshotGuard db action) := by
  cases action <;> unfold SnapshotGuard <;> infer_instance

/-- A new database has no snapshots to keep. -/
theorem created_immutable (config : WalConfig) (main : PageId → Page)
    : (created config main).Immutable config := by
  refine .of_none ⟨?_, rfl, ?_, by simp [created]⟩ rfl
  · exact HeaderAt.of_encode ByteFile.empty config.pageSize
  refine .of_empty rfl fun sidecar present => ?_
  change (if config.walIndexHotSetPages = 0 then none else some .empty) = some sidecar at present
  split at present <;> cases present
  · rfl

/-- Reopening keeps the snapshots. -/
theorem reopen_immutable {path : String} (immutable : db.Immutable config)
    (fits : db.wal.walEndLsn < 2 ^ 64) (opened : db.reopen config path = some after)
    : after.Immutable config := by
  unfold reopen at opened
  split at opened <;> cases opened
  next wal storage built =>
    obtain ⟨walEnd, readers, positive, rfl⟩ :=
      buildHandleFromFile_eq_ok immutable.sound.header fits built
    have sound : ({ db with wal } : Database).Sound config := by
      refine ⟨?_, ?_, positive, immutable.sound.heads⟩
      · rw [walEnd]
        exact immutable.sound.header
      · rw [readers]
        rfl
    -- The floor that recovery forgets comes back from the catalog.
    refine ⟨{ sound with }, fun some => ⟨?_, ?_⟩, immutable.lsns, immutable.images⟩
    · exact immutable.retainedSnapshotLsn some
    · exact walEnd ▸ (immutable.pinned some).2

/-- Every guarded step keeps the snapshots. -/
theorem dbSystem_step {action : DbAction} (immutable : db.Immutable config)
    (guarded : SnapshotGuard db action) (stepped : (dbSystem config).next db action = some after)
    : after.Immutable config := by
  cases action with
  | execute statement =>
    cases stepped
    exact immutable.of_written (execute_follows config statement db)
  | readPage pageId snapshotLsn =>
    cases stepped
    exact immutable.of_written (readPageAtSnapshotLsn_follows config pageId snapshotLsn db)
  | checkpointWal maintenance =>
    cases stepped
    exact immutable.checkpointWal maintenance
  | snapshotCreate name headId maintenance statements =>
    cases stepped
    exact snapshotCreate_immutable immutable.sound (isEmpty_iff.mp guarded) _ _ _ _
  | snapshotDelete name setup delete =>
    cases stepped
    exact snapshotDelete_keeps name setup delete db immutable
  | branchCreate name headId source maintenance mainHead statements =>
    cases stepped
    exact branchCreate_immutable immutable (fun isMain => isEmpty_iff.mp (guarded isMain)) _ _ _ _ _
  | reopen path => exact reopen_immutable immutable guarded stepped

/-- In every run in which `main` is captured only while there is no named snapshot, every
named snapshot reads every page but the header page as it was captured.
-/
theorem namedSnapshot_immutable {main : PageId → Page} {actions : List DbAction} {db : Database}
    (ran : (dbSystem config).run (.created config main) actions = some db)
    (guarded : (dbSystem config).Meets SnapshotGuard (.created config main) actions)
    : ∀ snapshot ∈ db.snapshots, ∀ pageId, pageId ≠ headerPageId
      → db.readPage config pageId snapshot.snapshotLsn = snapshot.captured pageId := by
  have immutable := (dbSystem config).run_preserves (Immutable config)
    (fun _ _ _ kept meets stepped => dbSystem_step kept meets stepped)
    (created_immutable config main) guarded ran
  exact fun snapshot retained pageId other => immutable.readPage retained other

/-- The catalog statements of a creation, each committing the given image of page 3. -/
def catalogCommit (mark : UInt8) : CatalogStatements :=
  let statement : Statement := { pages := [(3, markedPage mark)], header := none }
  { setup := [statement], head := [statement], row := statement }

def keepHeader : WalHandle.PagerMaintenance := {
  rewritten := [(headerPageId, markedPage 0)]
  pageCount := none }

/-- A snapshot, a commit of page 2, a checkpoint and recovery. -/
def snapshotThenCommit : List DbAction :=
  [.snapshotCreate "first" "head:first" keepHeader (catalogCommit 1),
    .execute { pages := [(2, markedPage 7)], header := none }, .checkpointWal keepHeader,
    .reopen "db.wal"]

/-- The run above meets the guard, and its snapshot still reads page 2 as it was. -/
theorem namedSnapshot_immutable_of_commit_and_reopen
    : ∃ db, (dbSystem .default).run (.created .default fun _ => markedPage 0) snapshotThenCommit
      = some db ∧ db.snapshots ≠ [] ∧ ∀ snapshot ∈ db.snapshots,
        db.readPage .default 2 snapshot.snapshotLsn = snapshot.captured 2 := by
  refine Evaluation.exists_of_checked (fun db => db.snapshots ≠ []) (by decide +kernel) ?_
  intro db reached some
  refine ⟨some, fun snapshot retained => ?_⟩
  exact namedSnapshot_immutable reached (by decide +kernel) snapshot retained 2 (by decide)

/-- A second snapshot after a commit of page 2: its checkpoint copies the new image over the
one that the first snapshot reads.
-/
theorem namedSnapshot_changes_after_second_snapshot
    : ∃ db, (dbSystem .default).run (.created .default fun _ => markedPage 0)
      [.snapshotCreate "first" "head:first" keepHeader (catalogCommit 1),
        .execute { pages := [(2, markedPage 7)], header := none },
        .snapshotCreate "second" "head:second" keepHeader (catalogCommit 2)] = some db
      ∧ ∃ snapshot ∈ db.snapshots,
        db.readPage .default 2 snapshot.snapshotLsn ≠ snapshot.captured 2 := by
  decide +kernel

end DecentDb.Db
