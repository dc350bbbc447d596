import DecentDb.Identifiers
import DecentDb.Library.Stateful
import DecentDb.Wal.Recovery
import DecentDb.Wal.System

/-! Named snapshots and branches over the WAL: their catalog rows, the retention floor that
is computed from them, and the calls that create and delete them.
-/

namespace DecentDb.Db

open Wal

def defaultBranchName : String := "main"
def defaultHeadId : String := "head:main:bootstrap"

/-- A row of `__decentdb_snapshots`. -/
structure NamedSnapshot where
  name : String
  headId : String
  snapshotLsn : Nat
  /-- What every page read as when the LSN was captured; no function reads it. -/
  captured : PageId → DbResult Page

/-- A row of `__decentdb_branch_heads`. -/
structure BranchHead where
  headId : String
  commitLsn : Nat
  deriving DecidableEq, Repr

/-- A row of `__decentdb_branches` other than the one of `main`. -/
structure BranchInfo where
  name : String
  currentHeadId : String
  deriving DecidableEq, Repr

/-- One open database and its files. -/
structure Database where
  wal : WalHandle
  storage : Storage
  snapshots : List NamedSnapshot
  heads : List BranchHead
  branches : List BranchInfo

/-- What an SQL statement that changes the database does to its pages. A new schema cookie
goes directly into the header page of the main file, everything else through the WAL.
-/
structure Statement where
  pages : List (PageId × Page)
  header : Option Page

abbrev DbM := Stateful Database DbError

-- Storage operations

section Storage

variable (config : WalConfig)

def latestSnapshot : DbM Nat := .read fun db => db.wal.latestSnapshot

def setRetainedSnapshotLsn (snapshotLsn : Option Nat) : DbM Unit :=
  .modify fun db => { db with wal := { db.wal with retainedSnapshotLsn := snapshotLsn } }

def setSchemaCookie (header : Option Page) : DbM Unit :=
  .modify fun db =>
    match header with
    | none => db
    | some page => { db with storage := db.storage.writePage headerPageId page }

/-- A commit, and the demotion that follows it if there is something to demote. -/
def commitPages (pages : List (PageId × Page)) : DbM Unit := fun db =>
  match db.wal.commitPages config db.storage pages with
  | (wal, storage, .error error) => ({ db with wal, storage }, .error error)
  | (wal, storage, .ok _) =>
    if wal.shouldDemoteColdVersions config ∧ wal.readerFree then
      ({ db with wal := wal.demoteColdVersions config, storage }, .ok ())
    else ({ db with wal, storage }, .ok ())

def execute (statement : Statement) : DbM Unit := do
  setSchemaCookie statement.header
  commitPages config statement.pages

def checkpointWal (maintenance : WalHandle.PagerMaintenance) : DbM Unit := fun db =>
  let (wal, storage, result) := db.wal.checkpoint config db.storage maintenance
  ({ db with wal, storage }, result)

/-- `read_page_at_snapshot`, else the main file. -/
def Database.readPage (db : Database) (pageId : PageId) (snapshotLsn : Nat) : DbResult Page :=
  db.wal.readPage config db.storage pageId snapshotLsn

/-- A read, with what it does to the index and the sidecar. -/
def readPageAtSnapshotLsn (pageId : PageId) (snapshotLsn : Nat) : DbM Page := fun db =>
  let (wal, _) := db.wal.readPageAtSnapshot config db.storage pageId snapshotLsn
  ({ db with wal }, db.readPage config pageId snapshotLsn)

end Storage

-- The catalog

def validateUserName (name kind : String) : DbResult Unit :=
  let trimmed := trim name
  if trimmed.isEmpty then .error (.sql s!"{kind} name must not be empty")
  else if trimmed ≠ name.toList then
    .error (.sql s!"{kind} name must not contain leading or trailing whitespace")
  else .ok ()

namespace Database

variable (db : Database)

def snapshotByName (name : String) : Option NamedSnapshot :=
  db.snapshots.find? (·.name = name)

def branchByName (name : String) : Option BranchInfo :=
  db.branches.find? (·.name = name)

def branchHeadLsnById (headId : String) : Option Nat :=
  (db.heads.find? (·.headId = headId)).map BranchHead.commitLsn

/-- The smallest LSN that a snapshot or the head of a branch needs. -/
def retainedSnapshotLsn : Option Nat :=
  (db.snapshots.map NamedSnapshot.snapshotLsn
    ++ db.branches.filterMap fun branch => db.branchHeadLsnById branch.currentHeadId).min?

end Database

def refreshNamedSnapshotRetention : DbM Unit :=
  .modify fun db =>
    { db with wal := { db.wal with retainedSnapshotLsn := db.retainedSnapshotLsn } }

section Calls

variable (config : WalConfig) (statements : List Statement)

/-- The statements that create the catalog tables and the row of `main`, if need be. -/
def bootstrapMainBranch : DbM Unit := do
  .all (execute config) statements
  .modify fun db =>
    if (db.branchHeadLsnById defaultHeadId).isSome then db
    else { db with heads := db.heads ++ [{ headId := defaultHeadId, commitLsn := 0 }] }

/-- The catalog statements of a call that adds a snapshot or a branch: those that set the
catalog up, those that add the manifest and the head, and the one that adds the row.
-/
structure CatalogStatements where
  setup : List Statement
  head : List Statement
  row : Statement

/-- The head and its manifest, for a head id that carries the time of the call. -/
def insertHead (headId : String) (commitLsn : Nat) : DbM Unit := do
  .all (execute config) statements
  .modify fun db => { db with heads := db.heads ++ [{ headId, commitLsn }] }

variable (name headId : String)

def createNamedSnapshot (snapshotLsn : Nat)
    (captured : PageId → DbResult Page) (statements : CatalogStatements) : DbM Unit := do
  .lift (validateUserName name "snapshot")
  bootstrapMainBranch config statements.setup
  let existing ← .read (·.snapshotByName name)
  if existing.isSome then .lift (.error (.sql s!"snapshot '{name}' already exists"))
  else
    insertHead config statements.head headId snapshotLsn
    execute config statements.row
    .modify fun db =>
      { db with snapshots := db.snapshots ++ [{ name, headId, snapshotLsn, captured }] }

variable (maintenance : WalHandle.PagerMaintenance)

def snapshotCreate (statements : CatalogStatements) : DbM Unit := do
  let initialLsn ← latestSnapshot
  setRetainedSnapshotLsn (some initialLsn)
  checkpointWal config maintenance
  let snapshotLsn ← latestSnapshot
  let captured ← .read fun db pageId => db.readPage config pageId snapshotLsn
  let _ ← readPageAtSnapshotLsn config headerPageId snapshotLsn
  setRetainedSnapshotLsn (some snapshotLsn)
  let result ← (createNamedSnapshot config name headId snapshotLsn captured statements).attempt
  refreshNamedSnapshotRetention
  .lift result

def snapshotDelete (name : String) (setup : List Statement) (delete : Statement) : DbM Unit := do
  .all (execute config) setup
  .lift (validateUserName name "snapshot")
  let existing ← .read (·.snapshotByName name)
  if existing.isSome then
    execute config delete
    .modify fun db => { db with snapshots := db.snapshots.filter (·.name ≠ name) }
    refreshNamedSnapshotRetention
  else pure ()

def createBranch (sourceLsn : Nat) (statements : CatalogStatements) : DbM Unit := do
  .lift (validateUserName name "branch")
  if name = defaultBranchName then .lift (.error (.sql "branch 'main' already exists"))
  else
    bootstrapMainBranch config statements.setup
    let existing ← .read (·.branchByName name)
    if existing.isSome then .lift (.error (.sql s!"branch '{name}' already exists"))
    else
      insertHead config statements.head headId sourceLsn
      execute config statements.row
      .modify fun db => { db with branches := db.branches ++ [{ name, currentHeadId := headId }] }

/-- The LSN of a branch, a named snapshot or a head. -/
def Database.sourceLsnOf (db : Database) (source : String) : DbResult Nat :=
  match db.branchByName source with
  | some branch =>
    (db.branchHeadLsnById branch.currentHeadId).elim
      (.error (.transaction s!"branch '{source}' has no current head")) .ok
  | none =>
    match db.snapshotByName source with
    | some snapshot => .ok snapshot.snapshotLsn
    | none =>
      (db.branchHeadLsnById source).elim
        (.error (.transaction s!"unknown branch, snapshot, or head '{source}'")) .ok

/-- The LSN of `main`, captured like the one of a snapshot. -/
def mainSourceLsn (mainHead : List Statement)
    : DbM Nat := do
  let initialLsn ← latestSnapshot
  setRetainedSnapshotLsn (some initialLsn)
  checkpointWal config maintenance
  let sourceLsn ← latestSnapshot
  .all (execute config) mainHead
  pure sourceLsn

def branchSourceLsn (source : String) (maintenance : WalHandle.PagerMaintenance)
    (mainHead : List Statement) : DbM Nat :=
  if source = defaultBranchName then mainSourceLsn config maintenance mainHead
  else do
    let found ← .read (·.sourceLsnOf source)
    .lift found

def branchCreate (source : Option String)
    (maintenance : WalHandle.PagerMaintenance) (mainHead : List Statement)
    (statements : CatalogStatements) : DbM Unit := do
  let sourceLsn ← branchSourceLsn config (source.getD defaultBranchName) maintenance mainHead
  setRetainedSnapshotLsn (some sourceLsn)
  let _ ← readPageAtSnapshotLsn config headerPageId sourceLsn
  let result ← (createBranch config name headId sourceLsn statements).attempt
  refreshNamedSnapshotRetention
  .lift result

end Calls

-- The system

inductive DbAction where
  | execute (statement : Statement)
  | readPage (pageId : PageId) (snapshotLsn : Nat)
  | checkpointWal (maintenance : WalHandle.PagerMaintenance)
  | snapshotCreate (name headId : String) (maintenance : WalHandle.PagerMaintenance)
    (statements : CatalogStatements)
  | snapshotDelete (name : String) (setup : List Statement) (delete : Statement)
  | branchCreate (name headId : String) (source : Option String)
    (maintenance : WalHandle.PagerMaintenance) (mainHead : List Statement)
    (statements : CatalogStatements)
  | reopen (path : String)

section System

variable (config : WalConfig)

/-- A database on an empty WAL over the given main file. -/
def Database.created (main : PageId → Page) : Database :=
  {
    wal := (WalState.opened config main).handle
    storage := (WalState.opened config main).storage
    snapshots := []
    heads := []
    branches := []
  }

/-- Recovery of the WAL, and the retention floor from the catalog. -/
def Database.reopen (db : Database) (path : String) : Option Database :=
  match buildHandleFromFile config path false db.storage with
  | .error _ => none
  | .ok (wal, storage) => some (refreshNamedSnapshotRetention { db with wal, storage }).1

/-- The calls on one database, one after the other; a call that fails is a step as well. -/
def dbSystem : TransitionSystem.System Database DbAction where
  next db
    | .execute statement => some (execute config statement db).1
    | .readPage pageId snapshotLsn => some (readPageAtSnapshotLsn config pageId snapshotLsn db).1
    | .checkpointWal maintenance => some (checkpointWal config maintenance db).1
    | .snapshotCreate name headId maintenance statements =>
      some (snapshotCreate config name headId maintenance statements db).1
    | .snapshotDelete name setup delete => some (snapshotDelete config name setup delete db).1
    | .branchCreate name headId source maintenance mainHead statements =>
      some (branchCreate config name headId source maintenance mainHead statements db).1
    | .reopen path => db.reopen config path

end System

end DecentDb.Db
