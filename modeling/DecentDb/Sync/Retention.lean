import DecentDb.Library.Lists
import DecentDb.Sync.JournalIntegrity

/-! What a prune may remove from the sync journal. The retention report takes the lowest of the
watermarks that are stored, and a peer that never acknowledged anything has none.
-/

namespace DecentDb.Sync

open Lines (lines)
open List

-- Stored rows

structure SyncSession where
  peerName : String
  remoteReplicaId : Option String
  status : String
  deriving DecidableEq, Repr

structure SyncShapeClient where
  shapeId : String
  clientReplicaId : String
  lastAckWatermark : Nat
  retentionBlocking : Bool
  deriving DecidableEq, Repr

/-- The rows that the report reads, peers by name and sessions by id. The metadata of both
kinds of watermarks are kept by what their keys name.
-/
structure RetentionRows where
  peers : List String
  sessions : List SyncSession
  peerWatermarks : List (String × String)
  peerOutWatermarks : List (String × String)
  shapeClients : List SyncShapeClient
  deriving DecidableEq, Repr

-- Watermarks

/-- Decimal digits after an optional plus sign, of a value that fits. -/
def parseU64 (text : String) : Option Nat :=
  let digits := match text.toList with
    | '+' :: rest => rest
    | all => all
  if digits.isEmpty || !digits.all Char.isDigit then none
  else
    let value := digits.foldl (fun value digit => 10 * value + (digit.toNat - '0'.toNat)) 0
    if value < UInt64.size then some value else none

def parseWatermark (what text : String) : DbResult Nat :=
  match parseU64 text with
  | some watermark => .ok watermark
  | none => .error (.sql s!"invalid {what}")

def readWatermark (what : String) (metadata : List (String × String)) (key : String)
    : DbResult (Option Nat) :=
  match metadata.lookup key with
  | some text => do
    let watermark ← parseWatermark what text
    .ok (some watermark)
  | none => .ok none

structure SyncPeerLag where
  peerName : String
  remoteReplicaId : Option String
  inWatermark : Option Nat
  outWatermark : Option Nat
  deriving DecidableEq, Repr

/-- What a peer adds to the watermarks: nothing for the ones it has not. -/
def SyncPeerLag.watermarkEntries (peer : SyncPeerLag) : List (String × Nat) :=
  let inbound := match peer.remoteReplicaId, peer.inWatermark with
    | some remoteReplicaId, some watermark => [(s!"remote:{remoteReplicaId}", watermark)]
    | _, _ => []
  inbound ++ (peer.outWatermark.map fun watermark => (peer.peerName, watermark)).toList

structure SyncRetentionReport where
  safePruneThrough : Option Nat
  blockedBy : List String
  deriving DecidableEq, Repr

/-- The order of the entries, by label and then by watermark. -/
def EntryLe (left right : String × Nat) : Prop :=
  left.1 < right.1 ∨ left.1 = right.1 ∧ left.2 ≤ right.2

instance : DecidableRel EntryLe := fun _ _ => inferInstanceAs (Decidable (_ ∨ _))

/-- All lines that are not blank, malformed ones too. -/
def totalRecords (file : List UInt8) : Nat :=
  ((lines newline file).filter fun line => !(trim line).isEmpty).length

namespace RetentionRows

variable (rows : RetentionRows)

def syncPeerWatermark (replicaId : String) : DbResult (Option Nat) :=
  readWatermark "peer watermark value" rows.peerWatermarks replicaId

section

variable (peerName : String)

def syncPeerOutWatermark : DbResult (Option Nat) :=
  readWatermark "peer outbound watermark value" rows.peerOutWatermarks peerName

/-- The remote replica of the peer's latest successful session. -/
def latestSuccessfulRemoteReplicaId : Option String :=
  (rows.sessions.reverse.find? fun session =>
    session.status = "success" && session.peerName = peerName).bind (·.remoteReplicaId)

def inWatermark : Option String → DbResult (Option Nat)
  | some replicaId => rows.syncPeerWatermark replicaId
  | none => .ok none

def syncPeerLag : DbResult SyncPeerLag := do
  let remoteReplicaId := rows.latestSuccessfulRemoteReplicaId peerName
  let inWatermark ← rows.inWatermark remoteReplicaId
  let outWatermark ← rows.syncPeerOutWatermark peerName
  .ok { peerName, remoteReplicaId, inWatermark, outWatermark }

end

def syncPeerWatermarkEntries : DbResult (List (String × Nat)) :=
  rows.peerWatermarks.mapM fun (replicaId, text) => do
    let watermark ← parseWatermark s!"peer watermark value for replica '{replicaId}'" text
    .ok (s!"remote:{replicaId}", watermark)

def shapeClientEntries : List (String × Nat) :=
  (rows.shapeClients.filter (·.retentionBlocking)).map fun client =>
    (s!"shape:{client.shapeId}:client:{client.clientReplicaId}", client.lastAckWatermark)

def syncPeerLagReport : DbResult (List SyncPeerLag) :=
  rows.peers.mapM rows.syncPeerLag

def watermarkEntries : DbResult (List (String × Nat)) := do
  let peerLag ← rows.syncPeerLagReport
  let stored ← rows.syncPeerWatermarkEntries
  let entries := peerLag.flatMap (·.watermarkEntries) ++ stored ++ rows.shapeClientEntries
  .ok (entries.insertionSort EntryLe).dedup

section Journal

variable [JournalCodec]

def syncRetentionReport (file : List UInt8) : DbResult SyncRetentionReport := do
  let entries ← rows.watermarkEntries
  if totalRecords file = 0 then .ok { safePruneThrough := none, blockedBy := [] }
  else
    let lowest := (entries.map (·.2)).min?
    .ok {
      safePruneThrough := lowest.bind fun lowest => if lowest = 0 then none else some (lowest - 1)
      blockedBy := match lowest, lastSequence file with
        | some lowest, some localHigh =>
          if lowest ≤ localHigh then (entries.filter (·.2 = lowest)).map (·.1) else []
        | _, _ => []
    }

/-- A prune as a handle asks for it: the request takes its bound from the report. -/
def syncPruneJournal (through : Nat) (dryRun allowDataLoss : Bool) (fault : Option FileFault)
    (file : List UInt8) (context : Option SyncContext)
    : List UInt8 × Option SyncContext × DbResult (Option Nat) :=
  match rows.syncRetentionReport file with
  | .error error => (file, context, .error error)
  | .ok report =>
    Sync.syncPruneJournal
      ⟨through, dryRun, allowDataLoss, report.safePruneThrough, report.blockedBy⟩ fault file context

end Journal

end RetentionRows

-- The bound of the report

variable {rows : RetentionRows} {file after : List UInt8} {report : SyncRetentionReport}
  {through watermark sequence : Nat} {entries : List (String × Nat)}

/-- A peer with a watermark is counted. -/
theorem mem_watermarkEntries_of_peer {peer : String}
    (collected : rows.watermarkEntries = .ok entries)
    (member : peer ∈ rows.peers) (stored : rows.syncPeerOutWatermark peer = .ok (some watermark))
    : (peer, watermark) ∈ entries := by
  obtain ⟨peerLag, lagged, collected⟩ := bind_eq_ok.mp collected
  obtain ⟨others, _, collected⟩ := bind_eq_ok.mp collected
  cases collected
  obtain ⟨found, foundMember, ran⟩ := (Results.mapM_ok lagged).exists_of_mem member
  obtain ⟨_, _, ran⟩ := bind_eq_ok.mp ran
  rw [stored] at ran
  cases ran
  simp only [mem_dedup, mem_insertionSort, mem_append, mem_flatMap]
  exact .inl (.inl ⟨_, foundMember, by simp [SyncPeerLag.watermarkEntries]⟩)

/-- A shape client that blocks retention is counted. -/
theorem mem_watermarkEntries_of_client {client : SyncShapeClient}
    (collected : rows.watermarkEntries = .ok entries) (member : client ∈ rows.shapeClients)
    (blocking : client.retentionBlocking)
    : ∃ label, (label, client.lastAckWatermark) ∈ entries := by
  obtain ⟨peerLag, _, collected⟩ := bind_eq_ok.mp collected
  obtain ⟨others, _, collected⟩ := bind_eq_ok.mp collected
  cases collected
  simp only [mem_dedup, mem_insertionSort, mem_append]
  exact ⟨_, .inr (mem_map.mpr ⟨client, mem_filter.mpr ⟨member, blocking⟩, rfl⟩)⟩

section Journal

variable [JournalCodec] {fault : Option FileFault}

/-- A bound that the report calls safe is below every watermark that was collected. -/
theorem le_watermark_of_safe {entry : String × Nat}
    (reported : rows.syncRetentionReport file = .ok report)
    (collected : rows.watermarkEntries = .ok entries) (member : entry ∈ entries)
    (safe : through ≤ report.safePruneThrough.getD 0)
    : through ≤ entry.2 := by
  rw [RetentionRows.syncRetentionReport, collected, ok_bind] at reported
  split at reported <;> cases reported
  next => exact Nat.le_trans safe (Nat.zero_le _)
  have entryMember := mem_map_of_mem (f := (·.2)) member
  cases lowest : (entries.map (·.2)).min? with
  | none =>
    rw [min?_eq_none_iff.mp lowest] at entryMember
    cases entryMember
  | some least =>
    have bound := (min?_eq_some_iff.mp lowest).2 _ entryMember
    simp only [lowest, Option.bind_some] at safe
    split at safe <;> simp at safe <;> omega

/-- Every peer has acknowledged the sequence, one without a watermark none above 0, and so
has every client that blocks retention.
-/
def RetentionRows.Acknowledged (rows : RetentionRows) (sequence : Nat) : Prop :=
  (∀ peer ∈ rows.peers, ∀ watermark, rows.syncPeerOutWatermark peer = .ok watermark
    → sequence ≤ watermark.getD 0)
    ∧ ∀ client ∈ rows.shapeClients, client.retentionBlocking
      → sequence ≤ client.lastAckWatermark

/-- What the report calls safe was acknowledged by everyone, unless a peer has no watermark yet. -/
theorem acknowledged_of_safe (reported : rows.syncRetentionReport file = .ok report)
    (safe : sequence ≤ report.safePruneThrough.getD 0)
    (known : ∀ peer ∈ rows.peers, rows.syncPeerOutWatermark peer ≠ .ok none)
    : rows.Acknowledged sequence := by
  obtain ⟨entries, collected, _⟩ := bind_eq_ok.mp reported
  constructor
  · intro peer member watermark stored
    cases watermark with
    | none => exact absurd stored (known peer member)
    | some watermark =>
      exact le_watermark_of_safe reported collected
        (mem_watermarkEntries_of_peer collected member stored) safe
  · intro client member blocking
    obtain ⟨label, entryMember⟩ := mem_watermarkEntries_of_client collected member blocking
    exact le_watermark_of_safe reported collected entryMember safe

-- What a prune leaves

/-- A rewrite that succeeds leaves exactly the retained records. -/
theorem rewriteJournal_ok {retained : List SyncJournalRecord} {context kept : Option SyncContext}
    (rewritten : rewriteJournal retained fault file context = (after, kept, .ok ()))
    : after = encodeRecords retained := by
  unfold rewriteJournal at rewritten
  split at rewritten
  next => cases rewritten
  dsimp only at rewritten
  split at rewritten <;> cases rewritten
  next written =>
    unfold writeAllAt at written
    split at written <;> cases written
    exact writeAt_truncated file _

section

variable {records : List SyncJournalRecord} (read : readJournalRecords file 0 none = .ok records)
include read

/-- Records that are read have positive sequences. -/
theorem sequence_pos_of_read : ∀ record ∈ records, 0 < record.sequence := by
  obtain ⟨all, _, rfl⟩ := map_eq_ok.mp read
  intro record member
  exact of_decide_eq_true (mem_filter.mp member).2

/-- A prune that returns without an error and is no dry run was allowed, and leaves the records
above its bound in the file.
-/
theorem syncPruneJournal_ok {request : PruneRequest}
    {context kept : Option SyncContext} {outcome : Option Nat}
    (encodable : ∀ record ∈ records, JournalCodec.canEncode record) (real : request.dryRun = false)
    (pruned : syncPruneJournal request fault file context = (after, kept, .ok outcome))
    : (request.allowDataLoss = false → request.through ≤ request.safePruneThrough.getD 0)
      ∧ readJournalRecords after 0 none = .ok (records.filter (request.through < ·.sequence)) := by
  by_cases refused : !request.allowDataLoss ∧ request.safePruneThrough.getD 0 < request.through
  · rw [syncPruneJournal, planPrune, if_pos refused] at pruned
    cases pruned
  · rw [syncPruneJournal, planPrune, if_neg refused, read, ok_bind] at pruned
    refine ⟨fun careful => by simpa [careful] using refused, ?_⟩
    by_cases unchanged : request.dryRun
        || (records.filter (request.through < ·.sequence)).length = records.length
    · simp only [unchanged, if_true] at pruned
      cases pruned
      rw [real, Bool.false_or, decide_eq_true_eq, length_filter_eq_length_iff] at unchanged
      rw [read, filter_eq_self.mpr unchanged]
    · simp only [unchanged, Bool.false_eq_true, if_false] at pruned
      split at pruned <;> cases pruned
      next written _ rewritten =>
        rw [rewriteJournal_ok rewritten]
        exact readJournalRecords_encode
          (fun record member => encodable record (mem_of_mem_filter member))
          (fun record member => sequence_pos_of_read read record (mem_of_mem_filter member))

end

/-- What was read before and after a prune that the report allowed, and that a removed record
was acknowledged by all exactly if no peer without a stored watermark had records to lose.
-/
theorem prune_acknowledged_iff {fault : Option FileFault} {context kept : Option SyncContext}
    {outcome : Option Nat} {records : List SyncJournalRecord}
    (read : readJournalRecords file 0 none = .ok records)
    (encodable : ∀ record ∈ records, JournalCodec.canEncode record)
    (pruned : rows.syncPruneJournal through false false fault file context
      = (after, kept, .ok outcome))
    : ∃ left, readJournalRecords after 0 none = .ok left
      ∧ left = records.filter (through < ·.sequence)
      ∧ ((∀ record ∈ records, record ∉ left → rows.Acknowledged record.sequence)
        ↔ ∀ peer ∈ rows.peers, rows.syncPeerOutWatermark peer = .ok none
          → ∀ record ∈ records, record ∈ left) := by
  unfold RetentionRows.syncPruneJournal at pruned
  split at pruned
  next => cases pruned
  next report reported =>
    obtain ⟨allowed, leaves⟩ := syncPruneJournal_ok read encodable rfl pruned
    refine ⟨_, leaves, rfl, ?_, ?_⟩
    · intro acknowledged peer member absent record recordMember
      by_contra removed
      have bound := (acknowledged record recordMember removed).1 peer member none absent
      have positive := sequence_pos_of_read read record recordMember
      exact lt_irrefl 0 (lt_of_lt_of_le positive bound)
    intro known record recordMember removed
    have bound : record.sequence ≤ through := by
      by_contra above
      exact removed (mem_filter.mpr ⟨recordMember, decide_eq_true (lt_of_not_ge above)⟩)
    refine acknowledged_of_safe reported (le_trans bound (allowed rfl)) ?_
    intro peer member absent
    exact removed (known peer member absent record recordMember)

end Journal

-- A peer that never acknowledged

def acknowledgedRows : RetentionRows where
  peers := ["a", "b"]
  sessions := [⟨"a", some "r", "success"⟩]
  peerWatermarks := [("r", "7")]
  peerOutWatermarks := [("a", "2"), ("b", "3")]
  shapeClients := [⟨"s", "c", 2, true⟩, ⟨"s", "d", 0, false⟩]

/-- The journal with the sequences 1 and 2. -/
def pairJournal : List UInt8 :=
  letI := plainCodec
  encodeRecords [plainRecord 1, plainRecord 2]

/-- Both peers have acknowledged the record that is removed. -/
theorem prune_acknowledged_iff_one : letI := plainCodec
      ∃ left, readJournalRecords
          (acknowledgedRows.syncPruneJournal 1 false false none pairJournal none).1 0 none = .ok left
        ∧ ∀ record ∈ [plainRecord 1, plainRecord 2], record ∉ left
          → acknowledgedRows.Acknowledged record.sequence := by
  let _ := plainCodec
  have pruned : acknowledgedRows.syncPruneJournal 1 false false none pairJournal none
      = (encodeRecords [plainRecord 2], none, .ok (some 1)) := by
    decide +kernel
  obtain ⟨left, read, -, iff⟩ := prune_acknowledged_iff rfl (by decide) pruned
  refine ⟨left, pruned ▸ read, iff.mpr ?_⟩
  have known : ∀ peer ∈ acknowledgedRows.peers,
      acknowledgedRows.syncPeerOutWatermark peer ≠ .ok none := by
    decide +kernel
  exact fun peer member absent => absurd absent (known peer member)

/-- The peer `b` is registered and has acknowledged nothing. -/
def silentRows : RetentionRows := { acknowledgedRows with peerOutWatermarks := [("a", "2")] }

/-- The record with the sequence 1 is removed although `b` never acknowledged it. -/
theorem prune_unacknowledged_counterexample : letI := plainCodec
      silentRows.syncPruneJournal 1 false false none pairJournal none
        = (encodeRecords [plainRecord 2], none, .ok (some 1))
      ∧ "b" ∈ silentRows.peers ∧ silentRows.syncPeerOutWatermark "b" = .ok none
      ∧ ¬ silentRows.Acknowledged 1 := by
  let _ := plainCodec
  have absent : silentRows.syncPeerOutWatermark "b" = .ok none := by decide +kernel
  refine ⟨by decide +kernel, by decide, absent, ?_⟩
  intro acknowledged
  have bound := acknowledged.1 "b" (by decide) none absent
  exact absurd bound (by decide)

end DecentDb.Sync
