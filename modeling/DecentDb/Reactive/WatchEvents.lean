import DecentDb.Reactive.Hub
import Mathlib.Data.List.Nodup

/-! What the queue of a watch has told about: the event of a commit, or one event in place of
those that were dropped.
-/

namespace DecentDb.Reactive

open List WatchEvent

open TransitionSystem (System)

variable {Data Result Phase : Type} {maxRows key : Nat} {entries : List (Nat × Phase)}
  {phase : Option Phase} {entry : Nat × Phase}

-- Processes

/-- An entry after a replacement is the new one or an old one under another key. -/
theorem mem_replace (member : entry ∈ replace entries key phase)
    : (entry.1 = key ∧ phase = some entry.2) ∨ (entry.1 ≠ key ∧ entry ∈ entries) := by
  cases phase with
  | none => exact .inr (by simpa [replace, and_comm] using member)
  | some phase =>
    rw [replace] at member
    rcases mem_cons.mp member with rfl | other
    · exact .inl ⟨rfl, rfl⟩
    · exact .inr (by simpa [and_comm] using other)

/-- Entries under other keys stay. -/
theorem mem_replace_of_ne (member : entry ∈ entries) (other : entry.1 ≠ key)
    : entry ∈ replace entries key phase := by
  cases phase <;> simp [replace, member, other]

/-- The new entry is there. -/
theorem mem_replace_self (entries : List (Nat × Phase)) (key : Nat) (phase : Phase)
    : (key, phase) ∈ replace entries key (some phase) := by
  rw [replace]
  exact mem_cons_self

/-- What is looked up is an entry. -/
theorem mem_of_lookup {phase : Phase} (found : entries.lookup key = some phase)
    : (key, phase) ∈ entries := by
  obtain ⟨before, after, same, _⟩ := lookup_eq_some_iff.mp found
  simp [same]

/-- A replacement keeps the keys distinct. -/
theorem replace_distinct (distinct : (entries.map (·.1)).Nodup) (key : Nat) (phase : Option Phase)
    : ((replace entries key phase).map (·.1)).Nodup := by
  have others : ((entries.filter fun entry => entry.1 ≠ key).map (·.1)).Nodup :=
    distinct.sublist (filter_sublist.map _)
  cases phase with
  | none =>
    rw [replace]
    exact others
  | some phase =>
    rw [replace]
    refine nodup_cons.mpr ⟨?_, others⟩
    simp

-- What a watch has learned

variable (watch : Watch Data Result)

/-- All the events that were put into the queue and not dropped from it. -/
def Watch.history : List (WatchEvent Result) :=
  watch.received ++ watch.events

def Watch.eventIds : List Nat :=
  watch.history.filterMap WatchEvent.eventId

/-- The watch has the event of the commit, or one that says that events up to its id are
missing.
-/
def Watch.Learned (assigned : List (Nat × Nat)) (watch : Watch Data Result) (lsn : Nat) : Prop :=
  (∃ eventId, .invalidate eventId lsn ∈ watch.history)
    ∨ ∃ eventId lastSeen latest latestLsn,
      (lsn, eventId) ∈ assigned ∧ .lagged lastSeen latest latestLsn ∈ watch.history
        ∧ eventId ≤ latest

/-- Whether a watch is to be told about the commit. -/
def WatchFilter.wants (maxRows : Nat) (filter : WatchFilter Data Result) (commit : Commit Data)
    : Bool :=
  (takeReactivePendingCommit maxRows true commit).any fun pending =>
    filter.matches pending.changedTables pending.rowChanges pending.schemaChanged

/-- The transaction wrote to a table of the user's. -/
def Commit.Changes (commit : Commit Data) (table : String) : Prop :=
  (table ∈ commit.dirtyTables ∧ Sync.isInternalTableName table = false)
    ∨ ∃ change ∈ commit.rowChanges, change.table = table

variable (filter : WatchFilter Data Result) {commit : Commit Data}
  {state after : ReactiveState Data Result} {watchId eventId lsn earlier found : Nat}
  {update : Watch Data Result → Watch Data Result} {watch : Watch Data Result}
  {assigned more : List (Nat × Nat)}

/-- The transaction wrote to a watched table. For a range it also has to have no captured row
changes or one whose key the range includes: a write whose change has no such key, as an update
that moves a key out of the range, does not concern a range watch.
-/
def WatchFilter.Concerns (commit : Commit Data) : Prop :=
  match filter with
  | .tables watched | .query watched _ => ∃ table ∈ watched, commit.Changes table
  | .range keys => commit.Changes keys.table
    ∧ (commit.rowChanges = [] ∨ ∃ change ∈ commit.rowChanges, keys.includesChange change)

/-- What the initial event of a watch carries besides the LSN. -/
def WatchFilter.resultAt (data : Data) : Option Result :=
  match filter with
  | .query _ evaluate => some (evaluate data)
  | _ => none

/-- A change of a table is among the pending changes, with all row changes or none. -/
theorem Commit.Changes.taken {table : String} (changes : commit.Changes table) (maxRows : Nat)
    : ∃ pending, takeReactivePendingCommit maxRows true commit = some pending
      ∧ table ∈ pending.changedTables
      ∧ (pending.rowChanges = [] ∨ pending.rowChanges = commit.rowChanges) := by
  have changed : table ∈ (commit.dirtyTables.filter fun table => !Sync.isInternalTableName table)
    ++ commit.rowChanges.map (·.table) := by
    rcases changes with ⟨dirty, isUser⟩ | ⟨change, member, rfl⟩
    · exact mem_append_left _ (mem_filter.mpr ⟨dirty, by rw [isUser]; rfl⟩)
    · exact mem_append_right _ (mem_map_of_mem member)
  have notEmpty := isEmpty_eq_false_iff_exists_mem.mpr ⟨table, changed⟩
  rw [takeReactivePendingCommit]
  simp only [Bool.not_true, notEmpty, Bool.false_and, Bool.false_eq_true, if_false]
  refine ⟨_, rfl, changed, ?_⟩
  split
  · exact .inl rfl
  · exact .inr rfl

/-- A watch wants the commits that concern it. -/
theorem WatchFilter.Concerns.wants {filter : WatchFilter Data Result}
    (concerns : filter.Concerns commit)
    : filter.wants maxRows commit := by
  have listed : ∀ watched : List String, (∃ table ∈ watched, commit.Changes table)
    → ∃ pending, takeReactivePendingCommit maxRows true commit = some pending
      ∧ (pending.schemaChanged || pending.changedTables.any fun table => watched.contains table)
        := by
    rintro watched ⟨table, isWatched, changes⟩
    obtain ⟨pending, isPending, changed, -⟩ := changes.taken maxRows
    refine ⟨pending, isPending, ?_⟩
    rw [Bool.or_eq_true]
    exact .inr (any_eq_true.mpr ⟨table, changed, contains_iff_mem.mpr isWatched⟩)
  cases filter with
  | tables watched | query watched evaluate =>
    obtain ⟨pending, isPending, isMatch⟩ := listed watched concerns
    rw [WatchFilter.wants, isPending]
    exact isMatch
  | range keys =>
    obtain ⟨changes, inRange⟩ := concerns
    obtain ⟨pending, isPending, changed, rowChanges⟩ := changes.taken maxRows
    rw [WatchFilter.wants, isPending]
    have rows : (pending.rowChanges.isEmpty || pending.rowChanges.any keys.includesChange)
      := by
      rcases rowChanges with none | all
      · simp [none]
      rcases inRange with none | ⟨change, member, includes⟩
      · simp [all, none]
      · rw [all, Bool.or_eq_true]
        exact .inr (any_eq_true.mpr ⟨change, member, includes⟩)
    have table : (pending.schemaChanged || pending.changedTables.any (· = keys.table)) := by
      rw [Bool.or_eq_true]
      exact .inr (any_eq_true.mpr ⟨_, changed, by simp⟩)
    rw [Option.any_some, WatchFilter.matches, table, rows]
    rfl

structure Watch.Sound (state : ReactiveState Data Result) (watch : Watch Data Result) : Prop where
  snapshot : watch.snapshotLsn ≤ state.latestLsn
  result : watch.result = watch.filter.resultAt (state.dataAt watch.snapshotLsn)
  initial : ∀ snapshotLsn result, .initial snapshotLsn result ∈ watch.history
    → snapshotLsn = watch.snapshotLsn ∧ result = watch.result
  increasing : watch.eventIds.Pairwise (· < ·)
  bounded : ∀ eventId ∈ watch.eventIds, eventId ≤ state.nextEventId
  known : ∀ eventId lsn, .invalidate eventId lsn ∈ watch.history
    → (lsn, eventId) ∈ state.assigned

namespace Watch

/-- A receive does not change what was delivered. -/
theorem tryRecv_history (watch : Watch Data Result) : watch.tryRecv.history = watch.history := by
  unfold tryRecv
  split
  next => rfl
  next event rest queued => simp [history, queued]

/-- A receive does not change the delivered ids. -/
theorem tryRecv_eventIds (watch : Watch Data Result) : watch.tryRecv.eventIds = watch.eventIds := by
  rw [eventIds, eventIds, tryRecv_history]

/-- The queue changes; what the watch is about does not. -/
def SameSubject (watch updated : Watch Data Result) : Prop :=
  updated.id = watch.id ∧ updated.filter = watch.filter
    ∧ updated.snapshotLsn = watch.snapshotLsn ∧ updated.result = watch.result

/-- A receive does not change what is watched. -/
theorem tryRecv_same (watch : Watch Data Result) : watch.SameSubject watch.tryRecv := by
  unfold tryRecv
  split <;> exact ⟨rfl, rfl, rfl, rfl⟩

/-- An event does not change what is watched. -/
theorem enqueue_same (watch : Watch Data Result) (event : WatchEvent Result) (eventId lsn : Nat)
    : watch.SameSubject (watch.enqueue event eventId lsn) := by
  unfold enqueue
  split <;> exact ⟨rfl, rfl, rfl, rfl⟩

/-- An offered commit does not change what is watched. -/
theorem offer_same (watch : Watch Data Result) (pending : PendingReactiveCommit) (eventId lsn : Nat)
    : watch.SameSubject (watch.offer pending eventId lsn) := by
  unfold offer
  split
  · exact watch.enqueue_same _ _ _
  · exact ⟨rfl, rfl, rfl, rfl⟩

/-- Receiving an event moves it from the queue to those received. -/
theorem Sound.tryRecv (sound : watch.Sound state) : watch.tryRecv.Sound state := by
  obtain ⟨-, filter, snapshot, result⟩ := watch.tryRecv_same
  have ids := watch.tryRecv_eventIds
  refine ⟨?_, ?_, ?_, ?_, ?_, ?_⟩
  · rw [snapshot]
    exact sound.snapshot
  · rw [result, filter, snapshot]
    exact sound.result
  · rw [tryRecv_history, snapshot, result]
    exact sound.initial
  · rw [ids]
    exact sound.increasing
  · rw [ids]
    exact sound.bounded
  · rw [tryRecv_history]
    exact sound.known

/-- The event goes behind the others, or what is queued is dropped for a single event. -/
theorem enqueue_history (watch : Watch Data Result) (event : WatchEvent Result) (eventId lsn : Nat)
    : (watch.enqueue event eventId lsn).history = watch.history ++ [event]
      ∨ (watch.enqueue event eventId lsn).history
        = watch.received ++ [.lagged watch.lastDeliveredEventId eventId lsn] := by
  unfold enqueue
  split
  · exact .inr rfl
  · exact .inl (by simp [history])

/-- Whoever gets the event of a commit, or a lag that covers it, has learned of it. -/
theorem enqueue_learned (watch : Watch Data Result) (isAssigned : (lsn, eventId) ∈ assigned)
    : (watch.enqueue (.invalidate eventId lsn) eventId lsn).Learned assigned lsn := by
  rcases watch.enqueue_history (.invalidate eventId lsn) eventId lsn with queued | dropped
  · refine .inl ⟨eventId, ?_⟩
    simp [queued]
  · refine .inr ⟨eventId, watch.lastDeliveredEventId, eventId, lsn, isAssigned, ?_, Nat.le_refl _⟩
    simp [dropped]

/-- The id of a delivered event is one of the delivered ids. -/
theorem mem_eventIds_of_mem {event : WatchEvent Result}
    (member : event ∈ watch.history) (named : event.eventId = some found)
    : found ∈ watch.eventIds :=
  mem_filterMap.mpr ⟨event, member, named⟩

/-- What was learned before is still known: a dropped event is older than the one that says
so.
-/
theorem Learned.enqueue (learned : watch.Learned assigned earlier)
    (known : ∀ found lsn, .invalidate found lsn ∈ watch.history → (lsn, found) ∈ assigned)
    (newer : ∀ found ∈ watch.eventIds, found < eventId)
    : (watch.enqueue (.invalidate eventId lsn) eventId lsn).Learned assigned earlier := by
  rcases watch.enqueue_history (.invalidate eventId lsn) eventId lsn with queued | dropped
  · rcases learned with ⟨found, member⟩ | ⟨found, seen, latest, latestLsn, isAssigned, member, le⟩
    · exact .inl ⟨found, by rw [queued]; exact mem_append_left _ member⟩
    · exact .inr ⟨found, seen, latest, latestLsn, isAssigned,
        by rw [queued]; exact mem_append_left _ member, le⟩
  have lagged : lagged watch.lastDeliveredEventId eventId lsn
      ∈ (watch.enqueue (.invalidate eventId lsn) eventId lsn).history := by
    rw [dropped]
    exact mem_append_right _ mem_cons_self
  rcases learned with ⟨found, member⟩ | ⟨found, seen, latest, latestLsn, isAssigned, member, le⟩
  · exact .inr ⟨found, _, _, _, known found earlier member, lagged,
      Nat.le_of_lt (newer found (mem_eventIds_of_mem member rfl))⟩
  · exact .inr ⟨found, _, _, _, isAssigned, lagged, Nat.le_trans le
      (Nat.le_of_lt (newer latest (mem_eventIds_of_mem member rfl)))⟩

/-- The new event has the highest id. -/
theorem Sound.enqueue (sound : watch.Sound state)
    (isAssigned : (lsn, state.nextEventId) ∈ state.assigned)
    (newer : ∀ found ∈ watch.eventIds, found < state.nextEventId)
    : (watch.enqueue (.invalidate state.nextEventId lsn) state.nextEventId lsn).Sound state := by
  obtain ⟨-, filter, snapshot, result⟩ :=
    watch.enqueue_same (.invalidate state.nextEventId lsn) state.nextEventId lsn
  -- either way the ids are some of the old ones and then the new one
  have events : ∃ older, older.Sublist watch.history ∧ ∃ last : WatchEvent Result,
    (watch.enqueue (.invalidate state.nextEventId lsn) state.nextEventId lsn).history
      = older ++ [last]
    ∧ last.eventId = some state.nextEventId
    ∧ (∀ snapshotLsn result, last ≠ .initial snapshotLsn result)
    ∧ ∀ found lsn, last = .invalidate found lsn → (lsn, found) ∈ state.assigned := by
    rcases watch.enqueue_history (.invalidate state.nextEventId lsn) state.nextEventId lsn with
      queued | dropped
    · refine ⟨watch.history, Sublist.refl _, _, queued, rfl, nofun, ?_⟩
      rintro found other ⟨⟩
      exact isAssigned
    · exact ⟨watch.received, sublist_append_left _ _, _, dropped, rfl, nofun, nofun⟩
  obtain ⟨older, sublist, last, appended, named, notInitial, lastKnown⟩ := events
  have ids : (watch.enqueue (.invalidate state.nextEventId lsn) state.nextEventId lsn).eventIds
    = older.filterMap eventId ++ [state.nextEventId] := by
    rw [eventIds, appended, filterMap_append]
    simp [named]
  have olderIds : (older.filterMap eventId).Sublist watch.eventIds := sublist.filterMap eventId
  refine ⟨?_, ?_, ?_, ?_, ?_, ?_⟩
  · rw [snapshot]
    exact sound.snapshot
  · rw [result, filter, snapshot]
    exact sound.result
  · intro snapshotLsn initialResult member
    rw [appended] at member
    rw [snapshot, result]
    rcases mem_append.mp member with old | new
    · exact sound.initial _ _ (sublist.subset old)
    · exact absurd (mem_singleton.mp new).symm (notInitial _ _)
  · rw [ids]
    refine pairwise_append.mpr ⟨sound.increasing.sublist olderIds, pairwise_singleton _ _, ?_⟩
    intro found member other new
    rw [mem_singleton.mp new]
    exact newer found (olderIds.subset member)
  · rw [ids]
    intro found member
    rcases mem_append.mp member with old | new
    · exact Nat.le_of_lt (newer found (olderIds.subset old))
    · exact Nat.le_of_eq (mem_singleton.mp new)
  intro found other member
  rw [appended] at member
  rcases mem_append.mp member with old | new
  · exact sound.known _ _ (sublist.subset old)
  · exact lastKnown _ _ (mem_singleton.mp new).symm

/-- Offering a newer event keeps the ids of a watch increasing and assigned. -/
theorem Sound.offer (sound : watch.Sound state) (pending : PendingReactiveCommit)
    (isAssigned : (lsn, state.nextEventId) ∈ state.assigned)
    (newer : ∀ found ∈ watch.eventIds, found < state.nextEventId)
    : (watch.offer pending state.nextEventId lsn).Sound state := by
  unfold Watch.offer
  split
  · exact sound.enqueue isAssigned newer
  · exact sound

/-- A later event does not take back what a watch has learned. -/
theorem Learned.offer (learned : watch.Learned assigned earlier) (pending : PendingReactiveCommit)
    (known : ∀ found lsn, .invalidate found lsn ∈ watch.history → (lsn, found) ∈ assigned)
    (newer : ∀ found ∈ watch.eventIds, found < eventId)
    : (watch.offer pending eventId lsn).Learned assigned earlier := by
  unfold Watch.offer
  split
  · exact learned.enqueue known newer
  · exact learned

/-- A watch stays sound while commits and events are added. -/
theorem Sound.frame (sound : watch.Sound state) (lsn : state.latestLsn ≤ after.latestLsn)
    (data : ∀ snapshot, snapshot ≤ state.latestLsn → after.dataAt snapshot = state.dataAt snapshot)
    (ids : state.nextEventId ≤ after.nextEventId) (assigned : state.assigned ⊆ after.assigned)
    : watch.Sound after := by
  refine ⟨Nat.le_trans sound.snapshot lsn, ?_, sound.initial, sound.increasing, ?_, ?_⟩
  · rw [data _ sound.snapshot]
    exact sound.result
  · exact fun found member => Nat.le_trans (sound.bounded found member) ids
  · exact fun found lsn member => assigned (sound.known found lsn member)

/-- More assigned ids do not take back what a watch has learned. -/
theorem Learned.mono (learned : watch.Learned assigned lsn) (subset : assigned ⊆ more)
    : watch.Learned more lsn := by
  rcases learned with ⟨found, member⟩ | ⟨found, seen, latest, latestLsn, isAssigned, member, le⟩
  · exact .inl ⟨found, member⟩
  · exact .inr ⟨found, seen, latest, latestLsn, subset isAssigned, member, le⟩

end Watch

-- One watch of many

section

/-- An update changes the one watch and keeps the others. -/
theorem mem_updateWatch {updated : Watch Data Result}
    (member : updated ∈ (state.updateWatch watchId update).watches)
    : ∃ watch ∈ state.watches, (watch.id = watchId ∧ updated = update watch)
      ∨ (watch.id ≠ watchId ∧ updated = watch) := by
  obtain ⟨watch, inside, isUpdated⟩ := mem_map.mp member
  refine ⟨watch, inside, ?_⟩
  split at isUpdated
  next same => exact .inl ⟨same, isUpdated.symm⟩
  next different => exact .inr ⟨different, isUpdated.symm⟩

/-- An update that keeps the id keeps all ids. -/
theorem updateWatch_ids (keeps : ∀ watch : Watch Data Result, (update watch).id = watch.id)
    : (state.updateWatch watchId update).watches.map (·.id) = state.watches.map (·.id) := by
  simp only [ReactiveState.updateWatch, map_map]
  refine map_congr_left fun watch _ => ?_
  simp only [Function.comp]
  split
  · exact keeps watch
  · rfl

/-- An update adds and removes no watch. -/
theorem updateWatch_isEmpty
    : (state.updateWatch watchId update).watches.isEmpty = state.watches.isEmpty := by
  simp [ReactiveState.updateWatch]

end

end DecentDb.Reactive
