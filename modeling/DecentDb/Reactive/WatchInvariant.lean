import DecentDb.Reactive.WatchEvents

/-! The invariant of watches, commits under way and watches being created, and how the steps of
a committer up to its event id keep it.
-/

namespace DecentDb.Reactive

open List

variable {Data Result : Type} {maxRows lsn committer key watchId : Nat}
  {after state following : ReactiveState Data Result} {phase : CommitPhase Data}
  {next : Option (CommitPhase Data)}

-- The invariant

def CommitPhase.isPublishing : CommitPhase Data → Bool
  | .publishing _ _ _ _ => true
  | _ => false

/-- The commit will still be offered to the watch. -/
def CommitPhase.carries (lsn watchId : Nat) : CommitPhase Data → Prop
  | .taken _ _ => False
  | .committed own _ => own = lsn
  | .publishing own _ _ remaining => own = lsn ∧ watchId ∈ remaining

/-- The changes that were taken are those of the commit, and an event under way is newer than
all events of the watches that still wait for it.
-/
def CommitPhase.Faithful (maxRows : Nat) (state : ReactiveState Data Result)
    : CommitPhase Data → Prop
  | .taken commit pending =>
    pending = takeReactivePendingCommit maxRows (!state.watches.isEmpty) commit
  | .committed lsn pending =>
    ∃ commit, (lsn, commit) ∈ state.commits
      ∧ pending = takeReactivePendingCommit maxRows (!state.watches.isEmpty) commit
  | .publishing lsn eventId pending remaining =>
    eventId = state.nextEventId ∧ (lsn, eventId) ∈ state.assigned ∧ remaining.Nodup
      ∧ (∃ commit, (lsn, commit) ∈ state.commits
        ∧ takeReactivePendingCommit maxRows true commit = some pending)
      ∧ ∀ watch ∈ state.watches, watch.id ∈ remaining
        → ∀ found ∈ watch.eventIds, found < eventId

/-- A commit under way stays faithful while the watches have the events they had. -/
theorem CommitPhase.Faithful.frame
    (faithful : phase.Faithful maxRows state)
    (watched : after.watches.isEmpty = state.watches.isEmpty)
    (commits : state.commits ⊆ after.commits) (assigned : state.assigned ⊆ after.assigned)
    (events : phase.isPublishing → after.nextEventId = state.nextEventId
      ∧ ∀ watch ∈ after.watches, ∃ earlier ∈ state.watches,
        earlier.id = watch.id ∧ earlier.eventIds = watch.eventIds)
    : phase.Faithful maxRows after := by
  cases phase with
  | taken commit pending =>
    rw [Faithful, watched]
    exact faithful
  | committed lsn pending =>
    obtain ⟨commit, logged, isPending⟩ := faithful
    rw [Faithful, watched]
    exact ⟨commit, commits logged, isPending⟩
  | publishing lsn eventId pending remaining =>
    obtain ⟨current, isAssigned, distinct, ⟨commit, logged, isPending⟩, newer⟩ := faithful
    obtain ⟨sameId, sameEvents⟩ := events rfl
    refine ⟨current.trans sameId.symm, assigned isAssigned, distinct,
      ⟨commit, commits logged, isPending⟩, ?_⟩
    intro watch member waiting
    obtain ⟨earlier, inside, id, ids⟩ := sameEvents watch member
    rw [← ids]
    exact newer earlier inside (id ▸ waiting)

/-- A phase stays faithful while the watches are the same and commits and ids are only added. -/
theorem CommitPhase.Faithful.frame_watches
    (faithful : phase.Faithful maxRows state) (watches : after.watches = state.watches)
    (commits : state.commits ⊆ after.commits) (assigned : state.assigned ⊆ after.assigned)
    (ids : phase.isPublishing → after.nextEventId = state.nextEventId)
    : phase.Faithful maxRows after :=
  faithful.frame (by rw [watches]) commits assigned fun publishing =>
    ⟨ids publishing, fun watch member => ⟨watch, watches ▸ member, rfl, rfl⟩⟩

/-- What a creation has seen is still what is committed. -/
def Creation.UpToDate (state : ReactiveState Data Result) : Creation Data Result → Prop
  | .queried _ evaluate _ result => result = evaluate state.data
  | .ready filter _ result snapshotLsn =>
    snapshotLsn = state.latestLsn ∧ result = filter.resultAt state.data

structure Consistent (maxRows : Nat) (state : ReactiveState Data Result) : Prop where
  current : ∀ snapshot, state.latestLsn ≤ snapshot → state.dataAt snapshot = state.data
  logged : ∀ entry ∈ state.commits, entry.1 ≤ state.latestLsn
  unique : (state.commits.map (·.1)).Nodup
  quiet : state.creations ≠ [] → state.committers = []
  creation : ∀ entry ∈ state.creations, entry.2.UpToDate state
  keys : (state.committers.map (·.1)).Nodup
  phase : ∀ entry ∈ state.committers, entry.2.Faithful maxRows state
  publisher : ∀ entry ∈ state.committers, ∀ other ∈ state.committers,
    entry.2.isPublishing → other.2.isPublishing → entry.1 = other.1
  watchIds : (state.watches.map (·.id)).Nodup
  numbered : ∀ watch ∈ state.watches, watch.id ≤ state.nextWatchId
  watch : ∀ watch ∈ state.watches, watch.Sound state
  delivered : ∀ entry ∈ state.commits, ∀ watch ∈ state.watches,
    watch.snapshotLsn < entry.1 → watch.filter.wants maxRows entry.2
    → watch.Learned state.assigned entry.1
      ∨ ∃ process ∈ state.committers, process.2.carries entry.1 watch.id

/-- A transaction takes its changes while no watch is being created, a creation starts while
no commit is under way, and an event id is assigned after the last event is out.
-/
def Orderly (state : ReactiveState Data Result) : ReactiveAction Data Result → Prop
  | .take _ _ => state.creations.isEmpty
  | .assign _ => ∀ entry ∈ state.committers, entry.2.isPublishing = false
  | .runQuery _ _ _ _ | .observe _ _ _ => state.committers.isEmpty
  | .commit _ _ | .enqueue _ | .readLsn _ | .createWatch _ | .receive _ => True

instance (state : ReactiveState Data Result) (action : ReactiveAction Data Result)
    : Decidable (Orderly state action) := by
  cases action <;> unfold Orderly <;> infer_instance

/-- A hub without watches and commits. -/
theorem Consistent.initial (maxRows : Nat) (data : Data)
    : Consistent maxRows (initialState data : ReactiveState Data Result) :=
  ⟨fun _ _ => rfl, nofun, .nil, fun busy => absurd rfl busy, nofun, .nil, nofun, nofun, .nil,
    nofun, nofun, nofun⟩

namespace Consistent

/-- What is carried by another process than the one that moves on stays carried. -/
theorem carried (keys : (state.committers.map (·.1)).Nodup)
    (found : state.committers.lookup key = some phase)
    (carriedOn : phase.carries lsn watchId → ∃ later, next = some later ∧ later.carries lsn watchId)
    (carries : ∃ process ∈ state.committers, process.2.carries lsn watchId)
    : ∃ process ∈ replace state.committers key next, process.2.carries lsn watchId := by
  obtain ⟨process, member, carries⟩ := carries
  by_cases same : process.1 = key
  · have isPhase : process.2 = phase :=
      congrArg Prod.snd (inj_on_of_nodup_map keys member (mem_of_lookup found) same)
    rw [isPhase] at carries
    obtain ⟨later, rfl, carriesLater⟩ := carriedOn carries
    exact ⟨(key, later), mem_replace_self _ _ _, carriesLater⟩
  · exact ⟨process, mem_replace_of_ne member same, carries⟩

variable (consistent : Consistent maxRows state) {commit : Commit Data}
include consistent

/-- While a commit is under way, no watch is created. -/
theorem noCreation (found : state.committers.lookup committer = some phase)
    : state.creations = [] := by
  by_contra busy
  have member := mem_of_lookup found
  rw [consistent.quiet busy] at member
  cases member

/-- At most one process publishes, also after one that does not publish has moved on. -/
theorem publisher_replace (key : Nat) (single : ∀ later, next = some later → later.isPublishing
      → ∀ entry ∈ state.committers, entry.1 ≠ key → entry.2.isPublishing = false)
    : ∀ entry ∈ replace state.committers key next, ∀ other ∈ replace state.committers key next,
      entry.2.isPublishing → other.2.isPublishing → entry.1 = other.1 := by
  intro entry member other otherMember publishing otherPublishing
  rcases mem_replace member with ⟨own, isNext⟩ | ⟨different, inside⟩ <;>
    rcases mem_replace otherMember with ⟨otherOwn, isOther⟩ | ⟨otherDifferent, otherInside⟩
  · rw [own, otherOwn]
  · have quiet := single _ isNext publishing other otherInside otherDifferent
    rw [quiet] at otherPublishing
    cases otherPublishing
  · have quiet := single _ isOther otherPublishing entry inside different
    rw [quiet] at publishing
    cases publishing
  · exact consistent.publisher entry inside other otherInside publishing otherPublishing

/-- Taking the pending changes keeps the invariant. -/
theorem take (orderly : Orderly state (.take committer commit))
    (taken : state.take maxRows committer commit = some following)
    : Consistent maxRows following := by
  unfold ReactiveState.take at taken
  split at taken <;> cases taken
  next absent =>
    have idle : state.creations = [] := isEmpty_iff.mp orderly
    refine { consistent with
      quiet := fun busy => absurd idle busy
      creation := ?_
      keys := replace_distinct consistent.keys _ _
      phase := ?_
      publisher := ?_
      watch := fun watch member => { consistent.watch watch member with }
      delivered := ?_ }
    · simp [idle]
    · intro entry member
      rcases mem_replace member with ⟨-, isNext⟩ | ⟨-, inside⟩
      · rw [← Option.some.inj isNext]
        rfl
      · exact consistent.phase entry inside
    · exact consistent.publisher_replace committer (by rintro later ⟨⟩ ⟨⟩)
    intro entry logged watch member above wants
    refine (consistent.delivered entry logged watch member above wants).imp_right ?_
    rintro ⟨process, inside, carries⟩
    refine ⟨process, mem_replace_of_ne inside ?_, carries⟩
    intro same
    have different := lookup_eq_none_iff.mp absent process inside
    simp [same] at different

/-- The commit itself is carried on by its process. -/
theorem install {pending : Option PendingReactiveCommit}
    (found : state.committers.lookup committer = some (.taken commit pending))
    (newer : state.latestLsn < lsn)
    : Consistent maxRows (state.install committer lsn commit pending) := by
  have idle := consistent.noCreation found
  have older : ∀ entry ∈ state.commits, entry.1 < lsn :=
    fun entry member => Nat.lt_of_le_of_lt (consistent.logged entry member) newer
  refine { consistent with
    current := fun snapshot later => if_pos later
    logged := ?_
    unique := ?_
    quiet := fun busy => absurd idle busy
    creation := by simp [ReactiveState.install, idle]
    keys := replace_distinct consistent.keys _ _
    phase := ?_
    publisher := ?_
    watch := ?_
    delivered := ?_ }
  · intro entry member
    rcases mem_append.mp member with old | new
    · exact Nat.le_of_lt (older entry old)
    · rw [mem_singleton.mp new]
      exact Nat.le_refl _
  · simp only [ReactiveState.install, map_append, map_cons, map_nil]
    refine nodup_append.mpr ⟨consistent.unique, nodup_singleton _, ?_⟩
    rintro earlier member _ new rfl
    obtain ⟨entry, inside, same⟩ := mem_map.mp member
    have lower := older entry inside
    rw [same, mem_singleton.mp new] at lower
    exact absurd lower (Nat.lt_irrefl _)
  · intro entry member
    rcases mem_replace member with ⟨-, isNext⟩ | ⟨-, inside⟩
    · rw [← Option.some.inj isNext]
      exact ⟨commit, mem_append_right _ mem_cons_self,
        consistent.phase _ (mem_of_lookup found)⟩
    · exact (consistent.phase entry inside).frame_watches rfl (subset_append_left _ _)
        (Subset.refl _) (fun _ => rfl)
  · exact consistent.publisher_replace committer (by rintro later ⟨⟩ ⟨⟩)
  · intro watch member
    refine (consistent.watch watch member).frame (Nat.le_of_lt newer) ?_ (Nat.le_refl _)
      (Subset.refl _)
    intro snapshot old
    exact if_neg (Nat.not_le.mpr (Nat.lt_of_le_of_lt old newer))
  intro entry member watch inside above wants
  rcases mem_append.mp member with old | new
  · exact (consistent.delivered entry old watch inside above wants).imp_right
      (carried consistent.keys found nofun)
  · refine .inr ⟨_, mem_replace_self _ _ _, ?_⟩
    rw [mem_singleton.mp new]
    rfl

/-- A process may end as soon as it carries nothing for any watch that wants it. -/
theorem finish (found : state.committers.lookup committer = some phase)
    (served : ∀ entry ∈ state.commits, ∀ watch ∈ state.watches,
      watch.filter.wants maxRows entry.2 → ¬ phase.carries entry.1 watch.id)
    : Consistent maxRows (state.finish committer) := by
  have idle := consistent.noCreation found
  refine { consistent with
    quiet := fun busy => absurd idle busy
    creation := by simp [ReactiveState.finish, idle]
    keys := replace_distinct consistent.keys _ _
    phase := ?_
    publisher := ?_
    watch := fun watch member => { consistent.watch watch member with }
    delivered := ?_ }
  · intro entry member
    rcases mem_replace member with ⟨-, ⟨⟩⟩ | ⟨-, inside⟩
    exact consistent.phase entry inside
  · exact consistent.publisher_replace committer nofun
  intro entry logged watch member above wants
  exact (consistent.delivered entry logged watch member above wants).imp_right
    (carried consistent.keys found fun carries =>
      absurd carries (served entry logged watch member wants))

/-- Assigning an event id keeps the invariant if no other publication is enqueueing. -/
theorem assignEvent {pending : PendingReactiveCommit}
    (found : state.committers.lookup committer = some (.committed lsn (some pending)))
    (watched : state.watches.isEmpty = false)
    (silent : ∀ entry ∈ state.committers, entry.2.isPublishing = false)
    : Consistent maxRows (state.assignEvent committer lsn pending) := by
  have idle := consistent.noCreation found
  refine { consistent with
    quiet := fun busy => absurd idle busy
    creation := by simp [ReactiveState.assignEvent, idle]
    keys := replace_distinct consistent.keys _ _
    phase := ?_
    publisher := ?_
    watch := ?_
    delivered := ?_ }
  · intro entry member
    rcases mem_replace member with ⟨-, isNext⟩ | ⟨-, inside⟩
    · rw [← Option.some.inj isNext]
      obtain ⟨commit, logged, isPending⟩ := consistent.phase _ (mem_of_lookup found)
      rw [watched] at isPending
      refine ⟨rfl, mem_cons_self, consistent.watchIds, ⟨commit, logged, isPending.symm⟩, ?_⟩
      intro watch member _ earlier isEarlier
      exact Nat.lt_succ_of_le ((consistent.watch watch member).bounded earlier isEarlier)
    refine (consistent.phase entry inside).frame_watches rfl (Subset.refl _)
      (subset_cons_self _ _) ?_
    intro publishing
    rw [silent entry inside] at publishing
    cases publishing
  · exact consistent.publisher_replace committer fun _ _ _ entry inside _ => silent entry inside
  · intro watch member
    exact (consistent.watch watch member).frame (Nat.le_refl _) (fun _ _ => rfl)
      (Nat.le_succ _) (subset_cons_self _ _)
  intro entry logged watch member above wants
  refine (consistent.delivered entry logged watch member above wants).imp
    (fun learned => learned.mono (subset_cons_self _ _))
    (carried consistent.keys found fun same => ⟨_, rfl, same, ?_⟩)
  exact mem_map_of_mem member

/-- A commit whose changes nobody took is one that no watch wants. -/
theorem assign (orderly : Orderly state (.assign committer))
    (assigned : state.assign committer = some following)
    : Consistent maxRows following := by
  unfold ReactiveState.assign at assigned
  split at assigned
  next lsn found =>
    cases assigned
    refine consistent.finish found ?_
    rintro entry logged watch member wants rfl
    obtain ⟨commit, other, isPending⟩ := consistent.phase _ (mem_of_lookup found)
    have same := inj_on_of_nodup_map consistent.unique other logged rfl
    have watched : (!state.watches.isEmpty) := by
      cases isEmpty : state.watches with
      | nil => simp [isEmpty] at member
      | cons _ _ => rfl
    rw [watched] at isPending
    rw [WatchFilter.wants, ← same, ← isPending] at wants
    cases wants
  next lsn pending found =>
    split at assigned <;> cases assigned
    next unwatched =>
      refine consistent.finish found ?_
      intro _ _ watch member
      rw [isEmpty_iff.mp unwatched] at member
      cases member
    next watched => exact consistent.assignEvent found (Bool.eq_false_iff.mpr watched) orderly
  next => cases assigned

end Consistent

end DecentDb.Reactive
