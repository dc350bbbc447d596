import DecentDb.Library.Evaluation
import DecentDb.Reactive.WatchInvariant

/-! No watch misses a commit as long as a watch is created while no commit is under way and
one publication ends before the next one begins.
-/

namespace DecentDb.Reactive

open List ReactiveState
open TransitionSystem (System)

variable {Data Result : Type} {maxRows : Nat} {committer creator queueCapacity : Nat}
  {lsn eventId watchId snapshotLsn : Nat} {creation : Creation Data Result}
  {filter : WatchFilter Data Result}

namespace Consistent

variable {state following : ReactiveState Data Result}

-- Events

variable (consistent : Consistent maxRows state)
include consistent

/-- Watches keep their numbers when one of them is updated. -/
theorem updated {update : Watch Data Result → Watch Data Result}
    (keeps : ∀ watch, (update watch).id = watch.id)
    (sound : ∀ watch ∈ state.watches, watch.id = watchId → (update watch).Sound state)
    : ((state.updateWatch watchId update).watches.map (·.id)).Nodup
      ∧ ∀ updated ∈ (state.updateWatch watchId update).watches,
        updated.id ≤ state.nextWatchId ∧ updated.Sound state := by
  refine ⟨?_, fun updated isUpdated => ?_⟩
  · rw [updateWatch_ids keeps]
    exact consistent.watchIds
  rcases mem_updateWatch isUpdated with ⟨watch, member, ⟨own, rfl⟩ | ⟨-, rfl⟩⟩
  · rw [keeps]
    exact ⟨consistent.numbered watch member, sound watch member own⟩
  · exact ⟨consistent.numbered updated member, consistent.watch updated member⟩

/-- One watch is offered the event; the process goes on with the rest. -/
theorem offer {pending : PendingReactiveCommit} {rest : List Nat}
    (found : state.committers.lookup committer
      = some (.publishing lsn eventId pending (watchId :: rest)))
    : Consistent maxRows { state.updateWatch watchId (·.offer pending eventId lsn) with
        committers := replace state.committers committer
          (some (.publishing lsn eventId pending rest)) } := by
  have idle := consistent.noCreation found
  obtain ⟨isCurrent, isAssigned, distinct, ⟨commit, logged, isPending⟩, newer⟩ :=
    consistent.phase _ (mem_of_lookup found)
  subst isCurrent
  obtain ⟨fresh, distinctRest⟩ := nodup_cons.mp distinct
  have others : ∀ entry ∈ state.committers, entry.1 ≠ committer → entry.2.isPublishing = false := by
    intro entry member different
    by_contra publishing
    exact different (consistent.publisher entry member _ (mem_of_lookup found)
      (Bool.not_eq_false _ |>.mp publishing) rfl)
  obtain ⟨watchIds, kept⟩ := consistent.updated
    (fun watch => (watch.offer_same pending state.nextEventId lsn).1) fun watch member own =>
      (consistent.watch watch member).offer pending isAssigned
        (newer watch member (own ▸ mem_cons_self))
  refine { consistent with
    quiet := fun busy => absurd idle busy
    creation := by simp [updateWatch, idle]
    keys := replace_distinct consistent.keys _ _
    phase := ?_
    publisher := ?_
    watchIds
    numbered := fun updated member => (kept updated member).1
    watch := fun updated member => { (kept updated member).2 with }
    delivered := ?_ }
  · intro entry member
    rcases mem_replace member with ⟨-, isNext⟩ | ⟨different, inside⟩
    · rw [← Option.some.inj isNext]
      refine ⟨rfl, isAssigned, distinctRest, ⟨commit, logged, isPending⟩, ?_⟩
      intro updated isUpdated waiting
      rcases mem_updateWatch isUpdated with ⟨watch, member, ⟨own, rfl⟩ | ⟨-, rfl⟩⟩
      · rw [(watch.offer_same _ _ _).1, own] at waiting
        exact absurd waiting fresh
      · exact newer updated member (mem_cons_of_mem _ waiting)
    refine (consistent.phase entry inside).frame updateWatch_isEmpty (Subset.refl _)
      (Subset.refl _) ?_
    intro publishing
    rw [others entry inside different] at publishing
    cases publishing
  · exact consistent.publisher_replace committer fun _ _ _ entry inside different =>
      others entry inside different
  intro entry entryLogged updated isUpdated above wants
  rcases mem_updateWatch isUpdated with ⟨watch, member, ⟨own, rfl⟩ | ⟨different, rfl⟩⟩
  · have newerThanAll := newer watch member (own ▸ mem_cons_self)
    obtain ⟨sameId, sameFilter, sameSnapshot, -⟩ := watch.offer_same pending state.nextEventId lsn
    rw [sameSnapshot] at above
    rw [sameFilter] at wants
    by_cases isThis : entry.1 = lsn
    · have sameEntry := inj_on_of_nodup_map consistent.unique entryLogged logged isThis
      rw [sameEntry, WatchFilter.wants, isPending, Option.any_some] at wants
      rw [isThis, Watch.offer, if_pos wants]
      exact .inl (watch.enqueue_learned isAssigned)
    rw [sameId]
    refine (consistent.delivered entry entryLogged watch member above wants).imp
      (fun learned => learned.offer pending (consistent.watch watch member).known newerThanAll)
      (carried consistent.keys found ?_)
    rintro ⟨rfl, -⟩
    exact absurd rfl isThis
  refine (consistent.delivered entry entryLogged updated member above wants).imp_right
    (carried consistent.keys found ?_)
  rintro ⟨same, waiting⟩
  exact ⟨_, rfl, same, (mem_cons.mp waiting).resolve_left different⟩

/-- Offering the event to the next watch keeps the invariant. -/
theorem enqueue (enqueued : state.enqueue committer = some following)
    : Consistent maxRows following := by
  unfold ReactiveState.enqueue at enqueued
  split at enqueued <;> cases enqueued
  next found =>
    refine consistent.finish found ?_
    rintro _ _ _ _ _ ⟨-, ⟨⟩⟩
  next found => exact consistent.offer found

/-- A receive keeps the invariant: what was delivered stays in the history. -/
theorem receive (watchId : Nat) : Consistent maxRows (state.updateWatch watchId Watch.tryRecv) := by
  obtain ⟨watchIds, kept⟩ := consistent.updated (fun watch => watch.tryRecv_same.1)
    fun watch member _ => (consistent.watch watch member).tryRecv
  refine { consistent with
    phase := ?_
    watchIds
    numbered := fun updated member => (kept updated member).1
    watch := fun updated member => { (kept updated member).2 with }
    delivered := ?_ }
  · intro entry member
    refine (consistent.phase entry member).frame updateWatch_isEmpty (Subset.refl _)
      (Subset.refl _) fun _ => ⟨rfl, ?_⟩
    intro updated isUpdated
    rcases mem_updateWatch isUpdated with ⟨watch, inside, ⟨-, rfl⟩ | ⟨-, rfl⟩⟩
    · exact ⟨watch, inside, watch.tryRecv_same.1.symm, watch.tryRecv_eventIds.symm⟩
    · exact ⟨updated, inside, rfl, rfl⟩
  intro entry logged updated isUpdated above wants
  rcases mem_updateWatch isUpdated with ⟨watch, member, ⟨-, rfl⟩ | ⟨-, rfl⟩⟩
  · obtain ⟨sameId, sameFilter, sameSnapshot, -⟩ := watch.tryRecv_same
    rw [sameSnapshot] at above
    rw [sameFilter] at wants
    rw [sameId, Watch.Learned, watch.tryRecv_history]
    exact consistent.delivered entry logged watch member above wants
  · exact consistent.delivered entry logged updated member above wants

-- Creations

/-- A creation that is up to date may begin while no commit is under way. -/
theorem setCreation (idle : state.committers = []) (upToDate : creation.UpToDate state)
    : Consistent maxRows (state.setCreation creator creation) := by
  refine { consistent with
    quiet := fun _ => idle
    creation := ?_
    phase := by simp [ReactiveState.setCreation, idle]
    watch := fun watch member => { consistent.watch watch member with } }
  intro entry member
  rcases mem_replace member with ⟨-, isNext⟩ | ⟨-, inside⟩
  · rw [← Option.some.inj isNext]
    exact upToDate
  · exact consistent.creation entry inside

/-- While a watch is created, no commit is under way. -/
theorem noCommitter (found : state.creations.lookup creator = some creation)
    : state.committers = [] := by
  refine consistent.quiet fun none => ?_
  rw [none] at found
  cases found

/-- Running the query of a new watch keeps the invariant. -/
theorem runQuery {dependencies : List String} {evaluate : Data → Result}
    (orderly : Orderly state (.runQuery creator dependencies evaluate queueCapacity))
    (ran : state.runQuery creator dependencies evaluate queueCapacity = some following)
    : Consistent maxRows following := by
  unfold ReactiveState.runQuery at ran
  split at ran <;> cases ran
  next => exact consistent.setCreation (isEmpty_iff.mp orderly) rfl

/-- Reading the LSN of a new watch keeps the invariant, since no commit came in between. -/
theorem readLsn (read : state.readLsn creator = some following) : Consistent maxRows following := by
  unfold ReactiveState.readLsn at read
  split at read <;> cases read
  next found =>
    have upToDate := consistent.creation _ (mem_of_lookup found)
    exact consistent.setCreation (consistent.noCommitter found) ⟨rfl, congrArg some upToDate⟩

/-- Starting a table or range watch keeps the invariant. -/
theorem observe (orderly : Orderly state (.observe creator filter queueCapacity))
    (observed : state.observe creator filter queueCapacity = some following)
    : Consistent maxRows following := by
  unfold ReactiveState.observe at observed
  split at observed
  next => cases observed
  split at observed <;> cases observed
  next notQuery =>
    refine consistent.setCreation (isEmpty_iff.mp orderly) ⟨rfl, ?_⟩
    cases filter with
    | query _ _ => exact absurd rfl notQuery
    | tables _ | range _ => rfl

/-- All commits are at or below the LSN of the new watch, and its result is what is committed
there.
-/
theorem addWatch {result : Option Result}
    (found : state.creations.lookup creator = some (.ready filter queueCapacity result snapshotLsn))
    : Consistent maxRows (state.addWatch creator filter queueCapacity result snapshotLsn) := by
  have idle := consistent.noCommitter found
  obtain ⟨rfl, isResult⟩ := consistent.creation _ (mem_of_lookup found)
  refine { consistent with
    quiet := fun _ => idle
    creation := ?_
    phase := by simp [ReactiveState.addWatch, idle]
    watchIds := ?_
    numbered := ?_
    watch := ?_
    delivered := ?_ }
  · intro entry member
    rcases mem_replace member with ⟨-, ⟨⟩⟩ | ⟨-, inside⟩
    exact consistent.creation entry inside
  · simp only [ReactiveState.addWatch, map_append, map_cons, map_nil]
    refine nodup_append.mpr ⟨consistent.watchIds, nodup_singleton _, ?_⟩
    rintro id member _ new rfl
    obtain ⟨watch, inside, same⟩ := mem_map.mp member
    have lower := consistent.numbered watch inside
    rw [same, mem_singleton.mp new] at lower
    exact absurd lower (Nat.not_succ_le_self _)
  · intro watch member
    rcases mem_append.mp member with old | new
    · exact Nat.le_succ_of_le (consistent.numbered watch old)
    · rw [mem_singleton.mp new]
      exact Nat.le_refl _
  · intro watch member
    suffices sound : watch.Sound state from { sound with }
    rcases mem_append.mp member with old | new
    · exact consistent.watch watch old
    rw [mem_singleton.mp new]
    refine ⟨Nat.le_refl _, ?_, ?_, Pairwise.nil, nofun, ?_⟩
    · rw [consistent.current _ (Nat.le_refl _)]
      exact isResult
    · intro initialLsn initialResult isInitial
      cases mem_singleton.mp isInitial
      exact ⟨rfl, rfl⟩
    · intro eventId lsn isInvalidate
      cases mem_singleton.mp isInvalidate
  intro entry logged watch member above wants
  rcases mem_append.mp member with old | new
  · exact consistent.delivered entry logged watch old above wants
  · rw [mem_singleton.mp new] at above
    exact absurd (consistent.logged entry logged) (Nat.not_le.mpr above)

/-- Registering a watch keeps the invariant: it has seen all commits up to its LSN. -/
theorem createWatch (created : state.createWatch creator = some following)
    : Consistent maxRows following := by
  unfold ReactiveState.createWatch at created
  split at created <;> cases created
  next found => exact consistent.addWatch found

/-- A commit to the log keeps the invariant: its changes are carried until they are published. -/
theorem commit (committed : state.commit committer lsn = some following)
    : Consistent maxRows following := by
  unfold ReactiveState.commit at committed
  split at committed
  next found =>
    split at committed <;> cases committed
    next newer => exact consistent.install found newer
  next => cases committed

/-- Every orderly step keeps the invariant. -/
theorem step (action : ReactiveAction Data Result) (orderly : Orderly state action)
    (stepped : (reactiveSystem Data Result maxRows).next state action = some following)
    : Consistent maxRows following := by
  cases action with
  | take committer commit => exact consistent.take orderly stepped
  | commit committer lsn => exact consistent.commit stepped
  | assign committer => exact consistent.assign orderly stepped
  | enqueue committer => exact consistent.enqueue stepped
  | runQuery creator dependencies evaluate queueCapacity =>
    exact consistent.runQuery orderly stepped
  | readLsn creator => exact consistent.readLsn stepped
  | observe creator filter queueCapacity => exact consistent.observe orderly stepped
  | createWatch creator => exact consistent.createWatch stepped
  | receive watchId =>
    cases stepped
    exact consistent.receive watchId

end Consistent

-- Whole runs

/-- A transaction that adds one to the data, which stands for the rows of one table. -/
def increment : Commit Nat where
  dirtyTables := ["counters"]
  rowChanges := []
  schemaChanged := false
  change := (· + 1)

/-- A query watch is created, two transactions commit, and all three events are received. -/
def orderlyActions : List (ReactiveAction Nat Nat) :=
  [.runQuery 0 ["counters"] id 4, .readLsn 0, .createWatch 0, .take 1 increment, .commit 1 5,
    .take 2 increment, .commit 2 9, .assign 2, .enqueue 2, .enqueue 2, .assign 1, .enqueue 1,
    .enqueue 1, .receive 1, .receive 1, .receive 1]

/-- A transaction commits between the query of a new watch and the reading of its LSN; nobody
watched when its changes were taken.
-/
def overtakenActions : List (ReactiveAction Nat Nat) :=
  [.runQuery 0 ["counters"] id 4, .take 1 increment, .commit 1 5, .assign 1, .readLsn 0,
    .createWatch 0, .receive 1]

end DecentDb.Reactive
