import DecentDb.Library.TransitionSystem
import Mathlib.Algebra.BigOperators.Group.List.Basic
import Mathlib.Algebra.GroupWithZero.Nat
import Mathlib.Data.List.Nodup

/-! The caches of parsed statements and of prepared plans: a map, the order in which its keys were
used and the size of its entries, each kept for itself. The three agree in every run in which no
parsed statement is inserted under a key that is there. The number of a call stands for its time;
the statistics, which no call reads, are left out.
-/

namespace DecentDb.Query

open List

/-- What a plan was made for. -/
structure PlanCookies where
  persistentSchemaCookie : UInt32
  tempSchemaCookie : UInt32
  policyMaskGeneration : UInt32
  deriving DecidableEq

inductive ParameterTypeClass where
  | null | integer | real | text | blob
  deriving DecidableEq

structure PlanCacheKey where
  sqlText : String
  parameterShape : List ParameterTypeClass
  cookies : PlanCookies
  deriving DecidableEq

structure PlanCacheEntry (Plan : Type) where
  plan : Plan
  planSizeBytes : Nat
  cookies : PlanCookies
  lastUsed : Nat

structure PlanCache (Plan : Type) where
  enabled : Bool
  maxSizeBytes : Nat
  currentSizeBytes : Nat
  entries : PlanCacheKey → Option (PlanCacheEntry Plan)
  order : List PlanCacheKey

@[irreducible]
def planCacheEntryFixedOverheadBytes : Nat := 192

def saturatingAdd (left right : Nat) : Nat := min (left + right) 18446744073709551615

inductive CacheKind where
  | parsed
  | prepared
  deriving DecidableEq

variable {Plan : Type}

def PlanCacheEntry.cost (entry : PlanCacheEntry Plan) : Nat :=
  entry.planSizeBytes + planCacheEntryFixedOverheadBytes

/-- What replacing an entry takes from the size; that of parsed statements leaves the overhead. -/
def CacheKind.released (entry : PlanCacheEntry Plan) : CacheKind → Nat
  | .parsed => entry.planSizeBytes
  | .prepared => entry.cost

namespace PlanCache

variable (cache : PlanCache Plan) (key : PlanCacheKey)

def setEntry (entry : Option (PlanCacheEntry Plan)) : PlanCache Plan :=
  { cache with entries := fun other => if other = key then entry else cache.entries other }

/-- The map without an entry, which took so much of the size. -/
def forget (size : Nat) : PlanCache Plan :=
  { cache.setEntry key none with currentSizeBytes := cache.currentSizeBytes - size }

def unlist : PlanCache Plan := { cache with order := cache.order.filter (· ≠ key) }

def enlist : PlanCache Plan := { cache with order := cache.order ++ [key] }

def evictKey : PlanCache Plan :=
  match cache.entries key with
  | some entry => (cache.forget key entry.cost).unlist key
  | none => cache.unlist key

def get (now : Nat) (current : PlanCookies) : PlanCache Plan × Option Plan :=
  if !cache.enabled then (cache, none)
  else match cache.entries key with
    | none => (cache, none)
    | some entry =>
      if entry.cookies ≠ current then (cache.evictKey key, none)
      else (((cache.unlist key).enlist key).setEntry key (some { entry with lastUsed := now }),
        some entry.plan)

/-- Evicts from the front of the order, which is given again, until the rest fits. -/
def evictToFit (targetSize : Nat) : List PlanCacheKey → PlanCache Plan → PlanCache Plan
  | [], cache => cache
  | oldest :: rest, cache =>
    if cache.currentSizeBytes ≤ targetSize then cache
    else match cache.entries oldest with
      | some entry =>
        evictToFit targetSize rest { cache.forget oldest entry.cost with order := rest }
      | none => evictToFit targetSize rest { cache with order := rest }

/-- Removes the entry that is to be replaced, if there is one. -/
def clear (kind : CacheKind) : PlanCache Plan :=
  match cache.entries key with
  | some previous => (cache.forget key (kind.released previous)).unlist key
  | none => cache

def add (entry : PlanCacheEntry Plan) : PlanCache Plan :=
  { (cache.setEntry key (some entry)).enlist key with
    currentSizeBytes := saturatingAdd (saturatingAdd cache.currentSizeBytes entry.planSizeBytes)
      planCacheEntryFixedOverheadBytes }

def insert (kind : CacheKind) (now : Nat) (plan : Plan) (planSizeBytes : Nat) : PlanCache Plan :=
  if !cache.enabled then cache
  else if cache.maxSizeBytes < saturatingAdd planSizeBytes planCacheEntryFixedOverheadBytes then
    cache
  else
    let entry := { plan, planSizeBytes, cookies := key.cookies, lastUsed := now }
    let added := (cache.clear key kind).add key entry
    evictToFit cache.maxSizeBytes added.order added

def invalidateAll : PlanCache Plan :=
  { cache with entries := fun _ => none, order := [], currentSizeBytes := 0 }

def flush : PlanCache Plan := cache.invalidateAll

end PlanCache

inductive CacheCall (Plan : Type) where
  | insert (key : PlanCacheKey) (plan : Plan) (planSizeBytes : Nat)
  | get (key : PlanCacheKey) (current : PlanCookies)
  | invalidateAll
  | flush

/-- A cache together with the number of the next call. -/
def planCacheSystem (Plan : Type) (kind : CacheKind)
    : TransitionSystem.System (PlanCache Plan × Nat) (CacheCall Plan) where
  next state call := some (match call with
    | .insert key plan planSizeBytes => state.1.insert key kind state.2 plan planSizeBytes
    | .get key current => (state.1.get key state.2 current).1
    | .invalidateAll => state.1.invalidateAll
    | .flush => state.1.flush, state.2 + 1)

/-- Parsed statements are inserted only under keys that are not in the cache. -/
def insertsNew (kind : CacheKind) (state : PlanCache Plan × Nat) : CacheCall Plan → Bool
  | .insert key _ _ => kind = .prepared || (state.1.entries key).isNone
  | _ => true

namespace PlanCache

variable (cache : PlanCache Plan)

/-- What the cache is to be: its keys with their entries, the one used last at the end. -/
structure Lists (listing : List (PlanCacheKey × PlanCacheEntry Plan)) : Prop where
  order : cache.order = listing.map Prod.fst
  entries : ∀ key entry, cache.entries key = some entry ↔ (key, entry) ∈ listing
  size : cache.currentSizeBytes = (listing.map (·.2.cost)).sum
  distinct : (listing.map Prod.fst).Nodup
  recent : listing.Pairwise (·.2.lastUsed < ·.2.lastUsed)

/-- The size is that of the entries and within the limit. -/
def Exact (now : Nat) : Prop :=
  ∃ listing, cache.Lists listing ∧ cache.currentSizeBytes ≤ cache.maxSizeBytes
    ∧ ∀ pair ∈ listing, pair.2.lastUsed < now

variable {cache} {listing front back : List (PlanCacheKey × PlanCacheEntry Plan)} {now : Nat}
  {key : PlanCacheKey} {entry : PlanCacheEntry Plan} {kind : CacheKind}

/-- The other keys are different ones. -/
theorem Lists.apart (lists : cache.Lists (front ++ (key, entry) :: back))
    {pair : PlanCacheKey × PlanCacheEntry Plan} (member : pair ∈ front ++ back) : pair.1 ≠ key := by
  have distinct := lists.distinct
  rw [map_append, map_cons, nodup_middle, ← map_append] at distinct
  exact fun same => (nodup_cons.mp distinct).1 (mem_map.mpr ⟨pair, member, same⟩)

/-- Taking out an entry with its size leaves the others. -/
theorem Lists.forget (lists : cache.Lists (front ++ (key, entry) :: back))
    : Lists { cache.forget key entry.cost with order := (front ++ back).map Prod.fst }
      (front ++ back) := by
  have kept : front ++ back <+ front ++ (key, entry) :: back :=
    (sublist_cons_self _ _).append_left front
  have size := lists.size
  constructor
  · rfl
  · intro other value
    by_cases isKey : other = key
    · simpa [PlanCache.forget, setEntry, isKey] using fun member => lists.apart member rfl
    · simp [PlanCache.forget, setEntry, isKey, lists.entries]
  · simp only [map_append, map_cons, sum_append, sum_cons] at size ⊢
    change cache.currentSizeBytes - entry.cost = _
    omega
  · exact lists.distinct.sublist (kept.map _)
  · exact lists.recent.sublist kept

/-- A new entry comes last. -/
theorem Lists.add (entry : PlanCacheEntry Plan) (lists : cache.Lists listing)
    (absent : cache.entries key = none)
    (later : ∀ pair ∈ listing, pair.2.lastUsed < entry.lastUsed)
    (small : cache.currentSizeBytes + entry.cost < 2 ^ 64)
    : (cache.add key entry).Lists (listing ++ [(key, entry)]) := by
  have unlisted : key ∉ listing.map Prod.fst := fun member => by
    obtain ⟨⟨_, value⟩, isKey, rfl⟩ := mem_map.mp member
    simp [(lists.entries _ value).mpr isKey] at absent
  constructor
  · rw [map_append, ← lists.order]
    rfl
  · intro other value
    have same := lists.entries other value
    by_cases isKey : other = key
    · simp_all [PlanCache.add, enlist, setEntry, eq_comm]
    · simp_all [PlanCache.add, enlist, setEntry]
  · rw [map_append, sum_append, ← lists.size]
    simp only [PlanCache.add, saturatingAdd, PlanCacheEntry.cost] at small ⊢
    simp only [map_cons, map_nil, sum_cons, sum_nil]
    omega
  · rw [map_append]
    exact nodup_append.mpr ⟨lists.distinct, pairwise_singleton _ key, by grind⟩
  · exact pairwise_append.mpr ⟨lists.recent, pairwise_singleton _ _, by simpa using later⟩

/-- The entries of a shortest first part are evicted, by induction on the entries. -/
theorem Lists.evictToFit (targetSize : Nat) (lists : cache.Lists listing)
    : ∃ evicted kept, listing = evicted ++ kept
      ∧ (evictToFit targetSize cache.order cache).Lists kept
      ∧ (evictToFit targetSize cache.order cache).currentSizeBytes ≤ targetSize
      ∧ (evictToFit targetSize cache.order cache).maxSizeBytes = cache.maxSizeBytes
      ∧ ∀ fewer more, evicted = fewer ++ more → more ≠ []
        → targetSize < ((more ++ kept).map (·.2.cost)).sum := by
  have size := lists.size
  rw [lists.order]
  induction listing generalizing cache with
  | nil => exact ⟨[], [], rfl, lists, by simp [PlanCache.evictToFit, size], rfl, by simp⟩
  | cons oldest rest ih =>
    rw [map_cons, PlanCache.evictToFit]
    split
    next fits => exact ⟨[], oldest :: rest, rfl, lists, fits, rfl, by simp⟩
    next large =>
      obtain ⟨key, entry⟩ := oldest
      have found := (lists.entries key entry).mpr mem_cons_self
      have smaller := Lists.forget (show cache.Lists ([] ++ (key, entry) :: rest) from lists)
      rw [found]
      obtain ⟨evicted, kept, rfl, keeps, fits, max, shortest⟩ := ih smaller smaller.size
      refine ⟨(key, entry) :: evicted, kept, rfl, keeps, fits, max, fun fewer more split some => ?_⟩
      cases fewer with
      | nil =>
        rw [← nil_append more, ← split, cons_append, ← size]
        exact Nat.lt_of_not_le large
      | cons first fewer => exact shortest fewer more (cons.inj split).2 some

/-- The key is taken out, if the whole size of its entry is. -/
theorem Lists.clear (key : PlanCacheKey) (kind : CacheKind) (lists : cache.Lists listing)
    (new : kind = .prepared ∨ (cache.entries key).isNone)
    : (cache.clear key kind).Lists (listing.filter (·.1 ≠ key))
      ∧ (cache.clear key kind).entries key = none
      ∧ (cache.clear key kind).currentSizeBytes ≤ cache.currentSizeBytes
      ∧ (cache.clear key kind).maxSizeBytes = cache.maxSizeBytes := by
  unfold PlanCache.clear
  cases found : cache.entries key with
  | none =>
    have unlisted : listing.filter (·.1 ≠ key) = listing := filter_eq_self.mpr fun pair member => by
      have := (lists.entries pair.1 pair.2).mpr member
      grind
    exact ⟨unlisted.symm ▸ lists, found, Nat.le_refl _, rfl⟩
  | some previous =>
    obtain rfl : kind = .prepared := by simpa [found] using new
    obtain ⟨front, back, rfl⟩ := append_of_mem ((lists.entries key previous).mp found)
    have unlisted : (front ++ (key, previous) :: back).filter (·.1 ≠ key) = front ++ back := by
      rw [filter_append, filter_cons_of_neg (by simp), ← filter_append]
      exact filter_eq_self.mpr fun pair member => decide_eq_true (lists.apart member)
    have order : cache.order.filter (· ≠ key) = (front ++ back).map Prod.fst := by
      rw [lists.order, filter_map, ← unlisted]
      rfl
    refine ⟨?_, if_pos rfl, Nat.sub_le _ _, rfl⟩
    rw [unlisted]
    have := lists.forget
    rwa [← order] at this

/-- An insert that is not refused puts its key last and evicts a shortest first part. -/
theorem Lists.insert (plan : Plan) {planSizeBytes : Nat} (lists : cache.Lists listing)
    (past : ∀ pair ∈ listing, pair.2.lastUsed < now) (enabled : cache.enabled)
    (bounded : cache.currentSizeBytes ≤ cache.maxSizeBytes) (limit : cache.maxSizeBytes < 2 ^ 63)
    (accepted : ¬ cache.maxSizeBytes < saturatingAdd planSizeBytes planCacheEntryFixedOverheadBytes)
    (new : kind = .prepared ∨ (cache.entries key).isNone)
    : ∃ evicted kept, listing.filter (·.1 ≠ key) = evicted ++ kept
      ∧ (cache.insert key kind now plan planSizeBytes).Lists
        (kept ++ [(key, ⟨plan, planSizeBytes, key.cookies, now⟩)])
      ∧ (cache.insert key kind now plan planSizeBytes).currentSizeBytes ≤ cache.maxSizeBytes
      ∧ (cache.insert key kind now plan planSizeBytes).maxSizeBytes = cache.maxSizeBytes
      ∧ ∀ fewer more, evicted = fewer ++ more → more ≠ [] → cache.maxSizeBytes
        < ((more ++ kept).map (·.2.cost)).sum + planSizeBytes
          + planCacheEntryFixedOverheadBytes := by
  have small : planSizeBytes + planCacheEntryFixedOverheadBytes ≤ cache.maxSizeBytes := by
    unfold saturatingAdd at accepted
    omega
  simp only [PlanCache.insert, enabled, Bool.not_true, Bool.false_eq_true, if_false, accepted]
  obtain ⟨cleared, absent, smaller, max⟩ := lists.clear key kind new
  have added := cleared.add ⟨plan, planSizeBytes, key.cookies, now⟩ absent
    (fun pair member => past pair (mem_of_mem_filter member))
    (by dsimp only [PlanCacheEntry.cost]; omega)
  obtain ⟨evicted, kept, split, keeps, fits, same, shortest⟩ :=
    added.evictToFit cache.maxSizeBytes
  -- the new key is not evicted, since its entry alone fits
  rcases eq_nil_or_concat kept with rfl | ⟨front, last, rfl⟩
  · have large := shortest _ _ (split.trans (append_nil evicted)).symm (cons_ne_nil _ _)
    simp [PlanCacheEntry.cost] at large
    omega
  rw [concat_eq_append, ← append_assoc] at split
  obtain ⟨unlisted, isLast⟩ := append_inj' split rfl
  obtain rfl := singleton_inj.mp isLast
  rw [concat_eq_append] at keeps shortest
  refine ⟨evicted, front, unlisted, keeps, fits, same.trans max, ?_⟩
  intro fewer more isEvicted some
  have large := shortest fewer more isEvicted some
  rw [← append_assoc, map_append, sum_append] at large
  simpa [PlanCacheEntry.cost, Nat.add_assoc] using large

/-- The size of an entry is part of that of the cache. -/
theorem Lists.cost_le (lists : cache.Lists listing) (found : cache.entries key = some entry)
    : entry.cost ≤ cache.currentSizeBytes := by
  obtain ⟨front, back, rfl⟩ := append_of_mem ((lists.entries key entry).mp found)
  rw [lists.size, map_append, map_cons, sum_append, sum_cons]
  exact Nat.le_trans (Nat.le_add_right _ _) (Nat.le_add_left _ _)

/-- To promote an entry is to take it out and to add it again. -/
theorem promote_eq (now : Nat) (found : cache.entries key = some entry)
    (fits : entry.cost ≤ cache.currentSizeBytes) (limit : cache.currentSizeBytes < 2 ^ 64)
    : ((cache.unlist key).enlist key).setEntry key (some { entry with lastUsed := now })
      = (cache.clear key .prepared).add key { entry with lastUsed := now } := by
  have size : saturatingAdd (saturatingAdd (cache.currentSizeBytes - entry.cost)
      entry.planSizeBytes) planCacheEntryFixedOverheadBytes = cache.currentSizeBytes := by
    simp only [saturatingAdd, PlanCacheEntry.cost] at fits ⊢
    omega
  have entries : (fun other => if other = key then some { entry with lastUsed := now }
      else cache.entries other)
      = fun other => if other = key then some { entry with lastUsed := now }
        else if other = key then none else cache.entries other := by
    funext other
    split <;> rfl
  rw [PlanCache.clear, found]
  simp only [PlanCache.add, PlanCache.forget, unlist, enlist, setEntry, CacheKind.released, size]
  rw [entries]

/-- An insert keeps the cache exact. -/
theorem Exact.insert (plan : Plan) (planSizeBytes : Nat) (exact : cache.Exact now)
    (limit : cache.maxSizeBytes < 2 ^ 63) (new : kind = .prepared ∨ (cache.entries key).isNone)
    : (cache.insert key kind now plan planSizeBytes).Exact (now + 1)
      ∧ (cache.insert key kind now plan planSizeBytes).maxSizeBytes = cache.maxSizeBytes := by
  obtain ⟨listing, lists, bounded, past⟩ := exact
  have later (pair) (member : pair ∈ listing) := Nat.lt_succ_of_lt (past pair member)
  by_cases taken : cache.enabled
    ∧ ¬ cache.maxSizeBytes < saturatingAdd planSizeBytes planCacheEntryFixedOverheadBytes
  · obtain ⟨evicted, kept, split, keeps, fits, same, -⟩ :=
      lists.insert plan past taken.1 bounded limit taken.2 new
    refine ⟨⟨_, keeps, same ▸ fits, forall_mem_append.mpr ⟨fun pair member => ?_, by simp⟩⟩, same⟩
    exact later pair (mem_of_mem_filter (split ▸ mem_append_right _ member))
  · have unchanged : cache.insert key kind now plan planSizeBytes = cache := by
      unfold PlanCache.insert
      grind
    rw [unchanged]
    exact ⟨⟨listing, lists, bounded, later⟩, rfl⟩

/-- A get keeps the cache exact: the entry that it returns is the one used last, and one that was
made for other cookies is evicted.
-/
theorem Exact.get (key : PlanCacheKey) (current : PlanCookies) (exact : cache.Exact now)
    (limit : cache.maxSizeBytes < 2 ^ 63)
    : (cache.get key now current).1.Exact (now + 1)
      ∧ (cache.get key now current).1.maxSizeBytes = cache.maxSizeBytes := by
  obtain ⟨listing, lists, bounded, past⟩ := exact
  have later (pair) (member : pair ∈ listing) := Nat.lt_succ_of_lt (past pair member)
  rw [PlanCache.get]
  split
  · exact ⟨⟨listing, lists, bounded, later⟩, rfl⟩
  split
  · exact ⟨⟨listing, lists, bounded, later⟩, rfl⟩
  next entry found =>
  obtain ⟨cleared, absent, smaller, max⟩ := lists.clear key .prepared (.inl rfl)
  have stays (pair) (member : pair ∈ listing.filter (·.1 ≠ key)) :=
    later pair (mem_of_mem_filter member)
  split
  · have evicted : cache.evictKey key = cache.clear key .prepared := by
      rw [evictKey, PlanCache.clear, found]
      rfl
    rw [evicted]
    exact ⟨⟨_, cleared, max ▸ Nat.le_trans smaller bounded, stays⟩, max⟩
  · have fits := lists.cost_le found
    have below : cache.currentSizeBytes < 2 ^ 64 := by omega
    have promoted := promote_eq now found fits below
    have size := congrArg currentSizeBytes promoted
    have small : (cache.clear key .prepared).currentSizeBytes
        + PlanCacheEntry.cost { entry with lastUsed := now } < 2 ^ 64 := by
      rw [PlanCache.clear, found]
      change cache.currentSizeBytes - entry.cost + entry.cost < 2 ^ 64
      omega
    have added := cleared.add { entry with lastUsed := now } absent
      (fun pair member => past pair (mem_of_mem_filter member)) small
    rw [promoted]
    refine ⟨⟨_, added, ?_, forall_mem_append.mpr ⟨stays, by simp⟩⟩, max⟩
    rw [← size]
    exact max ▸ bounded

/-- Every call keeps the cache exact, if parsed statements are inserted under new keys. -/
theorem Exact.step {state after : PlanCache Plan × Nat} {call : CacheCall Plan}
    (exact : state.1.Exact state.2) (limit : state.1.maxSizeBytes < 2 ^ 63)
    (new : insertsNew kind state call)
    (stepped : (planCacheSystem Plan kind).next state call = some after)
    : after.1.Exact after.2 ∧ after.1.maxSizeBytes = state.1.maxSizeBytes := by
  obtain ⟨cache, now⟩ := state
  cases stepped
  cases call with
  | invalidateAll | flush =>
    have lists : cache.invalidateAll.Lists [] :=
      ⟨rfl, by simp [invalidateAll], rfl, nodup_nil, .nil⟩
    exact ⟨⟨[], lists, Nat.zero_le _, by simp⟩, rfl⟩
  | insert key plan planSizeBytes =>
    have isNew : kind = .prepared ∨ (cache.entries key).isNone := by simpa [insertsNew] using new
    exact exact.insert plan planSizeBytes limit isNew
  | get key current => exact exact.get key current limit

end PlanCache

/-- A cache without entries. -/
def PlanCache.new (Plan : Type) (enabled : Bool) (maxSizeBytes : Nat) : PlanCache Plan where
  enabled
  maxSizeBytes
  currentSizeBytes := 0
  entries _ := none
  order := []

/-- In every run in which parsed statements are inserted under new keys, the size is the sum of the
entries' sizes and within the limit, and the order lists the keys once, the one used last at the
end. An insert that is not refused puts its key there and evicts a shortest first part of the order.
-/
theorem plan_cache_exact {kind : CacheKind} {calls : List (CacheCall Plan)} {enabled : Bool}
    {maxSizeBytes : Nat} {state : PlanCache Plan × Nat} (limit : maxSizeBytes < 2 ^ 63)
    (guarded : (planCacheSystem Plan kind).Meets (insertsNew kind · ·)
      (PlanCache.new Plan enabled maxSizeBytes, 0) calls)
    (ran : (planCacheSystem Plan kind).run (PlanCache.new Plan enabled maxSizeBytes, 0) calls
      = some state)
    : ∃ listing, state.1.Lists listing ∧ state.1.currentSizeBytes ≤ maxSizeBytes
      ∧ ∀ key plan planSizeBytes, insertsNew kind state (.insert key plan planSizeBytes)
        → state.1.enabled
        → ¬ maxSizeBytes < saturatingAdd planSizeBytes planCacheEntryFixedOverheadBytes
        → ∃ evicted kept, listing.filter (·.1 ≠ key) = evicted ++ kept
          ∧ (state.1.insert key kind state.2 plan planSizeBytes).Lists
            (kept ++ [(key, ⟨plan, planSizeBytes, key.cookies, state.2⟩)])
          ∧ (state.1.insert key kind state.2 plan planSizeBytes).currentSizeBytes ≤ maxSizeBytes
          ∧ ∀ fewer more, evicted = fewer ++ more → more ≠ [] → maxSizeBytes
            < ((more ++ kept).map (·.2.cost)).sum + planSizeBytes
              + planCacheEntryFixedOverheadBytes := by
  have start : (PlanCache.new Plan enabled maxSizeBytes).Exact 0 :=
    ⟨[], ⟨rfl, by simp [PlanCache.new], rfl, nodup_nil, .nil⟩, Nat.zero_le _, by simp⟩
  obtain ⟨⟨listing, lists, bounded, past⟩, rfl⟩ := (planCacheSystem Plan kind).run_preserves
    (fun state => state.1.Exact state.2 ∧ state.1.maxSizeBytes = maxSizeBytes)
    (fun _ _ _ holds new stepped => by
      obtain ⟨exact, same⟩ := holds.1.step (holds.2.symm ▸ limit) new stepped
      exact ⟨exact, same.trans holds.2⟩)
    ⟨start, rfl⟩ guarded ran
  refine ⟨listing, lists, bounded, fun key plan planSizeBytes new isEnabled accepted => ?_⟩
  have isNew : kind = .prepared ∨ (state.1.entries key).isNone := by simpa [insertsNew] using new
  obtain ⟨evicted, kept, split, keeps, fits, -, shortest⟩ :=
    lists.insert plan past isEnabled bounded limit accepted isNew
  exact ⟨evicted, kept, split, keeps, fits, shortest⟩

def selectKey : PlanCacheKey := ⟨"SELECT ?", [.integer], ⟨1, 0, 0⟩⟩

/-- A prepared plan is inserted, used and replaced by a smaller one. -/
theorem plan_cache_exact_replaced
    : ∃ state, (planCacheSystem Unit .prepared).run (PlanCache.new Unit true 1000, 0)
        [.insert selectKey () 100, .get selectKey selectKey.cookies, .insert selectKey () 50]
        = some state
      ∧ ∃ listing, state.1.Lists listing ∧ state.1.currentSizeBytes ≤ 1000 := by
  obtain ⟨state, ran⟩ : ∃ state, (planCacheSystem Unit .prepared).run
      (PlanCache.new Unit true 1000, 0)
      [.insert selectKey () 100, .get selectKey selectKey.cookies, .insert selectKey () 50]
      = some state := ⟨_, rfl⟩
  obtain ⟨listing, lists, bounded, -⟩ := plan_cache_exact (by decide)
    (by simp [TransitionSystem.System.Meets, insertsNew]) ran
  exact ⟨state, ran, listing, lists, bounded⟩

/-- A parsed statement is inserted twice: the size is that of its entry and once more the fixed
overhead.
-/
theorem plan_cache_drift_counterexample
    : ((planCacheSystem Unit .parsed).run (PlanCache.new Unit true 1000, 0)
        [.insert selectKey () 100, .insert selectKey () 100]).map
        (fun state => (state.1.order, (state.1.entries selectKey).map (·.cost),
          state.1.currentSizeBytes))
      = some ([selectKey], some 292, 484) := by
  decide +kernel

end DecentDb.Query
