import Mathlib.Data.List.Forall2

/-! What a loop over results says about the single steps if the whole loop succeeded. -/

namespace Results

open List

variable {Error Item Value : Type} {items passing : List Item}
  {step other : Item → Except Error Value} {values : List Value} {test : Item → Except Error Bool}

/-- The steps over a list succeed exactly if the first one and those over the rest do. -/
theorem mapM_cons_ok {item : Item} : (item :: items).mapM step = .ok values
      ↔ ∃ first rest, step item = .ok first ∧ items.mapM step = .ok rest
        ∧ values = first :: rest := by
  rw [mapM_cons]
  cases step item with
  | error error => simp [bind, Except.bind]
  | ok first =>
    cases items.mapM step with
    | error error => simp [bind, Except.bind]
    | ok rest => simp [bind, Except.bind, pure, Except.pure, eq_comm]

/-- By induction on the items. -/
theorem mapM_ok (ran : items.mapM step = .ok values)
    : List.Forall₂ (fun item value => step item = .ok value) items values := by
  induction items generalizing values with
  | nil =>
    cases ran
    exact .nil
  | cons item rest ih =>
    obtain ⟨first, others, firstRan, othersRan, rfl⟩ := mapM_cons_ok.mp ran
    exact .cons firstRan (ih othersRan)

/-- Two loops with the same values took the same steps, by induction on the items. -/
theorem eq_of_mapM_ok (ran : items.mapM step = .ok values) (otherRan : items.mapM other = .ok values)
    : ∀ item ∈ items, step item = other item := by
  induction items generalizing values with
  | nil => exact nofun
  | cons item rest ih =>
    obtain ⟨first, others, firstRan, othersRan, rfl⟩ := mapM_cons_ok.mp ran
    obtain ⟨_, _, otherFirst, otherRest, same⟩ := mapM_cons_ok.mp otherRan
    cases same
    exact forall_mem_cons.mpr ⟨firstRan.trans otherFirst.symm, ih othersRan otherRest⟩

/-- Only what the steps do to the items matters. -/
theorem mapM_congr (same : ∀ item ∈ items, step item = other item)
    : items.mapM step = items.mapM other := by
  induction items with
  | nil => rfl
  | cons item rest ih =>
    obtain ⟨first, others⟩ := forall_mem_cons.mp same
    rw [mapM_cons, mapM_cons, first, ih others]

/-- A loop whose every step succeeds maps the items. -/
theorem mapM_eq_map {value : Item → Value} (succeeds : ∀ item ∈ items, step item = .ok (value item))
    : items.mapM step = .ok (items.map value) := by
  induction items with
  | nil => rfl
  | cons item rest ih =>
    obtain ⟨first, others⟩ := forall_mem_cons.mp succeeds
    exact mapM_cons_ok.mpr ⟨value item, rest.map value, first, ih others, rfl⟩

/-- A loop whose step at each position returns the value there. -/
theorem mapM_eq_of_getElem? (length : values.length = items.length)
    (succeeds : ∀ (position : Nat) (item : Item), items[position]? = some item
      → ∃ value, values[position]? = some value ∧ step item = .ok value)
    : items.mapM step = .ok values := by
  induction items generalizing values with
  | nil =>
    rw [length_eq_zero_iff.mp length]
    rfl
  | cons item rest ih =>
    cases values with
    | nil => cases length
    | cons first others =>
      obtain ⟨value, isFirst, ran⟩ := succeeds 0 item rfl
      cases isFirst
      have restRan := ih (Nat.succ.inj length) fun position item found =>
        succeeds (position + 1) item found
      exact mapM_cons_ok.mpr ⟨first, others, ran, restRan, rfl⟩

/-- The values of a loop that succeeds are those of its steps. -/
theorem filterMap_of_mapM (ran : items.mapM step = .ok values)
    : items.filterMap (fun item => (step item).toOption) = values := by
  induction items generalizing values with
  | nil =>
    cases ran
    rfl
  | cons item rest ih =>
    obtain ⟨first, others, firstRan, othersRan, rfl⟩ := mapM_cons_ok.mp ran
    rw [filterMap_cons, firstRan, ih othersRan]
    rfl

/-- The items that pass a test which may fail. -/
def filterResults (test : Item → Except Error Bool) : List Item → Except Error (List Item)
  | [] => .ok []
  | item :: rest => do
    let passed ← test item
    let others ← filterResults test rest
    .ok (if passed then item :: others else others)

/-- A filter succeeds exactly if its test does on every item, by induction on the items. -/
theorem filterResults_ok
    : filterResults test items = .ok passing ↔ (∀ item ∈ items, ∃ passed, test item = .ok passed)
        ∧ passing = items.filter fun item => (test item).toOption = some true := by
  induction items generalizing passing with
  | nil => simp [filterResults]
  | cons item rest ih =>
    rw [filterResults, forall_mem_cons, filter_cons]
    cases test item with
    | error error => simp [bind, Except.bind]
    | ok passed =>
      cases others : filterResults test rest with
      | error error =>
        have fails : ¬ ∀ item ∈ rest, ∃ passed, test item = .ok passed := by
          intro succeeds
          have ran := ih.mpr ⟨succeeds, rfl⟩
          rw [others] at ran
          cases ran
        exact ⟨nofun, fun ran => absurd ran.1.2 fails⟩
      | ok values =>
        obtain ⟨succeeds, rfl⟩ := ih.mp others
        constructor
        · intro ran
          cases ran
          refine ⟨⟨⟨passed, rfl⟩, succeeds⟩, ?_⟩
          cases passed <;> rfl
        · rintro ⟨-, rfl⟩
          cases passed <;> rfl

end Results
