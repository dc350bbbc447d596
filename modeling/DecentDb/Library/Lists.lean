import Mathlib.Data.List.Forall2

/-! List facts about relations between two lists that are used together with membership. -/

namespace List

universe u v

variable {α γ : Type u} {β : Type v} {related implied : α → β → Prop} {right middle : List β}
  {left : List α}

section

variable (holds : Forall₂ related left right)
include holds

/-- A pointwise relation may be weakened using that the related elements are members, by
induction on the relation.
-/
theorem Forall₂.imp_mem (weaken : ∀ a ∈ left, ∀ b ∈ right, related a b → implied a b)
    : Forall₂ implied left right := by
  induction holds with
  | nil => exact .nil
  | cons head _ ih =>
    refine .cons (weaken _ mem_cons_self _ mem_cons_self head) (ih ?_)
    intro a left b right
    exact weaken a (mem_cons_of_mem _ left) b (mem_cons_of_mem _ right)

/-- Every element on the left is related to some element on the right. -/
theorem Forall₂.exists_of_mem {a : α} (member : a ∈ left) : ∃ b ∈ right, related a b := by
  induction holds with
  | nil => cases member
  | cons head _ ih =>
    rcases mem_cons.mp member with rfl | later
    · exact ⟨_, mem_cons_self, head⟩
    · obtain ⟨b, found, ab⟩ := ih later
      exact ⟨b, mem_cons_of_mem _ found, ab⟩

/-- Filtering both sides by tests that agree on related elements keeps the relation. -/
theorem Forall₂.filter (keepLeft : α → Bool) (keepRight : β → Bool)
    (agree : ∀ a b, related a b → keepLeft a = keepRight b)
    : Forall₂ related (left.filter keepLeft) (right.filter keepRight) :=
  rel_filter (fun {a b} ab => iff_of_eq (congrArg (· = true) (agree a b ab))) holds

/-- Related lists have equal images under functions that agree on related elements. -/
theorem Forall₂.map_eq {f : α → γ} {g : β → γ} (agree : ∀ a b, related a b → f a = g b)
    : left.map f = right.map g := by
  induction holds with
  | nil => rfl
  | cons head _ ih => rw [map_cons, map_cons, agree _ _ head, ih]

end

/-- Pointwise relations compose. -/
theorem Forall₂.comp {right : List γ} {second : β → γ → Prop} {composed : α → γ → Prop}
    (first : Forall₂ related left middle) (later : Forall₂ second middle right)
    (compose : ∀ a b c, related a b → second b c → composed a c)
    : Forall₂ composed left right := by
  induction first generalizing right with
  | nil =>
    cases later
    exact .nil
  | cons head _ ih =>
    cases later with
    | cons next rest => exact .cons (compose _ _ _ head next) (ih rest)

/-- The last elements of related lists are related. -/
theorem Forall₂.getLast? (holds : Forall₂ related left right)
    : Option.Rel related left.getLast? right.getLast? := by
  have reversed := rel_reverse holds
  rw [← head?_reverse, ← head?_reverse]
  generalize left.reverse = left, right.reverse = right at reversed
  cases reversed with
  | nil => exact .none
  | cons last _ => exact .some last

/-- Searches with tests that agree on related elements find related elements. -/
theorem Forall₂.find? (holds : Forall₂ related left right) (testLeft : α → Bool)
    (testRight : β → Bool) (agree : ∀ a b, related a b → testLeft a = testRight b)
    : Option.Rel related (left.find? testLeft) (right.find? testRight) := by
  induction holds with
  | nil => exact .none
  | @cons a b _ _ head _ ih =>
    rw [find?_cons, find?_cons, agree a b head]
    split
    · exact .some head
    · exact ih

variable {α : Type u} {list : List α} {κ : Type u} {ω : Type v} {index : Nat}

/-- Searches with tests that agree on the list find the same element. -/
theorem find?_congr_of_mem {left right : α → Bool}
    (same : ∀ element ∈ list, left element = right element)
    : list.find? left = list.find? right := by
  induction list with
  | nil => rfl
  | cons head tail ih =>
    rw [find?_cons, find?_cons, same head mem_cons_self,
      ih fun element member => same element (mem_cons_of_mem head member)]

/-- Under distinct keys at most one element has a key, by induction on the list. -/
theorem filter_key_eq_toList_find? {κ : Type v} [DecidableEq κ]
    {keyOf : α → κ} (distinct : (list.map keyOf).Nodup) (key : κ)
    : list.filter (fun a => keyOf a = key) = (list.find? fun a => keyOf a = key).toList := by
  induction list with
  | nil => rfl
  | cons a rest ih =>
    rw [map_cons, nodup_cons] at distinct
    by_cases same : keyOf a = key
    · have absent : rest.filter (fun b => keyOf b = key) = [] := by
        refine filter_eq_nil_iff.mpr fun b member equal => distinct.1 ?_
        exact mem_map.mpr ⟨b, member, (of_decide_eq_true equal).trans same.symm⟩
      simp [same, absent]
    · simp [same, ih distinct.2]

variable {entries : List (κ × ω)}

/-- A search under a key does not see the entries of other keys. -/
theorem lookup_filter [BEq κ] [LawfulBEq κ]
    {keep : κ × ω → Bool} {key : κ} (kept : ∀ entry ∈ entries, entry.1 = key → keep entry)
    : (entries.filter keep).lookup key = entries.lookup key := by
  induction entries with
  | nil => rfl
  | cons entry rest ih =>
    obtain ⟨first, others⟩ := forall_mem_cons.mp kept
    cases same : key == entry.1 with
    | true => rw [filter_cons_of_pos (first (eq_of_beq same).symm), lookup_cons, lookup_cons, same]
    | false =>
      rw [lookup_cons, same, ← ih others, filter_cons]
      split
      · rw [lookup_cons, same]
      · rfl

/-- A search finds the entry of a key that has one entry only. -/
theorem lookup_eq_some_of_mem [BEq κ] [LawfulBEq κ] (distinct : (entries.map (·.1)).Nodup) {key : κ}
    {value : ω} (member : (key, value) ∈ entries)
    : entries.lookup key = some value := by
  induction entries with
  | nil => cases member
  | cons entry rest ih =>
    obtain ⟨fresh, restDistinct⟩ := nodup_cons.mp distinct
    rcases mem_cons.mp member with rfl | later
    · rw [lookup_cons, beq_self_eq_true]
    have different : (key == entry.1) = false := by
      rw [beq_eq_false_iff_ne]
      rintro rfl
      exact fresh (mem_map.mpr ⟨_, later, rfl⟩)
    rw [lookup_cons, different]
    exact ih restDistinct later

/-- The elements above a bound end like the whole list, if there are any. -/
theorem getLast?_filter_lt_or (measure : α → Nat)
    (increasing : list.Pairwise fun earlier later => measure earlier < measure later) (bound : Nat)
    : ((list.filter fun a => bound < measure a).getLast?.map measure).or (list.getLast?.map measure)
      = list.getLast?.map measure := by
  rcases eq_nil_or_concat list with rfl | ⟨front, last, split⟩
  · rfl
  rw [concat_eq_append] at split
  subst split
  by_cases above : bound < measure last
  · rw [filter_append, filter_cons_of_pos (by simpa using above), filter_nil, getLast?_concat,
      getLast?_concat]
    rfl
  have below : ∀ a ∈ front ++ [last], ¬ bound < measure a := by
    intro a member
    rcases mem_append.mp member with earlier | isLast
    · have := (pairwise_append.mp increasing).2.2 a earlier last mem_cons_self
      omega
    · rw [mem_singleton.mp isLast]
      exact above
  rw [filter_eq_nil_iff.mpr (by simpa using below)]
  rfl

/-- Writing what is already there changes nothing. -/
theorem set_of_getElem? {value : α}
    (found : list[index]? = some value) : list.set index value = list := by
  obtain ⟨inside, rfl⟩ := getElem?_eq_some_iff.mp found
  exact set_getElem_self inside

/-- Replacing one element changes a count by what the two elements contribute. -/
theorem countP_set_add {old : α} (found : list[index]? = some old) (new : α) (counted : α → Bool)
    : (list.set index new).countP counted + (counted old).toNat
      = list.countP counted + (counted new).toNat := by
  obtain ⟨inside, rfl⟩ := getElem?_eq_some_iff.mp found
  rw [countP_set inside]
  have contributes : (counted list[index]).toNat ≤ list.countP counted := by
    cases isCounted : counted list[index] with
    | false => exact Nat.zero_le _
    | true => exact countP_pos_iff.mpr ⟨_, getElem_mem inside, isCounted⟩
  cases isOld : counted list[index] <;> cases isNew : counted new
  all_goals
    rw [isOld] at contributes
    simp only [Bool.toNat_false, Bool.toNat_true] at contributes ⊢
    simp
    try omega

end List
