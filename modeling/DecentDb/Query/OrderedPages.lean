import DecentDb.Query.LookupAgreement
import Mathlib.Data.List.Induction
import Mathlib.Data.List.Perm.Basic
import Mathlib.Data.List.Sort

/-! Ordering with a limit. Only as many rows are kept as the page can reach, and a better row
takes the place of the first of the worst ones. The pages are those of the stable sort for all
lists of some rows exactly if no two different ones of these are tied, or all of them are.
-/

namespace DecentDb.Query

open List Record

abbrev QueryRow := List Value

structure SimpleOrderByPlan (Collation : Type) where
  projectionIndex : Nat
  descending : Bool
  collation : Option Collation

structure QueryResult where
  columns : List String
  rows : List QueryRow
  deriving DecidableEq

/-- The rows of a page. -/
def pageOf (limit : Option Nat) (offset : Nat) (rows : List QueryRow) : List QueryRow :=
  limit.elim id take (rows.drop offset)

section

variable (compareRows : QueryRow → QueryRow → DbResult Ordering)

/-- A stable sort, for which rows that cannot be compared are equal. Which rows it compares is its
own choice: here it compares all of them, and reports an error if there is one.
-/
def sortQueryRowsByProjectionOrder (rows : List QueryRow) : DbResult (List QueryRow) := do
  let _ ← (rows.product rows).mapM fun pair => compareRows pair.1 pair.2
  .ok (rows.insertionSort (compareRows · · ≠ .ok .gt))

/-- The first of the worst rows, with its position. -/
def findWorst : Nat × QueryRow → Nat → List QueryRow → DbResult (Nat × QueryRow)
  | worst, _, [] => .ok worst
  | worst, index, row :: rows => do
    let ordering ← compareRows row worst.2
    findWorst (if ordering = .gt then (index, row) else worst) (index + 1) rows

def pushBoundedProjectionOrderedQueryRow (boundedRowCount : Nat) (rows : List QueryRow)
    (row : QueryRow) : DbResult (List QueryRow) :=
  if boundedRowCount = 0 then .ok rows
  else if rows.length < boundedRowCount then .ok (rows ++ [row])
  else do
    let worst ← findWorst compareRows (0, rows.headD []) 1 rows.tail
    let ordering ← compareRows row worst.2
    .ok (if ordering = .lt then rows.set worst.1 row else rows)

/-- Whether a row passes the HAVING clause, if there is one. -/
def passes (having : Option (QueryRow → DbResult Value)) (row : QueryRow) : DbResult Bool :=
  having.elim (.ok true) fun having => do
    let value ← having row
    .ok (value = .bool true)

def pushPassing (having : Option (QueryRow → DbResult Value)) (boundedRowCount : Nat)
    (rows : List QueryRow) (row : QueryRow) : DbResult (List QueryRow) := do
  let passed ← passes having row
  if passed then pushBoundedProjectionOrderedQueryRow compareRows boundedRowCount rows row
  else .ok rows

end

section

variable {Collation : Type}
  (compareCollated : Option Collation → Value → Value → DbResult Ordering)

/-- A plan's positions are within the rows. -/
def compareQueryRowsByProjectionOrder
    : List (SimpleOrderByPlan Collation) → QueryRow → QueryRow → DbResult Ordering
  | [], _, _ => .ok .eq
  | order :: rest, left, right => do
    let ordering ← compareCollated order.collation (left.getD order.projectionIndex .null)
      (right.getD order.projectionIndex .null)
    if ordering = .eq then compareQueryRowsByProjectionOrder rest left right
    else .ok (if order.descending then ordering.swap else ordering)

/-- A vector has fewer rows than where the sum of the offset and the limit saturates. -/
def applySimpleGroupedPostprocessing (rows : List QueryRow) (columns : List String)
    (having : Option (QueryRow → DbResult Value))
    (orderBy : Option (List (SimpleOrderByPlan Collation))) (limit : Option Nat) (offset : Nat)
    : DbResult QueryResult :=
  match orderBy, limit with
  | some orderBy, some limit =>
    if offset + limit = 0 then .ok { columns, rows := [] }
    else do
      let compareRows := compareQueryRowsByProjectionOrder compareCollated orderBy
      let kept ← rows.foldlM (pushPassing compareRows having (offset + limit)) []
      let sorted ← sortQueryRowsByProjectionOrder compareRows kept
      .ok { columns, rows := pageOf (some limit) offset sorted }
  | orderBy, limit => do
    let kept ← Results.filterResults (passes having) rows
    let sorted ← orderBy.elim (.ok kept) fun orderBy => sortQueryRowsByProjectionOrder
      (compareQueryRowsByProjectionOrder compareCollated orderBy) kept
    .ok { columns, rows := pageOf limit offset sorted }

/-- The same steps without a HAVING clause. -/
def applySimpleProjectionPostprocessingWithOrder (rows : List QueryRow) (columns : List String)
    (orderBy : Option (List (SimpleOrderByPlan Collation))) (limit : Option Nat) (offset : Nat)
    : DbResult QueryResult :=
  applySimpleGroupedPostprocessing compareCollated rows columns none orderBy limit offset

end

section

variable {Rank : Type} [LinearOrder Rank] (compareRows : QueryRow → QueryRow → DbResult Ordering)
  (rank : QueryRow → Rank)

/-- The stable sort by rank. -/
abbrev sortedBy (rows : List QueryRow) : List QueryRow := rows.insertionSort (rank · ≤ rank ·)

/-- The comparison is a total preorder on the rows: it is that of their ranks. -/
def RankedBy (rows : List QueryRow) : Prop :=
  ∀ left ∈ rows, ∀ right ∈ rows, compareRows left right = .ok (compare (rank left) (rank right))

variable {compareRows rank} {rows kept : List QueryRow} {row : QueryRow} {count : Nat}

/-- Fewer rows are ranked too. -/
theorem RankedBy.subset (ranked : RankedBy compareRows rank rows) (inside : kept ⊆ rows)
    : RankedBy compareRows rank kept :=
  fun left first right second => ranked left (inside first) right (inside second)

/-- Ranked rows are sorted by their ranks. -/
theorem sortQueryRows_ok (ranked : RankedBy compareRows rank rows)
    : sortQueryRowsByProjectionOrder compareRows rows = .ok (sortedBy rank rows) := by
  have same := map_insertionSort (compareRows · · ≠ .ok .gt) (rank · ≤ rank ·) id rows
    fun left first right second => by
      simp [ranked left first right second, compare_gt_iff_gt]
  rw [map_id, map_id] at same
  rw [sortQueryRowsByProjectionOrder, Results.mapM_eq_map fun pair listed => ranked pair.1
    (pair_mem_product.mp listed).1 pair.2 (pair_mem_product.mp listed).2, ok_bind, same]

/-- The row that is found is a worst one, by induction on the rows that have not been seen. -/
theorem findWorst_ok (seen : List QueryRow) {worst : Nat × QueryRow}
    (ranked : RankedBy compareRows rank (seen ++ rows))
    (found : (seen ++ rows)[worst.1]? = some worst.2)
    (above : ∀ row ∈ seen, rank row ≤ rank worst.2)
    : ∃ last : Nat × QueryRow, findWorst compareRows worst seen.length rows = .ok last
      ∧ (seen ++ rows)[last.1]? = some last.2 ∧ ∀ row ∈ seen ++ rows, rank row ≤ rank last.2 := by
  induction rows generalizing seen worst with
  | nil => exact ⟨worst, rfl, found, by simpa using above⟩
  | cons row rows ih =>
    have compared := ranked row (by simp) worst.2 (mem_of_getElem? found)
    rw [findWorst, compared, ok_bind, ← length_concat]
    rw [← concat_append] at ranked found ⊢
    split
    next worse =>
      refine ih _ ranked (by simp) fun other member => ?_
      obtain old | rfl : other ∈ seen ∨ other = row := by simpa using member
      · exact (above other old).trans (compare_gt_iff_gt.mp worse).le
      · exact le_refl _
    next better =>
      refine ih _ ranked found fun other member => ?_
      obtain old | rfl : other ∈ seen ∨ other = row := by simpa using member
      · exact above other old
      · exact not_lt.mp (compare_gt_iff_gt.not.mp better)

/-- The rows are all tied. -/
def Tied (rank : QueryRow → Rank) (rows : List QueryRow) : Prop :=
  ∀ left ∈ rows, ∀ right ∈ rows, rank left = rank right

/-- Tied rows are the same. -/
def Untied (rank : QueryRow → Rank) (rows : List QueryRow) : Prop :=
  ∀ left ∈ rows, ∀ right ∈ rows, rank left = rank right → left = right

/-- None of the other rows is better than one that is kept. -/
def Least (rank : QueryRow → Rank) (rows kept : List QueryRow) : Prop :=
  ∃ dropped, kept ++ dropped ~ rows ∧ ∀ row ∈ kept, ∀ other ∈ dropped, rank row ≤ rank other

/-- The rows that are kept are least. They are the first ones as long as all are kept or tied. -/
structure Kept (rank : QueryRow → Rank) (count : Nat) (rows kept : List QueryRow) : Prop where
  first : rows.length ≤ count ∨ Tied rank rows → kept = rows.take count
  length : kept.length = min count rows.length
  least : Least rank rows kept

section

variable {worst : QueryRow} (least : Least rank rows kept)
  (above : ∀ other ∈ kept, rank other ≤ rank worst)
include least above

/-- A worst row makes place for a better one. -/
theorem Least.replace {index : Nat} (found : kept[index]? = some worst)
    (better : rank row < rank worst)
    : Least rank (rows ++ [row]) (kept.set index row) := by
  obtain ⟨dropped, perm, old⟩ := least
  obtain ⟨inBounds, isWorst⟩ := List.getElem?_eq_some_iff.mp found
  have swapped := set_perm_cons_eraseIdx inBounds row
  have removed := getElem_cons_eraseIdx_perm inBounds
  rw [isWorst] at removed
  refine ⟨worst :: dropped, ?_, fun other member last later => ?_⟩
  · calc kept.set index row ++ worst :: dropped
      _ ~ row :: kept.eraseIdx index ++ worst :: dropped := swapped.append_right _
      _ ~ row :: (worst :: kept.eraseIdx index ++ dropped) := perm_middle.cons row
      _ ~ row :: rows := ((removed.append_right _).trans perm).cons row
      _ ~ rows ++ [row] := (perm_append_singleton row rows).symm
  have least : rank other ≤ rank worst := by
    obtain rfl | member := mem_cons.mp (swapped.subset member)
    · exact better.le
    · exact above other (mem_of_mem_eraseIdx member)
  obtain rfl | later := mem_cons.mp later
  · exact least
  · exact least.trans (old _ (mem_of_getElem? found) last later)

/-- A row that is not better than a worst one is dropped. -/
theorem Least.drop (notBetter : rank worst ≤ rank row) : Least rank (rows ++ [row]) kept := by
  obtain ⟨dropped, perm, old⟩ := least
  refine ⟨row :: dropped, ?_, fun other member last later => ?_⟩
  · exact perm_middle.trans ((perm.cons row).trans (perm_append_singleton row rows).symm)
  obtain rfl | later := mem_cons.mp later
  · exact (above other member).trans notBetter
  · exact old other member last later

end

/-- One more row keeps the least ones. -/
theorem Kept.push (positive : 0 < count) (spec : Kept rank count rows kept)
    (ranked : RankedBy compareRows rank (rows ++ [row]))
    : ∃ after, pushBoundedProjectionOrderedQueryRow compareRows count kept row = .ok after
      ∧ Kept rank count (rows ++ [row]) after := by
  have length := spec.length
  obtain ⟨dropped, perm, old⟩ := spec.least
  rw [pushBoundedProjectionOrderedQueryRow, if_neg positive.ne']
  split
  next room =>
    obtain rfl : kept = rows := by rw [spec.first (.inl (by omega)), take_of_length_le (by omega)]
    have fits : (kept ++ [row]).length ≤ count := by
      rw [length_append, length_singleton]
      omega
    exact ⟨_, rfl, fun _ => (take_of_length_le fits).symm, (Nat.min_eq_right fits).symm, [],
      by simp, by simp⟩
  next full =>
    cases kept with
    | nil => exact absurd positive full
    | cons first others =>
      have inside : first :: others ⊆ rows ++ [row] := fun other member =>
        mem_append_left _ (perm.subset (mem_append_left _ member))
      obtain ⟨worst, ran, found, above⟩ : ∃ worst : Nat × QueryRow,
          findWorst compareRows (0, first) 1 others = .ok worst
          ∧ (first :: others)[worst.1]? = some worst.2
          ∧ ∀ other ∈ first :: others, rank other ≤ rank worst.2 :=
        findWorst_ok [first] (ranked.subset inside) rfl (by simp)
      rw [tail_cons, headD_cons, ran, ok_bind,
        ranked row (by simp) worst.2 (inside (mem_of_getElem? found)), ok_bind]
      refine ⟨_, rfl, fun tied => ?_, ?_, ?_⟩
      · rw [length_append, length_singleton] at tied
        have tied := tied.resolve_left (by omega)
        have same := tied row (by simp) worst.2 (inside (mem_of_getElem? found))
        rw [if_neg (by simp [same]), take_append_of_le_length (by omega)]
        exact spec.first (.inr fun left first right second =>
          tied left (mem_append_left _ first) right (mem_append_left _ second))
      · rw [length_append, length_singleton, apply_ite List.length, length_set, ite_self]
        omega
      split
      next better => exact spec.least.replace above found (compare_lt_iff_lt.mp better)
      next notBetter =>
        exact spec.least.drop above (not_lt.mp (compare_lt_iff_lt.not.mp notBetter))

/-- The loop over all rows, of which those that fail the HAVING clause are left out. -/
theorem Kept.foldlM {having : Option (QueryRow → DbResult Value)} {holds : QueryRow → Bool}
    (positive : 0 < count) (evaluates : ∀ row ∈ rows, passes having row = .ok (holds row))
    (ranked : RankedBy compareRows rank (rows.filter holds))
    : ∃ kept, rows.foldlM (pushPassing compareRows having count) [] = .ok kept
      ∧ Kept rank count (rows.filter holds) kept := by
  induction rows using reverseRecOn with
  | nil => exact ⟨[], rfl, fun _ => take_nil.symm, by simp, [], by simp, by simp⟩
  | append_singleton rows row ih =>
    obtain ⟨others, last⟩ := forall_mem_append.mp evaluates
    rw [filter_append] at ranked ⊢
    obtain ⟨kept, ran, spec⟩ := ih others (ranked.subset (subset_append_left _ _))
    have passed := last row (mem_singleton_self row)
    cases passing : holds row with
    | true =>
      rw [filter_singleton, passing, cond_true] at ranked ⊢
      obtain ⟨after, pushed, spec⟩ := spec.push positive ranked
      exact ⟨after, by simp [ran, pushPassing, passed, passing, pushed], spec⟩
    | false =>
      rw [filter_singleton, passing, cond_false, append_nil]
      exact ⟨kept, by simp [ran, pushPassing, passed, passing], spec⟩

/-- The sorted rows begin with the sorted rows that are kept. -/
theorem Kept.take_sorted (spec : Kept rank count rows kept)
    (exact : Untied rank rows ∨ Tied rank rows)
    : (sortedBy rank rows).take count = (sortedBy rank kept).take count := by
  rcases exact with untied | tied
  · obtain ⟨dropped, perm, least⟩ := spec.least
    have length := spec.length
    have total := perm.length_eq
    rw [length_append] at total
    have : Std.Total fun left right : QueryRow => rank left ≤ rank right :=
      ⟨fun _ _ => le_total _ _⟩
    have : IsTrans QueryRow fun left right => rank left ≤ rank right := ⟨fun _ _ _ => le_trans⟩
    have sorted : sortedBy rank rows = sortedBy rank kept ++ sortedBy rank dropped := by
      have perm : sortedBy rank rows ~ sortedBy rank kept ++ sortedBy rank dropped :=
        (perm_insertionSort _ _).trans (perm.symm.trans
          ((perm_insertionSort _ _).append (perm_insertionSort _ _)).symm)
      refine perm.eq_of_pairwise (fun left right first second below above => ?_)
        (pairwise_insertionSort _ _) ?_
      · rw [← perm.mem_iff, mem_insertionSort] at second
        exact untied left ((mem_insertionSort _).mp first) right second (le_antisymm below above)
      · refine pairwise_append.mpr ⟨pairwise_insertionSort _ _, pairwise_insertionSort _ _, ?_⟩
        simpa using least
    by_cases few : rows.length ≤ count
    · rw [spec.first (.inl few), take_of_length_le few]
    rw [sorted, take_append_of_le_length (by simp; omega)]
  · have unchanged {rows : List QueryRow} (tied : Tied rank rows) : sortedBy rank rows = rows :=
      Pairwise.insertionSort_eq (pairwise_of_forall_mem_list fun left first right second =>
        (tied left first right second).le)
    have some : Tied rank (rows.take count) := fun left first right second =>
      tied left (mem_of_mem_take first) right (mem_of_mem_take second)
    rw [spec.first (.inr tied), unchanged tied, unchanged some, take_take, Nat.min_self]

section

variable {Collation : Type} {orderBy : List (SimpleOrderByPlan Collation)}
  {compareCollated : Option Collation → Value → Value → DbResult Ordering}
  {having : Option (QueryRow → DbResult Value)} {holds : QueryRow → Bool}

/-- The result is the page of the stable sort of the rows that pass the HAVING clause. -/
def PageExact (rank : QueryRow → Rank)
    (compareCollated : Option Collation → Value → Value → DbResult Ordering)
    (orderBy : List (SimpleOrderByPlan Collation)) (having : Option (QueryRow → DbResult Value))
    (holds : QueryRow → Bool) (rows : List QueryRow) (limit : Option Nat) (offset : Nat) : Prop :=
  ∀ columns, applySimpleGroupedPostprocessing compareCollated rows columns having (some orderBy)
      limit offset
    = .ok { columns, rows := pageOf limit offset (sortedBy rank (rows.filter holds)) }

/-- Pages of rows are exact if no two different ones are tied, or all of them are. -/
theorem pageExact_of_untied (evaluates : ∀ row ∈ rows, passes having row = .ok (holds row))
    (ranked : RankedBy (compareQueryRowsByProjectionOrder compareCollated orderBy) rank
      (rows.filter holds))
    (exact : Untied rank (rows.filter holds) ∨ Tied rank (rows.filter holds))
    (limit : Option Nat) (offset : Nat)
    : PageExact rank compareCollated orderBy having holds rows limit offset := by
  intro columns
  cases limit with
  | none =>
    have filtered : Results.filterResults (passes having) rows = .ok (rows.filter holds) :=
      Results.filterResults_ok.mpr ⟨fun row member => ⟨_, evaluates row member⟩,
        filter_congr fun row member => by simp [evaluates row member, Except.toOption]⟩
    simp [applySimpleGroupedPostprocessing, filtered, sortQueryRows_ok ranked]
  | some limited =>
    rw [applySimpleGroupedPostprocessing]
    split
    next zero => simp [pageOf, show limited = 0 by omega]
    next positive =>
      obtain ⟨kept, ran, spec⟩ := Kept.foldlM (Nat.pos_of_ne_zero positive) evaluates ranked
      obtain ⟨dropped, perm, -⟩ := spec.least
      have inside : kept ⊆ rows.filter holds := fun row member =>
        perm.subset (mem_append_left _ member)
      dsimp only
      rw [ran, ok_bind, sortQueryRows_ok (ranked.subset inside), ok_bind, pageOf, pageOf]
      simp only [Option.elim_some, take_drop]
      rw [spec.take_sorted exact]

/-- Of three rows the third takes the place of the first, if this is a worst one of the two. -/
theorem foldlM_three {compareRows : QueryRow → QueryRow → DbResult Ordering}
    {first second third : QueryRow}
    (passing : ∀ row ∈ [first, second, third], passes having row = .ok true)
    (ranked : RankedBy compareRows rank [first, second, third])
    (better : rank third < rank first) (worst : rank second ≤ rank first)
    : [first, second, third].foldlM (pushPassing compareRows having 2) []
      = .ok [third, second] := by
  have notWorse : compare (rank second) (rank first) ≠ .gt := by
    simpa [compare_gt_iff_gt] using worst
  have compared := ranked second (by simp) first (by simp)
  have taken := ranked third (by simp) first (by simp)
  rw [compare_lt_iff_lt.mpr better] at taken
  obtain ⟨passesFirst, passesSecond, passesThird⟩ : passes having first = .ok true
      ∧ passes having second = .ok true ∧ passes having third = .ok true := by simpa using passing
  simp [pushPassing, passesFirst, passesSecond, passesThird, pushBoundedProjectionOrderedQueryRow,
    findWorst, compared, notWorse, taken]

/-- Then the first page of two rows has these two. -/
theorem PageExact.three {first second third : QueryRow}
    (evaluates : ∀ row ∈ [first, second, third], passes having row = .ok (holds row))
    (passing : ∀ row ∈ [first, second, third], holds row)
    (ranked : RankedBy (compareQueryRowsByProjectionOrder compareCollated orderBy) rank
      [first, second, third])
    (better : rank third < rank first) (worst : rank second ≤ rank first)
    (exact : PageExact rank compareCollated orderBy having holds [first, second, third] (some 2) 0)
    : sortedBy rank [third, second] = (sortedBy rank [first, second, third]).take 2 := by
  have run := foldlM_three (fun row member => (evaluates row member).trans
    (congrArg Except.ok (passing row member))) ranked better worst
  have two : RankedBy (compareQueryRowsByProjectionOrder compareCollated orderBy) rank
    [third, second] := ranked.subset (by simp)
  have result := exact []
  rw [filter_eq_self.mpr passing, applySimpleGroupedPostprocessing, if_neg (by decide)] at result
  dsimp only at result
  rw [Nat.zero_add, run, ok_bind, sortQueryRows_ok two, ok_bind] at result
  have pages := congrArg QueryResult.rows (Except.ok.inj result)
  simp only [pageOf, Option.elim_some, drop_zero] at pages
  have fits : (sortedBy rank [third, second]).length ≤ 2 := (length_insertionSort _ _).le
  rwa [take_of_length_le fits] at pages

/-- No two different rows that pass are tied, or all of them are. -/
def TiesHarmless (rank : QueryRow → Rank) (among : Set QueryRow) (holds : QueryRow → Bool)
    : Prop :=
  Set.InjOn rank {row ∈ among | holds row}
    ∨ ∀ left ∈ among, holds left → ∀ right ∈ among, holds right → rank left = rank right

section

variable {among : Set QueryRow} (evaluates : ∀ row ∈ among, passes having row = .ok (holds row))
  (ranked : ∀ rows, (∀ row ∈ rows, row ∈ among ∧ holds row)
    → RankedBy (compareQueryRowsByProjectionOrder compareCollated orderBy) rank rows)
include evaluates ranked

/-- Pages of lists of the rows are exact. -/
theorem TiesHarmless.pageExact (harmless : TiesHarmless rank among holds)
    (inside : ∀ row ∈ rows, row ∈ among) (limit : Option Nat) (offset : Nat)
    : PageExact rank compareCollated orderBy having holds rows limit offset := by
  have passing : ∀ row ∈ rows.filter holds, row ∈ among ∧ holds row := fun row member =>
    ⟨inside row (mem_of_mem_filter member), of_mem_filter member⟩
  refine pageExact_of_untied (fun row member => evaluates row (inside row member))
    (ranked _ passing) (harmless.imp (fun unique left first right second same => ?_)
      fun same left first right second => ?_) limit offset
  · exact unique (passing left first) (passing right second) same
  · obtain ⟨isLeft, holdsLeft⟩ := passing left first
    obtain ⟨isRight, holdsRight⟩ := passing right second
    exact same left isLeft holdsLeft right isRight holdsRight

/-- Two different tied rows and one of another rank make a list with an inexact page: a better row
comes after the tied ones, or a worse one before them.
-/
theorem tiesHarmless_of_pageExact (exact : ∀ rows : List QueryRow, (∀ row ∈ rows, row ∈ among)
      → PageExact rank compareCollated orderBy having holds rows (some 2) 0)
    : TiesHarmless rank among holds := by
  by_contra harmful
  obtain ⟨tied, different⟩ := not_or.mp harmful
  simp only [Set.InjOn, not_forall] at tied different
  obtain ⟨left, isLeft, right, isRight, same, unequal⟩ := tied
  obtain ⟨other, isOther, untied⟩ : ∃ other, (other ∈ among ∧ holds other)
      ∧ rank other ≠ rank left := by
    obtain ⟨first, isFirst, holdsFirst, second, isSecond, holdsSecond, untied⟩ := different
    by_cases first_tied : rank first = rank left
    · exact ⟨second, ⟨isSecond, holdsSecond⟩, fun second_tied =>
        untied (first_tied.trans second_tied.symm)⟩
    · exact ⟨first, ⟨isFirst, holdsFirst⟩, first_tied⟩
  have three {first second third : QueryRow}
      (members : ∀ row ∈ [first, second, third], row ∈ among ∧ holds row)
      (better : rank third < rank first) (worst : rank second ≤ rank first) :=
    (exact [first, second, third] fun row member => (members row member).1).three
      (fun row member => evaluates row (members row member).1)
      (fun row member => (members row member).2) (ranked _ members) better worst
  rcases lt_or_gt_of_ne untied with better | worse
  · have page := three (by simpa using ⟨isLeft, isRight, isOther⟩) better same.ge
    have best := better.trans_eq same
    simp [orderedInsert, same, best.le, best.not_ge] at page
    exact unequal page.symm
  · have page := three (by simpa using ⟨isOther, isLeft, isRight⟩) (same ▸ worse) worse.le
    have last := same.symm.trans_lt worse
    simp [orderedInsert, same, last.not_ge] at page
    exact unequal page.1.symm

end

end

end

/-- A page of rows of integers by the first column. -/
def integersByFirst (rows : List (List Int64)) (limit offset : Nat) : DbResult QueryResult :=
  applySimpleProjectionPostprocessingWithOrder
    (fun _ : Option String => @compareValues noTextScalars) (rows.map (map .int64)) ["n"] (some [⟨0, false, none⟩]) (some limit) offset

def firstInteger : QueryRow → Int
  | .int64 value :: _ => value.toInt
  | _ => 0

end DecentDb.Query
