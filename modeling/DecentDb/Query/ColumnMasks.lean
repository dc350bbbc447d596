import DecentDb.Error
import DecentDb.Identifiers
import DecentDb.Library.Results
import DecentDb.Record.Value

/-! Which columns of a query's output are masked: a mask is found by the table of the column, by the
alias of the table or by the name of the column alone.
-/

namespace DecentDb.Query

open List

structure ActiveColumnMask (Expr : Type) where
  tableName : String
  columnName : String
  expr : Expr

structure ColumnBinding where
  table : Option String
  sourceTable : Option String
  name : String
  hidden : Bool
  deriving DecidableEq

/-- A reference to a column, another expression, or a wildcard. -/
inductive SelectItem (Expr : Type) where
  | column (table : Option String) (column : String)
  | expr (expr : Expr)
  | wildcard
  | qualifiedWildcard (table : String)

def ColumnBinding.visible (table : Option String) (name : String) : ColumnBinding where
  table
  sourceTable := table
  name
  hidden := false

/-- Whether a reference is to a column of this name and, if it has a qualifier, of this table. -/
def ColumnBinding.answers (table : Option String) (column : String) (binding : ColumnBinding)
    : Bool :=
  identifiersEqual binding.name column
    && table.all fun table => binding.table.any (identifiersEqual · table)

/-- The position of a column, of which hidden ones need a qualifier. -/
def resolveColumn (columns : List ColumnBinding) (table : Option String) (column : String)
    : DbResult Nat :=
  let matching (binding : ColumnBinding) :=
    (table.isSome || !binding.hidden) && binding.answers table column
  if table.any (identifiersEqual · "excluded") then
    .error (.sql "EXCLUDED is only valid in ON CONFLICT DO UPDATE")
  else match columns.filter matching with
    | [] => .error (.sql s!"unknown column {column}")
    | [_] => .ok (columns.findIdx matching)
    | _ => .error (.sql s!"ambiguous column reference {column}")

def valueAt (row : List Value) (index : Nat) : DbResult Value :=
  match row[index]? with
  | some value => .ok value
  | none => .error (.internal "row is shorter than its bindings")

section

variable {Expr : Type} (masks : List (ActiveColumnMask Expr))

/-- The only one of the masks. -/
def single : List (ActiveColumnMask Expr) → Option (ActiveColumnMask Expr)
  | [mask] => some mask
  | _ => none

def exactMask (binding : ColumnBinding) : Option (ActiveColumnMask Expr) :=
  masks.find? fun mask => identifiersEqual mask.columnName binding.name
    && (binding.sourceTable.or binding.table).any (identifiersEqual · mask.tableName)

def aliasMask (binding : ColumnBinding) : Option (ActiveColumnMask Expr) :=
  (binding.table.filter fun table =>
    binding.sourceTable.all fun source => !identifiersEqual source table).bind fun table =>
      single (masks.filter fun mask => identifiersEqual mask.columnName binding.name
        && identifiersEqual mask.tableName table)

def fallbackMask (binding : ColumnBinding) : Option (ActiveColumnMask Expr) :=
  single (masks.filter fun mask => identifiersEqual mask.columnName binding.name)

variable (evalExpr : Expr → List Value → DbResult Value) (row : List Value)

def maskedOutputValue (binding : ColumnBinding) (value : Value) : DbResult Value :=
  match exactMask masks binding <|> aliasMask masks binding <|> fallbackMask masks binding with
  | some mask => evalExpr mask.expr row
  | none => .ok value

/-- The values that a select item adds to an output row, on the general path of a query. A union of
two ranges and the best matches of a full-text search have paths of their own, which return stored
values.
-/
def projectItem (columns : List ColumnBinding) : SelectItem Expr → DbResult (List Value)
  | .column table column => do
    let binding := (columns.find? (·.answers table column)).getD (.visible table column)
    let index ← resolveColumn columns table column
    let value ← valueAt row index
    let output ← maskedOutputValue masks evalExpr row binding value
    .ok [output]
  | .expr expr => do
    let value ← evalExpr expr row
    .ok [value]
  | .wildcard => ((columns.zip row).filter (!·.1.hidden)).mapM fun (binding, value) =>
    maskedOutputValue masks evalExpr row binding value
  | .qualifiedWildcard table =>
    ((columns.zip row).filter fun (column, _) => !column.hidden && column.table = some table).mapM
      fun (binding, value) => maskedOutputValue masks evalExpr row binding value

/-- What is to be output for a column: the first mask for this column of its table, or its value. -/
def expectedValue (binding : ColumnBinding) (value : Value) : DbResult Value :=
  match masks.find? fun mask => identifiersEqual mask.columnName binding.name
      && binding.sourceTable.any (identifiersEqual · mask.tableName) with
  | some mask => evalExpr mask.expr row
  | none => .ok value

/-- An enabled mask is for this column of its table. -/
def NamedByMask (binding : ColumnBinding) : Prop :=
  ∃ mask ∈ masks, identifiersEqual mask.columnName binding.name
    && binding.sourceTable.any (identifiersEqual · mask.tableName)

/-- A column that no mask names is left alone: there is not exactly one mask on equally named
columns, neither of all tables nor of the table that has the column's alias as its name.
-/
structure LeftAlone (binding : ColumnBinding) : Prop where
  everywhere : (masks.filter fun mask =>
    identifiersEqual mask.columnName binding.name).length ≠ 1
  displayed : ∀ table, binding.table = some table
    → (binding.sourceTable.all fun source => !identifiersEqual source table)
    → (masks.filter fun mask => identifiersEqual mask.columnName binding.name
      && identifiersEqual mask.tableName table).length ≠ 1

/-- A referenced column or one of a wildcard is output as expected. -/
structure ShowsMasks (columns : List ColumnBinding) : Prop where
  reference : ∀ table column index value, resolveColumn columns table column = .ok index
    → row[index]? = some value → ∃ binding, columns[index]? = some binding
      ∧ projectItem masks evalExpr row columns (.column table column)
        = (expectedValue masks evalExpr row binding value).map ([·])
  wildcard : projectItem masks evalExpr row columns .wildcard
    = (columns.zip row).mapM fun (binding, value) => expectedValue masks evalExpr row binding value
  qualified : ∀ table, projectItem masks evalExpr row columns (.qualifiedWildcard table)
    = ((columns.zip row).filter (·.1.table = some table)).mapM
      fun (binding, value) => expectedValue masks evalExpr row binding value

variable {masks evalExpr row} {columns : List ColumnBinding} {binding : ColumnBinding}

/-- A search that needs a single mask fails exactly where there is not one. -/
theorem single_eq_none_iff {list : List (ActiveColumnMask Expr)}
    : single list = none ↔ list.length ≠ 1 := by
  match list with
  | [] | [_] | _ :: _ :: _ => simp [single]

/-- Of the three searches the two later ones find nothing exactly for columns left alone. -/
theorem leftAlone_iff : LeftAlone masks binding
    ↔ aliasMask masks binding = none ∧ fallbackMask masks binding = none := by
  rw [aliasMask, fallbackMask, single_eq_none_iff, Option.bind_eq_none_iff]
  constructor
  · intro alone
    refine ⟨fun table found => single_eq_none_iff.mpr ?_, alone.everywhere⟩
    obtain ⟨isTable, aliased⟩ := Option.filter_eq_some_iff.mp found
    exact alone.displayed table isTable aliased
  · rintro ⟨noAlias, everywhere⟩
    refine ⟨everywhere, fun table isTable aliased => ?_⟩
    exact single_eq_none_iff.mp (noAlias table (Option.filter_eq_some_iff.mpr ⟨isTable, aliased⟩))

section

variable (source : binding.sourceTable.isSome)
include source

/-- On a column of a base table the first search looks for masks of that table. -/
theorem exactMask_eq : exactMask masks binding = masks.find? fun mask =>
    identifiersEqual mask.columnName binding.name
      && binding.sourceTable.any (identifiersEqual · mask.tableName) := by
  obtain ⟨table, isTable⟩ := Option.isSome_iff_exists.mp source
  rw [exactMask, isTable, Option.some_or]

/-- The first search succeeds exactly if a mask names the column. -/
theorem exactMask_isSome_iff : (exactMask masks binding).isSome ↔ NamedByMask masks binding := by
  rw [exactMask_eq source, find?_isSome, NamedByMask]

/-- The first search finds what is expected, and the others nothing for columns left alone. -/
theorem maskedOutputValue_eq (apart : NamedByMask masks binding ∨ LeftAlone masks binding)
    (value : Value)
    : maskedOutputValue masks evalExpr row binding value
      = expectedValue masks evalExpr row binding value := by
  rw [maskedOutputValue, expectedValue, ← exactMask_eq source]
  cases found : exactMask masks binding with
  | some mask => rfl
  | none =>
    rcases apart with named | alone
    · rw [← exactMask_isSome_iff source, found] at named
      cases named
    · obtain ⟨noAlias, noFallback⟩ := leftAlone_iff.mp alone
      rw [noAlias, noFallback]
      rfl

/-- Where the output differs from no mask at all, a search has found one. -/
theorem apart_of_maskedOutputValue_eq
    (same : maskedOutputValue masks (fun _ _ => .ok (.bool true)) row binding .null
      = expectedValue masks (fun _ _ => .ok (.bool true)) row binding .null)
    : NamedByMask masks binding ∨ LeftAlone masks binding := by
  rw [maskedOutputValue, expectedValue, ← exactMask_eq source] at same
  cases found : exactMask masks binding with
  | some mask => exact .inl ((exactMask_isSome_iff source).mp (by rw [found]; rfl))
  | none =>
    rw [found] at same
    refine .inr (leftAlone_iff.mpr ?_)
    cases noAlias : aliasMask masks binding with
    | some mask =>
      rw [noAlias] at same
      cases same
    | none =>
      cases noFallback : fallbackMask masks binding with
      | some mask =>
        rw [noAlias, noFallback] at same
        cases same
      | none => exact ⟨rfl, rfl⟩

end

/-- Without hidden columns a reference resolves to the first column that answers it. -/
theorem resolveColumn_find {table : Option String} {column : String} {index : Nat}
    (visible : ∀ binding ∈ columns, !binding.hidden)
    (resolved : resolveColumn columns table column = .ok index)
    : ∃ binding, columns[index]? = some binding
      ∧ columns.find? (·.answers table column) = some binding := by
  have same : ∀ binding ∈ columns, ((table.isSome || !binding.hidden)
      && binding.answers table column) = binding.answers table column := fun binding member => by
    simp [visible binding member]
  simp only [resolveColumn] at resolved
  split at resolved
  · cases resolved
  split at resolved
  · cases resolved
  next binding only =>
    cases resolved
    refine ⟨binding, ?_, ?_⟩
    · rw [← find?_eq_getElem?_findIdx, ← head?_filter, only]
      rfl
    · rw [← head?_filter, ← filter_congr same, only]
      rfl
  · cases resolved

/-- With a constant for all masks, the output says whether some search has found one. -/
theorem maskedOutputValue_const (value : Value)
    : maskedOutputValue masks (fun _ _ => .ok (.bool true)) row binding value
      = .ok (((exactMask masks binding <|> aliasMask masks binding
        <|> fallbackMask masks binding).map fun _ => .bool true).getD value) := by
  rw [maskedOutputValue]
  cases exactMask masks binding <|> aliasMask masks binding <|> fallbackMask masks binding <;> rfl

/-- The wildcard shows every column, so that the values of a single column can be told from it. -/
theorem maskedOutputValue_of_showsMasks (visible : ∀ binding ∈ columns, !binding.hidden)
    (shows : ShowsMasks masks (fun _ _ => .ok (.bool true)) (columns.map fun _ => .null) columns)
    (member : binding ∈ columns)
    : maskedOutputValue masks (fun _ _ => .ok (.bool true)) (columns.map fun _ => .null) binding .null
      = expectedValue masks (fun _ _ => .ok (.bool true)) (columns.map fun _ => .null) binding
        .null := by
  have whole := shows.wildcard
  rw [projectItem, filter_eq_self.mpr fun pair member => visible _ (of_mem_zip member).1] at whole
  have listed : (binding, Value.null) ∈ columns.zip (columns.map fun _ => .null) := by
    rw [← map_prod_left_eq_zip]
    exact mem_map.mpr ⟨binding, member, rfl⟩
  generalize columns.zip (columns.map fun _ => Value.null) = pairs at whole listed
  generalize columns.map (fun _ => Value.null) = row at whole ⊢
  have ran := Results.mapM_eq_map fun pair (_ : pair ∈ pairs) =>
    @maskedOutputValue_const _ masks row pair.1 pair.2
  have expected := whole.symm.trans ran
  exact Results.eq_of_mapM_ok ran expected (binding, .null) listed

end

/-- The columns of two tables that both have a column `email`. -/
def customerColumns : List ColumnBinding :=
  [.visible (some "users") "email", .visible (some "orders") "email"]

/-- A mask on the column of the first table. -/
def emailMask : ActiveColumnMask Value := ⟨"users", "email", .text "***"⟩

end DecentDb.Query
