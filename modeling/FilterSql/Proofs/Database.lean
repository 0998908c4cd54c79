import FilterSql.Compile.Filter
import FilterSql.Proofs.Sql.Pattern
import FilterSql.Proofs.Statement

/-!
What conditions and joins mean on a database.

Conditions have three truth values. A comparison with null is unknown, and a row passes a condition
only if the condition is true. A left join keeps each row, with all rows of the joined table that
match it, or with a row of nulls if there is none. How values of a database compare is left to an
`Engine`.
-/

namespace FilterSql

/-- The truth values of conditions. -/
inductive Truth where
  | yes
  | no
  | unknown
  deriving DecidableEq, Repr

namespace Truth

def ofBool (b : Bool) : Truth := if b then yes else no

def both : Truth → Truth → Truth
  | no, _ => no
  | _, no => no
  | yes, yes => yes
  | _, _ => unknown

def either : Truth → Truth → Truth
  | yes, _ => yes
  | _, yes => yes
  | no, no => no
  | _, _ => unknown

/-- The value of a test or of its negation. -/
def turned (negated : Bool) (t : Truth) : Truth :=
  match negated, t with
  | true, yes => no
  | true, no => yes
  | _, t => t

def all (ts : List Truth) : Truth := ts.foldr both yes

def any (ts : List Truth) : Truth := ts.foldr either no

theorem all_eq_yes {ts : List Truth} : all ts = yes ↔ ∀ t ∈ ts, t = yes := by
  induction ts with
  | nil => simp [all]
  | cons t rest ih =>
      rw [List.forall_mem_cons, ← ih, all, List.foldr_cons, ← all]
      cases t <;> cases all rest <;> simp [both]

theorem any_eq_yes {ts : List Truth} : any ts = yes ↔ yes ∈ ts := by
  induction ts with
  | nil => simp [any]
  | cons t rest ih =>
      rw [List.mem_cons, ← ih, any, List.foldr_cons, ← any]
      cases t <;> cases any rest <;> simp [either]

end Truth

/-- A database system: its values and how they compare. -/
structure Engine where
  Value : Type
  order : Value → Value → Ordering
  ordered : Std.TransCmp order
  /-- the value of a parameter, unless it is null -/
  ofSql : SqlValue → Option Value
  /-- whether a value is like a pattern, letter case aside if it is asked for -/
  matchesPattern : (pattern : String) → (insensitive : Bool) → Value → Bool

/-- Whether values in an order are in a relation. -/
def Comparison.accepts : Comparison → Ordering → Bool
  | .eq, o => o.isEq
  | .neq, o => o.isNe
  | .gt, o => o.isGT
  | .gte, o => o.isGE
  | .lt, o => o.isLT
  | .lte, o => o.isLE

namespace Engine

variable (E : Engine)

/-- A cell of a table: a value, or null. -/
abbrev Cell := Option E.Value

/-- A row gives a cell to every column name. -/
abbrev Row := String → E.Cell

/-- The row of nulls. -/
def nullRow : E.Row := fun _ => none

/-- A database gives rows to every table name. -/
abbrev Database := String → List E.Row

/-- The row that stands for each table or alias while a condition is tested. -/
abbrev Env := String → E.Row

variable {E}

/-- The environment in which a row stands for one more name. -/
def Env.bind (env : E.Env) (name : String) (row : E.Row) : E.Env :=
  fun q => if q = name then row else env q

/-- The cell of a column. -/
def Env.cell (env : E.Env) (c : ColumnRef) : E.Cell := env c.table c.column

/-- The comparison of two cells. -/
def compare (op : Comparison) : E.Cell → E.Cell → Truth
  | some x, some y => .ofBool (op.accepts (E.order x y))
  | _, _ => .unknown

/-- Whether two cells are equal, which null is to nothing. -/
def Same (a b : E.Cell) : Prop := compare (E := E) .eq a b = .yes

instance (a b : E.Cell) : Decidable (Same (E := E) a b) :=
  inferInstanceAs (Decidable (compare (E := E) .eq a b = .yes))

/-- The environments that a left join makes of one. -/
def joinOne (db : E.Database) (j : Join) (env : E.Env) : List E.Env :=
  let matching := (db j.table).filter fun row =>
    let joined := env.bind j.qualifier row
    Same (E := E) (joined.cell j.left) (joined.cell j.right)
  (if matching.isEmpty then [E.nullRow] else matching).map (env.bind j.qualifier)

/-- The environments that left joins make of one, in order. -/
def joinAll (db : E.Database) (joins : List Join) (env : E.Env) : List E.Env :=
  joins.foldl (fun envs j => envs.flatMap (joinOne db j)) [env]

mutual

/-- The truth value of a condition. -/
def truth (db : E.Database) (env : E.Env) : Predicate → Truth
  | .and items => .all (truths db env items)
  | .or items => .any (truths db env items)
  | .compare c op value => compare op (env.cell c) (E.ofSql value)
  | .like c pattern negated insensitive =>
    match env.cell c with
    | some x => (Truth.ofBool (E.matchesPattern pattern insensitive x)).turned negated
    | none => .unknown
  | .inList c values negated =>
    (Truth.any (values.map fun v => compare .eq (env.cell c) (E.ofSql v))).turned negated
  | .between c low high negated =>
    ((compare .gte (env.cell c) (E.ofSql low)).both
      (compare .lte (env.cell c) (E.ofSql high))).turned negated
  | .isNull c negated => (Truth.ofBool (env.cell c).isNone).turned negated
  | .inSelect c select => .any ((results db env select).map (compare .eq (env.cell c)))

/-- The truth values of conditions. -/
def truths (db : E.Database) (env : E.Env) : List Predicate → List Truth
  | [] => []
  | p :: rest => truth db env p :: truths db env rest

/-- The cells of the first selected column of a statement, ordering and paging aside. -/
def results (db : E.Database) (env : E.Env) : SelectOf Predicate → List E.Cell
  | ⟨collection, columns, joins, predicates, _, _, _⟩ =>
    (((db collection).flatMap fun row => joinAll db joins (env.bind collection row)).filter
      fun joined => Truth.all (truths db joined predicates) = .yes).map
      fun joined => (columns.head?.map (joined collection)).getD none

end

section Laws

variable {db : E.Database} {env : E.Env}

theorem truths_eq_map (ps : List Predicate) : truths db env ps = ps.map (truth db env) := by
  induction ps with
  | nil => rfl
  | cons p rest ih => simp [truths, ih]

theorem all_truths_eq_yes {ps : List Predicate} :
    Truth.all (truths db env ps) = .yes ↔ ∀ p ∈ ps, truth db env p = .yes := by
  simp [Truth.all_eq_yes, truths_eq_map]

theorem truth_and_eq_yes {items : List Predicate} :
    truth db env (.and items) = .yes ↔ ∀ p ∈ items, truth db env p = .yes := by
  rw [truth, all_truths_eq_yes]

theorem truth_or_eq_yes {items : List Predicate} :
    truth db env (.or items) = .yes ↔ ∃ p ∈ items, truth db env p = .yes := by
  simp [truth, Truth.any_eq_yes, truths_eq_map]

/-- A column is among the results of a statement if it equals the one of a joined row that passes.
-/
theorem truth_inSelect_eq_yes {c : ColumnRef} {s : Select} (field : String)
    (selected : s.columns = [field]) :
    truth db env (.inSelect c s) = .yes ↔
      ∃ row ∈ db s.collection, ∃ joined ∈ joinAll db s.joins (env.bind s.collection row),
        (∀ p ∈ s.predicates, truth db joined p = .yes) ∧
        Same (env.cell c) (joined s.collection field) := by
  obtain ⟨collection, columns, joins, predicates, orderBy, limit, offset⟩ := s
  obtain rfl : columns = [field] := selected
  simp only [truth, results, Truth.any_eq_yes, List.mem_map, List.mem_filter, List.mem_flatMap,
    decide_eq_true_eq, all_truths_eq_yes]
  constructor
  · rintro ⟨cell, ⟨joined, ⟨⟨row, mem, made⟩, passes⟩, rfl⟩, same⟩
    exact ⟨row, mem, joined, made, passes, same⟩
  · rintro ⟨row, mem, joined, made, passes, same⟩
    exact ⟨_, ⟨joined, ⟨⟨row, mem, made⟩, passes⟩, rfl⟩, same⟩

/-- A test depends on the cell tested and on nothing else. -/
theorem truth_test_congr {test : ColumnRef → Predicate} (isTest : Leaf.IsTest test) {env' : E.Env}
    {c c' : ColumnRef} (same : env.cell c = env'.cell c') :
    truth db env (test c) = truth db env' (test c') := by
  cases isTest <;>
    simp [truth, truths, Predicate.isEmpty, Predicate.isNotEmpty, same]

/-! ### Equality of cells -/

theorem same_iff {a b : E.Cell} :
    Same a b ↔ ∃ x y, a = some x ∧ b = some y ∧ E.order x y = .eq := by
  cases a <;> cases b <;>
    simp [Same, compare, Truth.ofBool, Comparison.accepts, Ordering.isEq_iff_eq_eq]

theorem Same.symm {a b : E.Cell} (same : Same a b) : Same b a := by
  have := E.ordered
  obtain ⟨x, y, rfl, rfl, equal⟩ := same_iff.mp same
  exact same_iff.mpr ⟨y, x, rfl, rfl, Std.OrientedCmp.eq_symm equal⟩

theorem Same.trans {a b c : E.Cell} (first : Same a b) (second : Same b c) : Same a c := by
  have := E.ordered
  obtain ⟨x, y, rfl, rfl, equal⟩ := same_iff.mp first
  obtain ⟨y', z, eq, rfl, equal'⟩ := same_iff.mp second
  cases eq
  exact same_iff.mpr ⟨x, z, rfl, rfl, Std.TransCmp.eq_trans equal equal'⟩

end Laws

/-! ### A database system of texts -/

theorem transCmp_text : Std.TransCmp (Ord.compare : String → String → Ordering) := inferInstance

/-- Values as they are written, which `LIKE` reads with backslashes as escapes. -/
def written : Engine where
  Value := String
  order := Ord.compare
  ordered := transCmp_text
  ofSql
    | .null => none
    | v => some v.toText
  matchesPattern pattern insensitive text :=
    Like.answer pattern (if insensitive then Text.lower text else text) == some true

end Engine

end FilterSql
