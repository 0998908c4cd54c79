import FilterSql.Compile.Leaf

/-!
The parts of statements: the columns that a condition refers to, and the statements inside it.

The columns of a statement are those that stand in it outside of the statements inside it, for each
of which they are asked for on their own. The predicate of a comparison refers to no other column
than the one compared and holds no statement.
-/

namespace FilterSql

namespace Predicate

mutual

/-- The columns of a condition, those of the statements inside it left out. -/
def columns : Predicate → List ColumnRef
  | .and items => columnsAll items
  | .or items => columnsAll items
  | .compare column _ _ => [column]
  | .like column _ _ _ => [column]
  | .inList column _ _ => [column]
  | .between column _ _ _ => [column]
  | .isNull column _ => [column]
  | .inSelect column _ => [column]

/-- The columns of several conditions. -/
def columnsAll : List Predicate → List ColumnRef
  | [] => []
  | p :: rest => columns p ++ columnsAll rest

end

mutual

/-- The statements inside a condition, however deep. -/
def statements : Predicate → List Select
  | .and items => statementsAll items
  | .or items => statementsAll items
  | .inSelect _ select => statementsOf select
  | .compare _ _ _ => []
  | .like _ _ _ _ => []
  | .inList _ _ _ => []
  | .between _ _ _ _ => []
  | .isNull _ _ => []

/-- The statements inside several conditions. -/
def statementsAll : List Predicate → List Select
  | [] => []
  | p :: rest => statements p ++ statementsAll rest

/-- A statement and those inside it. -/
def statementsOf : SelectOf Predicate → List Select
  | ⟨collection, columns, joins, predicates, orderBy, limit, offset⟩ =>
    ⟨collection, columns, joins, predicates, orderBy, limit, offset⟩ :: statementsAll predicates

end

@[simp] theorem columnsAll_append (ps qs : List Predicate) :
    columnsAll (ps ++ qs) = columnsAll ps ++ columnsAll qs := by
  induction ps with
  | nil => rfl
  | cons p rest ih => simp [columnsAll, ih]

@[simp] theorem statementsAll_append (ps qs : List Predicate) :
    statementsAll (ps ++ qs) = statementsAll ps ++ statementsAll qs := by
  induction ps with
  | nil => rfl
  | cons p rest ih => simp [statementsAll, ih]

@[simp] theorem columns_group (op : Connective) (items : List Predicate) :
    (group op items).columns = columnsAll items := by
  cases op <;> rcases items with _ | ⟨p, _ | ⟨q, rest⟩⟩ <;> simp [group, columns, columnsAll]

@[simp] theorem statements_group (op : Connective) (items : List Predicate) :
    (group op items).statements = statementsAll items := by
  cases op <;> rcases items with _ | ⟨p, _ | ⟨q, rest⟩⟩ <;> simp [group, statements, statementsAll]

end Predicate

namespace Select

/-- A statement and those inside it, however deep. -/
def statements (s : Select) : List Select := s :: Predicate.statementsAll s.predicates

/-- The names of the joins of a statement. -/
def qualifiers (s : Select) : List String := s.joins.map (·.qualifier)

/-- The names of all joins of a statement and of those inside it. -/
def aliases (s : Select) : List String := s.statements.flatMap qualifiers

/-- The columns of a statement, those of the statements inside it left out. -/
def columnRefs (s : Select) : List ColumnRef :=
  s.joins.flatMap (fun j => [j.left, j.right]) ++ Predicate.columnsAll s.predicates ++
    s.orderBy.map (·.column)

@[simp] theorem statementsOf_eq (s : Select) : Predicate.statementsOf s = s.statements := by
  cases s
  rfl

end Select

/-- The names of the joins of the statements inside conditions. -/
def Predicate.aliasesAll (ps : List Predicate) : List String :=
  (statementsAll ps).flatMap Select.qualifiers

theorem Select.aliases_eq (s : Select) :
    s.aliases = s.qualifiers ++ Predicate.aliasesAll s.predicates := rfl

/-! ### The predicate of a comparison -/

namespace Leaf

/-- The tests that operators make of a column. -/
inductive IsTest : (ColumnRef → Predicate) → Prop where
  | compare (op : Comparison) (value : SqlValue) : IsTest fun c => .compare c op value
  | like (pattern : String) (negated insensitive : Bool) :
      IsTest fun c => .like c pattern negated insensitive
  | inList (values : List SqlValue) (negated : Bool) : IsTest fun c => .inList c values negated
  | between (low high : SqlValue) (negated : Bool) : IsTest fun c => .between c low high negated
  | isNull (negated : Bool) : IsTest fun c => .isNull c negated
  | isEmpty : IsTest Predicate.isEmpty
  | isNotEmpty : IsTest Predicate.isNotEmpty

/-- A comparison makes one of the tests, and the same one of every column. -/
theorem predicate_isTest {column : ColumnRef} {localType : LocalType} {operator : Operator}
    {operand : Json} {p : Predicate} (made : predicate column localType operator operand = .ok p) :
    ∃ test, IsTest test ∧ p = test column ∧
      ∀ c, predicate c localType operator operand = .ok (test c) := by
  cases operator with
  | eq | neq =>
      cases operand <;> cases made
      all_goals first
        | exact ⟨_, .compare _ _, rfl, fun _ => rfl⟩
        | exact ⟨_, .isNull _, rfl, fun _ => rfl⟩
  | gt | gte | lt | lte =>
      cases made
      exact ⟨_, .compare _ _, rfl, fun _ => rfl⟩
  | contains | notContains =>
      cases made
      exact ⟨_, .like _ _ _, rfl, fun _ => rfl⟩
  | isIn | notIn =>
      cases made
      exact ⟨_, .inList _ _, rfl, fun _ => rfl⟩
  | between | notBetween =>
      simp only [predicate, range] at made ⊢
      split at made
      · cases made
        exact ⟨_, .between _ _ _, rfl, fun _ => rfl⟩
      · cases made
  | isNull | notNull =>
      cases made
      exact ⟨_, .isNull _, rfl, fun _ => rfl⟩
  | isEmpty | notEmpty =>
      cases turned : isFalse operand <;> simp only [predicate, turned] at made ⊢ <;> cases made
      · exact ⟨_, by first | exact .isEmpty | exact .isNotEmpty, rfl, fun _ => rfl⟩
      · exact ⟨_, by first | exact .isEmpty | exact .isNotEmpty, rfl, fun _ => rfl⟩

/-- A test refers to the column tested and to no other. -/
theorem IsTest.columns {test : ColumnRef → Predicate} (isTest : IsTest test) (column : ColumnRef) :
    ∀ c ∈ (test column).columns, c = column := by
  cases isTest <;>
    simp [Predicate.columns, Predicate.columnsAll, Predicate.isEmpty, Predicate.isNotEmpty]

theorem IsTest.mem_columns {test : ColumnRef → Predicate} (isTest : IsTest test)
    (column : ColumnRef) : column ∈ (test column).columns := by
  cases isTest <;>
    simp [Predicate.columns, Predicate.columnsAll, Predicate.isEmpty, Predicate.isNotEmpty]

/-- A test holds no statement. -/
theorem IsTest.statements {test : ColumnRef → Predicate} (isTest : IsTest test)
    (column : ColumnRef) : (test column).statements = [] := by
  cases isTest <;>
    simp [Predicate.statements, Predicate.statementsAll, Predicate.isEmpty, Predicate.isNotEmpty]

end Leaf

end FilterSql
