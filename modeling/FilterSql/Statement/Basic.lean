import FilterSql.Connective
import FilterSql.Sql.Value

/-!
Select statements and their conditions.

A predicate is a condition on the columns of a statement, which are qualified by the table of the
statement or by the alias of one of its joins. A predicate may ask whether a column is among the
results of another statement, so predicates and statements are defined together.
-/

namespace FilterSql

/-- A column qualified by a table or an alias. -/
structure ColumnRef where
  table : String
  column : String
  deriving DecidableEq, Repr

/-- A left join of a table under an alias, on the equality of two columns. -/
structure Join where
  table : String
  qualifier : String
  left : ColumnRef
  right : ColumnRef
  deriving DecidableEq, Repr

/-- An entry of an ordering. -/
structure OrderEntry where
  column : ColumnRef
  descending : Bool
  deriving DecidableEq, Repr

/-- The relations between a column and a value. -/
inductive Comparison where
  | eq
  | neq
  | gt
  | gte
  | lt
  | lte
  deriving DecidableEq, Repr

/-- The SQL operator of a comparison. -/
def Comparison.symbol : Comparison → String
  | .eq => "="
  | .neq => "<>"
  | .gt => ">"
  | .gte => ">="
  | .lt => "<"
  | .lte => "<="

/-- A statement whose conditions are of type `P`. Without columns of its own it selects all columns
of its collection; its conditions must all hold. -/
structure SelectOf (P : Type) where
  collection : String
  columns : List String
  joins : List Join
  predicates : List P
  orderBy : List OrderEntry
  limit : Option Nat
  offset : Option Nat
  deriving DecidableEq, Repr

/-- A condition of a statement. -/
inductive Predicate where
  /-- all hold; none of them hold vacuously -/
  | and (items : List Predicate)
  /-- at least one holds -/
  | or (items : List Predicate)
  | compare (column : ColumnRef) (op : Comparison) (value : SqlValue)
  /-- the pattern is complete and its metacharacters are escaped by backslashes -/
  | like (column : ColumnRef) (pattern : String) (negated caseInsensitive : Bool)
  | inList (column : ColumnRef) (values : List SqlValue) (negated : Bool)
  | between (column : ColumnRef) (low high : SqlValue) (negated : Bool)
  | isNull (column : ColumnRef) (negated : Bool)
  /-- the column is among the results of a statement -/
  | inSelect (column : ColumnRef) (select : SelectOf Predicate)
  deriving Repr, Inhabited

/-- A select statement. -/
abbrev Select := SelectOf Predicate

namespace Select

/-- The statement that selects everything from a collection. -/
def ofCollection (collection : String) : Select :=
  ⟨collection, [], [], [], [], none, none⟩

end Select

namespace Predicate

/-- Predicates under a connective; a single one stands for itself. -/
def group (op : Connective) : List Predicate → Predicate
  | [p] => p
  | items =>
    match op with
    | .and => and items
    | .or => or items

/-- The column is null or the empty text. -/
def isEmpty (column : ColumnRef) : Predicate :=
  or [isNull column false, compare column .eq (.text "")]

/-- The column is neither null nor the empty text. -/
def isNotEmpty (column : ColumnRef) : Predicate :=
  and [isNull column true, compare column .neq (.text "")]

@[simp] theorem group_singleton (op : Connective) (p : Predicate) : group op [p] = p := by
  cases op <;> rfl

theorem group_cons_cons (op : Connective) (p q : Predicate) (rest : List Predicate) :
    group op (p :: q :: rest) =
      match op with
      | .and => and (p :: q :: rest)
      | .or => or (p :: q :: rest) := by
  cases op <;> rfl

end Predicate

end FilterSql
