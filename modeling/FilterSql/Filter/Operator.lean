import FilterSql.Connective

/-!
The sixteen comparison operators of the filter language and the keys they are written with.

A key that starts with an underscore stands in *operator position*, unless it combines filters.
-/

namespace FilterSql

/-- A comparison operator. -/
inductive Operator where
  | eq
  | neq
  | contains
  | notContains
  | gt
  | gte
  | lt
  | lte
  | isIn
  | notIn
  | isNull
  | notNull
  | isEmpty
  | notEmpty
  | between
  | notBetween
  deriving DecidableEq, Repr

namespace Operator

/-- The key of an operator. -/
def key : Operator → String
  | .eq => "_eq"
  | .neq => "_neq"
  | .contains => "_contains"
  | .notContains => "_ncontains"
  | .gt => "_gt"
  | .gte => "_gte"
  | .lt => "_lt"
  | .lte => "_lte"
  | .isIn => "_in"
  | .notIn => "_nin"
  | .isNull => "_null"
  | .notNull => "_nnull"
  | .isEmpty => "_empty"
  | .notEmpty => "_nempty"
  | .between => "_between"
  | .notBetween => "_nbetween"

/-- The operator of a key. -/
def ofKey? : String → Option Operator
  | "_eq" => some .eq
  | "_neq" => some .neq
  | "_contains" => some .contains
  | "_ncontains" => some .notContains
  | "_gt" => some .gt
  | "_gte" => some .gte
  | "_lt" => some .lt
  | "_lte" => some .lte
  | "_in" => some .isIn
  | "_nin" => some .notIn
  | "_null" => some .isNull
  | "_nnull" => some .notNull
  | "_empty" => some .isEmpty
  | "_nempty" => some .notEmpty
  | "_between" => some .between
  | "_nbetween" => some .notBetween
  | _ => none

@[simp] theorem ofKey?_key (op : Operator) : ofKey? op.key = some op := by
  cases op <;> rfl

theorem key_of_ofKey? {s : String} {op : Operator} (h : ofKey? s = some op) : s = op.key := by
  unfold ofKey? at h
  split at h <;> cases h <;> rfl

end Operator

/-- Whether a key starts with an underscore. -/
def isUnderscored (key : String) : Bool := key.toList.head? == some '_'

/-- Whether a key stands in operator position: it starts with an underscore and combines no
filters. -/
def isOperatorKey (key : String) : Bool := isUnderscored key && (Connective.ofKey? key).isNone

end FilterSql
