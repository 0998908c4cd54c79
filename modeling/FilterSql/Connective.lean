/-!
The two ways in which conditions are combined, in filters and in SQL alike.
-/

namespace FilterSql

/-- Conjunction or disjunction. -/
inductive Connective where
  | and
  | or
  deriving DecidableEq, Repr

namespace Connective

/-- The key of a filter entry that combines filters. -/
def key : Connective → String
  | .and => "_and"
  | .or => "_or"

/-- The connective of a filter key. -/
def ofKey? : String → Option Connective
  | "_and" => some .and
  | "_or" => some .or
  | _ => none

/-- The SQL keyword. -/
def keyword : Connective → String
  | .and => "AND"
  | .or => "OR"

@[simp] theorem ofKey?_key (op : Connective) : ofKey? op.key = some op := by
  cases op <;> rfl

theorem key_of_ofKey? {s : String} {op : Connective} (h : ofKey? s = some op) : s = op.key := by
  unfold ofKey? at h
  split at h <;> cases h <;> rfl

end Connective

end FilterSql
