import FilterSql.Filter.Operator
import FilterSql.Json.Basic

/-!
Filters as trees.

A filter is the list of its entries, all of which must hold. An entry combines filters, compares the
column at the end of a path with an operand, or applies a filter to what a path leads to.
-/

namespace FilterSql

/-- One entry of a filter. -/
inductive Entry where
  /-- filters combined by a connective -/
  | group (op : Connective) (children : List (List Entry))
  /-- a comparison of the column that the last segment of a path names -/
  | leaf (path : List String) (operator : Operator) (operand : Json)
  /-- a filter on the collection that a path leads to -/
  | nested (path : List String) (body : List Entry)
  deriving Repr, Inhabited

/-- A filter: entries in the order of the document. -/
abbrev Filter := List Entry

namespace Filter

/-- The filter without entries constrains nothing. -/
def isEmpty (f : Filter) : Bool := List.isEmpty f

end Filter

namespace Entry

/-- Whether a combination holds by an empty filter alone. -/
def shortCircuits (op : Connective) (children : List Filter) : Bool :=
  decide (op = .or) && children.any Filter.isEmpty

end Entry

end FilterSql
