import FilterSql.Number.Reading
import FilterSql.Schema.Catalog
import FilterSql.Sql.Like
import FilterSql.Statement.Basic

/-!
Searching a collection for a term.

The columns that can hold the term are tested one by one: text columns for containing it, letter case
aside, numeric columns for the number that it reads as, and columns of universally unique identifiers
for the term itself where it is one. Nothing matches when no column can hold it.
-/

namespace FilterSql

namespace Search

/-- Whether a character is a hexadecimal digit. -/
def isHex (c : Char) : Bool :=
  ('0' ≤ c && c ≤ '9') || ('a' ≤ c && c ≤ 'f') || ('A' ≤ c && c ≤ 'F')

/-- Whether a term is a universally unique identifier: hexadecimal digits in groups of eight, four,
four, four and twelve with hyphens between them. -/
def isUuid (term : String) : Bool :=
  let groups := Text.split '-' term
  groups.map String.length == [8, 4, 4, 4, 12] && groups.all fun g => g.toList.all isHex

/-- The finite number that a term reads as, blanks around it aside: an integer if it is one. -/
def number? (term : String) : Option SqlValue :=
  let trimmed := Text.trim term.toList
  match Reading.int64? trimmed with
  | some n => some (.int n)
  | none => (Reading.decimal? trimmed).map fun x => .float (.finite x)

/-- The test of a column for a term, if the column can hold it. -/
def columnTest (collection term : String) (c : Column) : Option Predicate :=
  let column : ColumnRef := ⟨collection, c.name⟩
  match c.localType with
  | .text => some (.like column (Like.containing (Text.lower term)) false true)
  | .numeric => (number? term).map (.compare column .eq)
  | .uuid => if isUuid term then some (.compare column .eq (.text term)) else none
  | _ => none

/-- The test of a collection for a term. -/
def predicate (cat : Catalog) (collection term : String) : Except CompileError Predicate := do
  let c ← cat.requireCollection collection
  return .or (c.columns.filterMap (columnTest c.name term))

end Search

end FilterSql
