import FilterSql.Error
import FilterSql.Number.Reading
import FilterSql.Schema.LocalType
import FilterSql.Sql.Like
import FilterSql.Statement.Basic
import FilterSql.Text.Split

/-!
The predicate of a single comparison.

List operators take a string of parts between commas, each read as the column's type where that is
possible, or an array, whose inner arrays are opened one level. The tests for null and for emptiness
are turned around by the operand `false`, and by no other.
-/

namespace FilterSql

namespace Leaf

/-- A part of a comma string as a value of a column's type; a part that is none stays text, with its
blanks. -/
def coercePart (localType : LocalType) (part : String) : SqlValue :=
  let trimmed := Text.trim part.toList
  match localType with
  | .numeric =>
    match Reading.int64? trimmed with
    | some n => .int n
    | none =>
      match Reading.decimal? trimmed with
      | some x => .float (.finite x)
      | none => .text part
  | .boolean =>
    if trimmed = "true".toList then .bool true
    else if trimmed = "false".toList then .bool false
    else .text part
  | _ => .text part

/-- The values of an item of an array: an inner array is opened. -/
def itemValues : Json → List SqlValue
  | .array inner => inner.map SqlValue.ofJson
  | item => [SqlValue.ofJson item]

/-- The values of a list operand, repetitions included. -/
def listValues (localType : LocalType) : Json → List SqlValue
  | .string s => (Text.split ',' s).map (coercePart localType)
  | .array items => items.flatMap itemValues
  | operand => [SqlValue.ofJson operand]

/-- The values that equal none of those seen before them. -/
def distinctAfter (seen : List SqlValue) : List SqlValue → List SqlValue
  | [] => []
  | v :: rest =>
    if seen.any (·.same v) then distinctAfter seen rest
    else v :: distinctAfter (seen ++ [v]) rest

/-- The first occurrences of values. -/
def distinct (values : List SqlValue) : List SqlValue := distinctAfter [] values

/-- Whether an operand is the boolean false. -/
def isFalse : Json → Bool
  | .bool false => true
  | _ => false

/-- The comparison of a column with an operand. -/
def compare (column : ColumnRef) (op : Comparison) (operand : Json) : Predicate :=
  .compare column op (.ofJson operand)

/-- The test whether a column contains the text of an operand, letter case included. -/
def containment (column : ColumnRef) (operand : Json) (negated : Bool) : Predicate :=
  .like column (Like.containing (SqlValue.ofJson operand).toText) negated false

/-- The test whether a column lies in a range, which has exactly two bounds. -/
def range (column : ColumnRef) (localType : LocalType) (operator : Operator) (operand : Json)
    (negated : Bool) : Except CompileError Predicate :=
  match listValues localType operand with
  | [low, high] => .ok (.between column low high negated)
  | bounds => .error (.invalidOperand operator column.column (.bounds bounds.length))

/-- The predicate of a comparison. -/
def predicate (column : ColumnRef) (localType : LocalType) (operator : Operator) (operand : Json) :
    Except CompileError Predicate :=
  match operator, operand with
  | .eq, .null => .ok (.isNull column false)
  | .neq, .null => .ok (.isNull column true)
  | .eq, _ => .ok (compare column .eq operand)
  | .neq, _ => .ok (compare column .neq operand)
  | .gt, _ => .ok (compare column .gt operand)
  | .gte, _ => .ok (compare column .gte operand)
  | .lt, _ => .ok (compare column .lt operand)
  | .lte, _ => .ok (compare column .lte operand)
  | .contains, _ => .ok (containment column operand false)
  | .notContains, _ => .ok (containment column operand true)
  | .isIn, _ => .ok (.inList column (distinct (listValues localType operand)) false)
  | .notIn, _ => .ok (.inList column (distinct (listValues localType operand)) true)
  | .between, _ => range column localType operator operand false
  | .notBetween, _ => range column localType operator operand true
  | .isNull, _ => .ok (.isNull column (isFalse operand))
  | .notNull, _ => .ok (.isNull column (!isFalse operand))
  | .isEmpty, _ =>
    .ok (if isFalse operand then Predicate.isNotEmpty column else Predicate.isEmpty column)
  | .notEmpty, _ =>
    .ok (if isFalse operand then Predicate.isEmpty column else Predicate.isNotEmpty column)

end Leaf

end FilterSql
