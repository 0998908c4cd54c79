import FilterSql.Json.Printer
import FilterSql.Number.Datum

/-!
Values of SQL parameters, and the values that JSON documents stand for.

Integers of a value fit sixty-four bits with sign; a larger JSON integer becomes the binary64 number
nearest to it. Arrays and objects are compared as their compact text. A document has finite numbers
only; a value made by hand may also hold an infinity or a NaN.
-/

namespace FilterSql

/-- A value compared with a column. -/
inductive SqlValue where
  | null
  | bool (b : Bool)
  | int (n : Int)
  | float (x : Binary64.Datum)
  | text (s : String)
  deriving DecidableEq, Repr, Inhabited

namespace SqlValue

/-- Equality of values: numbers of the same form are compared as numbers, so that the two zeros are
equal, an integer never equals a binary64 number, and a NaN equals nothing. -/
def same : SqlValue → SqlValue → Bool
  | null, null => true
  | bool a, bool b => a == b
  | int a, int b => a == b
  | float a, float b => a.sameNumber b
  | text a, text b => a == b
  | _, _ => false

/-- Whether a value is a NaN, the only one that does not equal itself. -/
def isNaN : SqlValue → Bool
  | float x => x.isNaN
  | _ => false

@[simp] theorem same_self (v : SqlValue) : v.same v = !v.isNaN := by
  cases v <;> simp [same, isNaN]

/-- The value of a JSON number. -/
def ofNumber : Number → SqlValue
  | .integer n =>
    if n < Word64.signedLimit then int n
    else float (.finite ((Binary64.ofInt? n).getD default))
  | .floating x => float (.finite x)

/-- The value of a JSON document. -/
def ofJson : Json → SqlValue
  | .null => null
  | .bool b => bool b
  | .number n => ofNumber n
  | .string s => text s
  | .array items => text (Json.compact (.array items))
  | .object members => text (Json.compact (.object members))

theorem isNaN_ofNumber (n : Number) : (ofNumber n).isNaN = false := by
  cases n with
  | integer n =>
    simp only [ofNumber]
    split <;> rfl
  | floating _ => rfl

/-- The value of a document equals itself. -/
theorem isNaN_ofJson (j : Json) : (ofJson j).isNaN = false := by
  cases j with
  | number n => exact isNaN_ofNumber n
  | _ => rfl

/-- How binary64 numbers stand in a text: never with an exponent, and whole numbers without a
fraction. -/
def plainStyle : DecimalStyle where
  tie := .up
  leastPositional := none
  greatestPositional := none
  wholeFraction := false

/-- The text of a binary64 datum. -/
def floatText : Binary64.Datum → String
  | .finite x => plainStyle.write x
  | .infinity negative => if negative then "-inf" else "inf"
  | .nan _ _ => "NaN"

/-- The text of a value inside a pattern. -/
def toText : SqlValue → String
  | null => "null"
  | bool true => "true"
  | bool false => "false"
  | int n => Json.writeNumber (.integer n)
  | float x => floatText x
  | text s => s

/-- The JSON document of a value. A document cannot hold infinities and NaNs; null stands for
them. -/
def toJson : SqlValue → Json
  | null => .null
  | bool b => .bool b
  | int n => .number (.integer n)
  | float (.finite x) => .number (.floating x)
  | float _ => .null
  | text s => .string s

end SqlValue

end FilterSql
