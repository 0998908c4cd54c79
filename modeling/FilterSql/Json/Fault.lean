import FilterSql.Json.Printer
import FilterSql.Text.Split
import FilterSql.Text.Visible

/-!
What can be wrong with a JSON text, as a text or as a value of an expected type.
-/

namespace FilterSql

namespace Json

/-- What stands where something else was wanted. -/
inductive Found where
  | null
  | boolean (b : Bool)
  | number (n : Number)
  | string (s : String)
  | sequence
  | map
  deriving DecidableEq, Repr

/-- The first thing wrong with a text. -/
inductive Fault where
  /-- the text is no JSON text -/
  | malformed
  | invalidType (found : Found) (wanted : String)
  | invalidValue (n : Int) (wanted : String)
  | invalidLength (length : Nat) (wanted : String)
  | missingField (name : String)
  | duplicateField (name : String)
  | unknownVariant (name : String) (known : List String)
  deriving DecidableEq, Repr

/-- A name between backticks. -/
def tick (s : String) : String := "`" ++ s ++ "`"

/-- The wording of what was found. -/
def Found.describe : Found → String
  | .null => "null"
  | .boolean b => "boolean " ++ tick (if b then "true" else "false")
  | .number (.integer n) => "integer " ++ tick (writeNumber (.integer n))
  | .number (.floating x) => "floating point " ++ tick (writeNumber (.floating x))
  | .string s => "string " ++ Text.visible s
  | .sequence => "sequence"
  | .map => "map"

/-- The wording of a list of names to choose from. -/
def choices : List String → String
  | [] => "there are no variants"
  | [a] => "expected " ++ tick a
  | [a, b] => "expected " ++ tick a ++ " or " ++ tick b
  | names => "expected one of " ++ Text.join ", " (names.map tick)

/-- The wording of a fault. Malformed texts are all described alike. -/
def Fault.message : Fault → String
  | .malformed => "<syntax>"
  | .invalidType found wanted => "invalid type: " ++ found.describe ++ ", expected " ++ wanted
  | .invalidValue n wanted =>
    "invalid value: integer " ++ tick (writeNumber (.integer n)) ++ ", expected " ++ wanted
  | .invalidLength n wanted => "invalid length " ++ toString n ++ ", expected " ++ wanted
  | .missingField name => "missing field " ++ tick name
  | .duplicateField name => "duplicate field " ++ tick name
  | .unknownVariant name known => "unknown variant " ++ tick name ++ ", " ++ choices known

end Json

end FilterSql
