import FilterSql.Text.Blank
import FilterSql.Text.Case

/-!
Column types apart from the database: what a column holds, inferred from the name of its storage
type.

Letter case, blanks around the name, arguments in parentheses and `unsigned` do not matter, except
that `tinyint(1)` holds booleans.
-/

namespace FilterSql

/-- What a column holds. -/
inductive LocalType where
  | text
  | numeric
  | boolean
  | uuid
  | dateTime
  | json
  | unknown
  deriving DecidableEq, Repr, Inhabited

namespace LocalType

/-- The name of a local type. -/
def name : LocalType → String
  | .text => "text"
  | .numeric => "numeric"
  | .boolean => "boolean"
  | .uuid => "uuid"
  | .dateTime => "datetime"
  | .json => "json"
  | .unknown => "unknown"

/-- The local type of a name. -/
def ofName? : String → Option LocalType
  | "text" => some .text
  | "numeric" => some .numeric
  | "boolean" => some .boolean
  | "uuid" => some .uuid
  | "datetime" => some .dateTime
  | "json" => some .json
  | "unknown" => some .unknown
  | _ => none

@[simp] theorem ofName?_name (t : LocalType) : ofName? t.name = some t := by
  cases t <;> rfl

/-- Storage types that hold text. -/
def textNames : List String :=
  ["char", "character", "varchar", "character varying", "nchar", "nvarchar", "text", "tinytext",
    "mediumtext", "longtext", "ntext", "citext", "string", "clob", "enum", "name"]

/-- Storage types that hold numbers. -/
def numericNames : List String :=
  ["smallint", "int", "integer", "int2", "int4", "int8", "bigint", "tinyint", "mediumint", "serial",
    "smallserial", "bigserial", "hugeint", "ubigint", "uinteger", "decimal", "numeric", "real",
    "float", "float4", "float8", "double", "double precision"]

/-- Storage types that hold booleans. -/
def booleanNames : List String := ["bool", "boolean", "bit"]

/-- Storage types that hold universally unique identifiers. -/
def uuidNames : List String := ["uuid", "uniqueidentifier"]

/-- Storage types that hold dates and times. -/
def dateTimeNames : List String :=
  ["date", "time", "timetz", "datetime", "datetime2", "datetimeoffset", "timestamp", "timestamptz",
    "timestamp with time zone", "timestamp without time zone", "time with time zone",
    "time without time zone"]

/-- Storage types that hold JSON documents. -/
def jsonNames : List String := ["json", "jsonb"]

/-- The local type of a bare storage type name. -/
def ofBaseName (base : String) : LocalType :=
  if base ∈ textNames then .text
  else if base ∈ numericNames then .numeric
  else if base ∈ booleanNames then .boolean
  else if base ∈ uuidNames then .uuid
  else if base ∈ dateTimeNames then .dateTime
  else if base ∈ jsonNames then .json
  else .unknown

/-- The marker of unsigned numbers. -/
def unsignedMark : List Char := " unsigned".toList

/-- Characters, given in reverse, without the markers at their end; `fuel` bounds their number. -/
def dropMarks (mark : List Char) : (fuel : Nat) → List Char → List Char
  | 0, cs => cs
  | fuel + 1, cs =>
    if mark.isPrefixOf cs then dropMarks mark fuel (cs.drop mark.length) else cs

/-- Characters without any markers of unsigned numbers at the end. -/
def dropUnsigned (cs : List Char) : List Char :=
  (dropMarks unsignedMark.reverse cs.length cs.reverse).reverse

/-- The bare name in a normalized storage type: what stands before the first parenthesis. -/
def baseName (normalized : List Char) : List Char :=
  dropUnsigned (Text.trim (normalized.takeWhile (· != '(')))

/-- The local type of a storage type name. -/
def ofStorageType (storageType : String) : LocalType :=
  let normalized := Text.lower (Text.trimmed storageType)
  if normalized = "tinyint(1)" then .boolean
  else ofBaseName (String.ofList (baseName normalized.toList))

end LocalType

end FilterSql
