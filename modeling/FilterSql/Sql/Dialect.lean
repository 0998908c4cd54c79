import FilterSql.Text.Blank
import FilterSql.Text.Case

/-!
The four SQL dialects and the ways in which they differ: placeholders, identifier quotes, the escape
clause of `LIKE`, lower-casing, boolean literals and paging.
-/

namespace FilterSql

/-- A SQL dialect. -/
inductive Dialect where
  | sqlite
  | postgres
  | duckdb
  | clickhouse
  deriving DecidableEq, Repr, Inhabited

namespace Dialect

/-- The dialect used when none is chosen. -/
def standard : Dialect := .postgres

/-- The name of a dialect. -/
def name : Dialect → String
  | .sqlite => "sqlite"
  | .postgres => "postgres"
  | .duckdb => "duckdb"
  | .clickhouse => "clickhouse"

/-- The dialects by name. -/
def named : List (String × Dialect) :=
  [.sqlite, .postgres, .duckdb, .clickhouse].map fun d => (d.name, d)

/-- A name in lower case and without blanks around it. -/
def normalizeName (s : String) : String := Text.lower (Text.trimmed s)

/-- The dialect of a normalized name; postgres has two names more. -/
def ofNormalName? : String → Option Dialect
  | "sqlite" => some .sqlite
  | "postgres" | "postgresql" | "pg" => some .postgres
  | "duckdb" => some .duckdb
  | "clickhouse" => some .clickhouse
  | _ => none

/-- The dialect that a text names, letter case and blanks around it aside. -/
def parse (s : String) : Except String Dialect :=
  match ofNormalName? (normalizeName s) with
  | some d => .ok d
  | none =>
    .error ("Unknown dialect '" ++ normalizeName s
      ++ "'. Expected: sqlite, postgres, duckdb, clickhouse")

/-- The placeholder of the parameter with a position counted from one. -/
def placeholder : Dialect → Nat → String
  | .postgres, n => "$" ++ toString n
  | _, _ => "?"

/-- The character around an identifier. -/
def quoteMark : Dialect → Char
  | .clickhouse => '\x60'
  | _ => '"'

/-- What stands for the quote mark inside an identifier. -/
def escapedMark : Dialect → List Char
  | .clickhouse => ['\\', '\x60']
  | _ => ['"', '"']

/-- The characters of a quoted identifier between its marks. -/
def escapeIdent (d : Dialect) (cs : List Char) : List Char :=
  cs.flatMap fun c => if c = d.quoteMark then d.escapedMark else [c]

/-- A quoted identifier: quote marks inside it are escaped and nothing else is. -/
def quoteIdent (d : Dialect) (ident : String) : String :=
  String.ofList (d.quoteMark :: d.escapeIdent ident.toList ++ [d.quoteMark])

/-- A column qualified by a table or an alias. -/
def qualify (d : Dialect) (table column : String) : String :=
  d.quoteIdent table ++ "." ++ d.quoteIdent column

/-- What follows a pattern whose metacharacters are escaped by backslashes. -/
def likeEscape : Dialect → String
  | .clickhouse => ""
  | _ => " ESCAPE '\\'"

/-- An expression in lower case. -/
def lower : Dialect → String → String
  | .clickhouse, e => "lower(" ++ e ++ ")"
  | _, e => "LOWER(" ++ e ++ ")"

/-- A boolean literal. -/
def boolLiteral : Dialect → Bool → String
  | .sqlite, b => if b then "1" else "0"
  | .clickhouse, b => if b then "true" else "false"
  | _, b => if b then "TRUE" else "FALSE"

/-- The paging clause, empty when nothing is asked. In sqlite an offset needs a limit, and `-1` is
none. -/
def limitOffset (d : Dialect) : Option Nat → Option Nat → String
  | some limit, some offset => "LIMIT " ++ toString limit ++ " OFFSET " ++ toString offset
  | some limit, none => "LIMIT " ++ toString limit
  | none, some offset =>
    (if d = .sqlite then "LIMIT -1 " else "") ++ "OFFSET " ++ toString offset
  | none, none => ""

/-- An entry of an ordering. -/
def orderBy (_ : Dialect) (column : String) (descending : Bool) : String :=
  column ++ (if descending then " DESC" else " ASC")

end Dialect

end FilterSql
