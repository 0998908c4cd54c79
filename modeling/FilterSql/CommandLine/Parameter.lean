import FilterSql.Options
import FilterSql.Sql.Dialect

/-!
The parameters and commands of the command line.

Every parameter takes one value. Those about settings belong to every command and may also be given
as environment variables.
-/

namespace FilterSql

/-- A parameter of the command line. -/
inductive Parameter where
  | config
  | dialect
  | strictPaths
  | aliases
  | schema
  | collection
  | query
  deriving DecidableEq, Repr

namespace Parameter

/-- The name after two hyphens. -/
def long : Parameter → String
  | config => "config"
  | dialect => "dialect"
  | strictPaths => "strict-paths"
  | aliases => "aliases"
  | schema => "schema"
  | collection => "collection"
  | query => "query"

/-- The letter after one hyphen. -/
def short? : Parameter → Option Char
  | config => some 'c'
  | dialect => some 'd'
  | schema => some 's'
  | query => some 'q'
  | strictPaths | aliases | collection => none

/-- The environment variable with the value where none is given. -/
def variableName? : Parameter → Option String
  | config => some "SIFT_CONFIG"
  | dialect => some "SIFT_DIALECT"
  | strictPaths => some "SIFT_STRICT_PATHS"
  | aliases => some "SIFT_ALIASES"
  | schema | collection | query => none

/-- The parameters that belong to every command. -/
def shared : List Parameter := [config, dialect, strictPaths, aliases]

/-- The dialect that a value names. -/
def readDialect? (value : String) : Option Dialect := (Dialect.parse value).toOption

/-- The boolean that a value names. -/
def readFlag? : String → Option Bool
  | "true" => some true
  | "false" => some false
  | _ => none

/-- The alias strategy that a value names, letter case aside. -/
def readAliases? (value : String) : Option AliasStrategy :=
  AliasStrategy.named.lookup (Text.lower value)

/-- Whether a parameter can have a value. Paths may not be empty. -/
def accepts : Parameter → String → Bool
  | config, value | schema, value | query, value => value ≠ ""
  | collection, _ => true
  | dialect, value => (readDialect? value).isSome
  | strictPaths, value => (readFlag? value).isSome
  | aliases, value => (readAliases? value).isSome

end Parameter

/-- A command, or a group of commands. -/
inductive Command where
  | root
  | compile
  | schema
  | check
  deriving DecidableEq, Repr

namespace Command

/-- The parameters that belong to a command alone. -/
def ownParameters : Command → List Parameter
  | root | schema => []
  | compile => [.schema, .collection, .query]
  | check => [.schema]

/-- The parameters of a command. -/
def parameters (command : Command) : List Parameter := command.ownParameters ++ Parameter.shared

/-- The commands of a group by name. -/
def members : Command → List (String × Command)
  | root => [("compile", compile), ("schema", schema)]
  | schema => [("check", check)]
  | compile | check => []

/-- Whether a command is a group, which is no command by itself. -/
def isGroup (command : Command) : Bool := !command.members.isEmpty

/-- The parameter of a command with a long name. -/
def long? (command : Command) (name : String) : Option Parameter :=
  command.parameters.find? (·.long == name)

/-- The parameter of a command with a letter. -/
def short? (command : Command) (letter : Char) : Option Parameter :=
  command.parameters.find? (·.short? == some letter)

end Command

end FilterSql
