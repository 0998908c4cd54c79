import FilterSql.CommandLine.Arguments
import FilterSql.Query.Apply
import FilterSql.Schema.Document
import FilterSql.Schema.Store

/-!
Running the command line.

A run is a function of its surroundings, its environment, the text of its standard input, the draws
for random aliases and its arguments. It ends with a status, what it prints and, if it fails, an
error. Settings are loaded first, then the catalog is read, then the query.
-/

namespace FilterSql

/-- Why a run fails. -/
inductive RunError where
  | settings (error : SettingsError)
  | unreadable (path : String) (fault : FileFault)
  | invalidCatalog (path : String) (error : CompileError)
  | invalidQuery (path : String) (fault : Json.Fault)
  | compilation (collection : String) (error : CompileError)
  deriving DecidableEq, Repr

/-- The wording of an error: what was being done, and what was wrong. -/
def RunError.message : RunError → String
  | .settings error => error.message
  | .unreadable path fault => "Failed to read file: " ++ path ++ ": " ++ fault.message
  | .invalidCatalog path error => "Invalid schema catalog: " ++ path ++ ": " ++ error.message
  | .invalidQuery path fault => "Failed to parse JSON: " ++ path ++ ": " ++ fault.message
  | .compilation collection error =>
    "Failed to compile query for '" ++ collection ++ "': " ++ error.message

/-- How a run ends. -/
structure Outcome where
  status : Nat
  output : String
  error : Option String
  deriving DecidableEq, Repr

namespace Run

/-- Turns an error into the error of a run. -/
def orFail {ε α : Type} (wrap : ε → RunError) : Except ε α → Except RunError α
  | .ok a => .ok a
  | .error e => .error (wrap e)

/-- The statement of a query on a collection, in the dialect of the settings. -/
def compileQuery (settings : Settings) (store : SchemaStore) (draws : Nat → Nat)
    (collection : String) (query : Query) : Except RunError RenderedQuery := do
  let select ← orFail (.compilation collection)
    (query.compile store.snapshot settings.options draws collection)
  return select.toSql settings.dialect

/-- The text of a document, and what is left of the standard input. A hyphen stands for the standard
input, which is used up by reading it. -/
def readText (place : Surroundings) (input path : String) : Except RunError (String × String) :=
  if path = "-" then .ok (input, "")
  else do
    let path := place.expand path
    let text ← orFail (.unreadable path) (place.files path)
    return (text, input)

/-- The catalog of a document, and what is left of the standard input. -/
def readCatalog (place : Surroundings) (input path : String) :
    Except RunError (Catalog × String) := do
  let (text, input) ← readText place input path
  let catalog ← orFail (.invalidCatalog path) (Catalog.ofText text)
  return (catalog, input)

/-- The query of a document, or one that asks for nothing. -/
def readQuery (place : Surroundings) (input : String) : Option String → Except RunError Query
  | none => .ok {}
  | some path => do
    let (text, _) ← readText place input path
    orFail (.invalidQuery path) (Query.ofText text)

/-- A line about a collection: its columns with their local types. -/
def describe (c : Collection) : String :=
  "  " ++ c.name ++ ": "
    ++ Text.join ", " (c.columns.map fun f => f.name ++ " (" ++ f.localType.name ++ ")")

/-- The lines about a catalog. Collections that every catalog has are left out, their relations are
counted. -/
def summary (path : String) (catalog : Catalog) : List String :=
  let shown := catalog.collections.filter fun c => !isSystemCollection c.name
  ["Schema OK: " ++ path] ++ shown.map describe
    ++ [toString shown.length ++ " collections, " ++ toString catalog.relations.length
      ++ " relations (system collections included)"]

/-- What an invocation prints. -/
def output (place : Surroundings) (input : String) (draws : Nat → Nat) (invocation : Invocation) :
    Except RunError String :=
  match invocation.job with
  | .checkSchema path => do
    let (catalog, _) ← readCatalog place input path
    return String.join ((summary path catalog).map (· ++ "\n"))
  | .compile schema collection query => do
    let settings ← orFail .settings (Settings.load place invocation.overrides)
    let (catalog, input) ← readCatalog place input schema
    let query ← readQuery place input query
    let rendered ← compileQuery settings ⟨catalog⟩ draws collection query
    return rendered.toJson.pretty 0 ++ "\n"

/-- The documents of an invocation, by the paths they are given by. -/
def documents (invocation : Invocation) : List String :=
  match invocation.job with
  | .compile schema _ query => schema :: query.toList
  | .checkSchema schema => [schema]

/-- Whether an invocation reads the standard input. -/
def readsInput (invocation : Invocation) : Bool := (documents invocation).contains "-"

/-- The paths that an invocation can ask for. -/
def paths (place : Surroundings) (invocation : Invocation) : List String :=
  Settings.profilePath place :: place.expand Settings.fileName
    :: (invocation.overrides.file.toList ++ documents invocation).map place.expand

/-- What is printed on request of the version. -/
def versionLine : String := "sift 0.1.0\n"

end Run

/-- The status of a run that ends well. -/
def successStatus : Nat := 0

/-- The status of a run that fails. -/
def failureStatus : Nat := 1

/-- The status of a run with faulty arguments. -/
def usageStatus : Nat := 2

/-- Runs the command line. The environment file of the working directory counts as well. -/
def run (place : Surroundings) (env : Environment) (input : String) (draws : Nat → Nat)
    (arguments : List String) : Outcome :=
  match Arguments.read (env.addFile place.files place.workdir) arguments with
  | .error .usage => ⟨usageStatus, "", none⟩
  | .error .help => ⟨successStatus, "", none⟩
  | .error .version => ⟨successStatus, Run.versionLine, none⟩
  | .ok invocation =>
    match Run.output place input draws invocation with
    | .ok output => ⟨successStatus, output, none⟩
    | .error error => ⟨failureStatus, "", some error.message⟩

end FilterSql
