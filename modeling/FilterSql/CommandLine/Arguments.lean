import FilterSql.CommandLine.Environment
import FilterSql.CommandLine.Parameter
import FilterSql.Settings.Load

/-!
Reading the arguments of the command line.

Arguments are read from left to right and so are their faults. Each command word opens a level of its
own, on which a parameter may be given once; what is given on a deeper level wins. A value that
stands apart from its parameter is looked at when the next parameter comes or, after all deeper
levels, at the end of its level. Environment variables fill in what a level leaves out, and a value
that no parameter can have is a fault there too, even if another level has a better one.
-/

namespace FilterSql

/-- Why arguments ask for nothing to be done. -/
inductive Halt where
  /-- the arguments are faulty -/
  | usage
  | help
  | version
  deriving DecidableEq, Repr

/-- What to do. -/
inductive Job where
  | compile (schema collection : String) (query : Option String)
  | checkSchema (schema : String)
  deriving DecidableEq, Repr

/-- What arguments ask for. -/
structure Invocation where
  overrides : Overrides
  job : Job
  deriving DecidableEq, Repr

namespace Arguments

/-! ### One level -/

/-- A parameter that still waits for its value, or whose value has not been looked at. -/
structure Pending where
  parameter : Parameter
  value : Option String
  deriving DecidableEq, Repr

/-- A command with what is given on its level. -/
structure Level where
  command : Command
  given : List (Parameter × String) := []
  pending : Option Pending := none
  deriving DecidableEq, Repr

namespace Level

/-- A level with one more value. -/
def give (level : Level) (parameter : Parameter) (value : String) : Except Halt Level :=
  if (level.given.lookup parameter).isSome ∨ ¬ parameter.accepts value then .error .usage
  else .ok { level with given := level.given ++ [(parameter, value)], pending := none }

/-- A level on which nothing is pending. -/
def settle (level : Level) : Except Halt Level :=
  match level.pending with
  | none => .ok level
  | some ⟨_, none⟩ => .error .usage
  | some ⟨parameter, some value⟩ => level.give parameter value

/-- A level on which a parameter was met, with a value or before one. -/
def meet (level : Level) (parameter : Parameter) (value : Option String) : Except Halt Level := do
  let level ← level.settle
  match value with
  | some value => level.give parameter value
  | none => .ok { level with pending := some ⟨parameter, none⟩ }

/-- Stops at a request, unless something is wrong before it. -/
def stop (level : Level) (halt : Halt) : Except Halt Level := do
  let _ ← level.settle
  .error halt

/-- Meets a parameter by its long name. -/
def long (level : Level) (name : String) (value : Option String) : Except Halt Level :=
  match level.command.long? name with
  | some parameter => level.meet parameter value
  | none =>
    if value.isSome then .error .usage
    else if name = "help" then level.stop .help
    else if name = "version" ∧ level.command = .root then level.stop .version
    else .error .usage

/-- Meets a parameter by its letter, with its value right after it or after an equals sign. -/
def short (level : Level) (letter : Char) (rest : List Char) : Except Halt Level :=
  match level.command.short? letter with
  | some parameter =>
    match rest with
    | [] => level.meet parameter none
    | '=' :: value => level.meet parameter (some (String.ofList value))
    | value => level.meet parameter (some (String.ofList value))
  | none =>
    if letter = 'h' then level.stop .help
    else if letter = 'V' ∧ level.command = .root then level.stop .version
    else .error .usage

end Level

/-! ### Words -/

/-- An argument by its spelling. A single hyphen is a plain word. -/
inductive Word where
  /-- two hyphens alone, after which there are no parameters -/
  | divider
  | long (name : String) (value : Option String)
  | short (letter : Char) (rest : List Char)
  | plain (text : String)
  deriving DecidableEq, Repr

/-- The spelling of an argument. -/
def Word.ofText (text : String) : Word :=
  match text.toList with
  | ['-', '-'] => .divider
  | '-' :: '-' :: cs =>
    .long (String.ofList (cs.takeWhile (· ≠ '=')))
      (if '=' ∈ cs then some (String.ofList ((cs.dropWhile (· ≠ '=')).drop 1)) else none)
  | '-' :: c :: cs => .short c cs
  | _ => .plain text

/-- What asking for help on commands gives. -/
def helpOn (command : Command) : List String → Halt
  | [] => .help
  | name :: rest =>
    match command.members.lookup name with
    | some inner => helpOn inner rest
    | none => if name = "help" ∧ command.isGroup ∧ rest = [] then .help else .usage

/-- The levels that arguments open, the deepest first. -/
def levels (outer : List Level) (here : Level) : List String → Except Halt (List Level)
  | [] => .ok (here :: outer)
  | argument :: rest =>
    match Word.ofText argument with
    | .divider => if rest = [] then .ok (here :: outer) else .error .usage
    | .long name value => do
      let here ← here.long name value
      levels outer here rest
    | .short letter value => do
      let here ← here.short letter value
      levels outer here rest
    | .plain text =>
      match here.pending with
      | some ⟨parameter, none⟩ =>
        levels outer { here with pending := some ⟨parameter, some text⟩ } rest
      | _ =>
        match here.command.members.lookup text with
        | some inner => levels (here :: outer) { command := inner } rest
        | none =>
          if text = "help" ∧ here.command.isGroup then .error (helpOn here.command rest)
          else .error .usage

/-! ### All levels -/

/-- The value of a shared parameter in the environment. -/
def fromEnvironment (env : Environment) (parameter : Parameter) : Option String :=
  parameter.variableName?.bind env.get?

/-- A level at its end, unless a variable for a parameter that is not given on it has a value that
the parameter cannot have. -/
def close (env : Environment) (level : Level) : Except Halt Level := do
  let level ← level.settle
  let fits := Parameter.shared.all fun parameter =>
    (level.given.lookup parameter).isSome
      || ((fromEnvironment env parameter).map parameter.accepts).getD true
  if fits then .ok level else .error .usage

/-- The value of a parameter: that of the deepest level it is given on, or of the environment. -/
def value? (env : Environment) (levels : List Level) (parameter : Parameter) : Option String :=
  levels.findSome? (·.given.lookup parameter) <|> fromEnvironment env parameter

/-- The value of a parameter that must be given. -/
def required (level : Level) (parameter : Parameter) : Except Halt String :=
  match level.given.lookup parameter with
  | some value => .ok value
  | none => .error .usage

/-- What the deepest level asks for. -/
def jobOf (level : Level) : Except Halt Job :=
  match level.command with
  | .root | .schema => .error .usage
  | .compile => do
    let schema ← required level .schema
    let collection ← required level .collection
    return .compile schema collection (level.given.lookup .query)
  | .check => do
    let schema ← required level .schema
    return .checkSchema schema

/-- What all levels say about the settings. -/
def overridesOf (env : Environment) (levels : List Level) : Overrides :=
  let value := value? env levels
  { file := value .config
    layer :=
      { dialect := (value .dialect).bind Parameter.readDialect?
        strictPaths := (value .strictPaths).bind Parameter.readFlag?
        aliases := (value .aliases).bind Parameter.readAliases? } }

/-- What arguments ask for in an environment. -/
def read (env : Environment) (arguments : List String) : Except Halt Invocation := do
  let levels ← levels [] { command := .root } arguments
  let levels ← levels.mapM (close env)
  match levels with
  | [] => .error .usage
  | deepest :: _ =>
    let job ← jobOf deepest
    return ⟨overridesOf env levels, job⟩

end Arguments

end FilterSql
