import FilterSql.Files.Path
import FilterSql.Files.Tree
import FilterSql.Text.Case
import FilterSql.Text.WordTable

/-!
Environment variables, and the file that adds to them.

An environment file holds one assignment to a line. A line may go on over line breaks inside quotes,
and a number sign after a blank starts a comment. Values may be quoted, single quotes keeping all
there is between them, and outside single quotes backslashes escape and dollar signs put in the
values of variables. A variable that has a value keeps it. Reading stops at the first line that is
no assignment, and what was assigned before it stays.
-/

namespace FilterSql

/-- Variables with their values. -/
abbrev Environment := List (String × String)

namespace Environment

/-- The value of a variable. -/
def get? (env : Environment) (name : String) : Option String := env.lookup name

/-- An environment with a value for a variable that has none yet. -/
def define (env : Environment) (name value : String) : Environment :=
  if (env.get? name).isSome then env else env ++ [(name, value)]

/-- Defining a variable changes no other and no value that is there. -/
theorem get?_define (env : Environment) (name value other : String) :
    (env.define name value).get? other =
      (env.get? other <|> if other = name then some value else none) := by
  unfold define get?
  cases h : env.lookup other with
  | some v => split <;> simp [List.lookup_append, h]
  | none =>
    by_cases hn : other = name
    · subst hn; simp [List.lookup_append, h]
    · have hb : (other == name) = false := by simpa using hn
      split
      · simp [h]
      · simp [List.lookup_append, List.lookup_cons, h, hb]

end Environment

namespace EnvironmentFile

open Text (isBlank trimStart trimEnd)

/-! ### Lines -/

/-- Where a line stands, as far as its end is concerned. -/
inductive LineMode where
  | plain
  /-- after a blank outside quotes -/
  | blank
  | escape
  | single
  | singleEscape
  | double
  | doubleEscape
  /-- in a comment, up to the end of the line -/
  | comment
  deriving DecidableEq, Repr

namespace LineMode

/-- The mode that a character outside quotes leads to. -/
def opening (c : Char) : LineMode :=
  if c = '\\' then escape else if c = '"' then double else if c = '\'' then single else plain

/-- The mode after a character. Of two blanks in a row the second does not count as one. -/
def next (c : Char) : LineMode → LineMode
  | plain => if isBlank c && c ≠ '\n' && c ≠ '\r' then blank else opening c
  | blank => opening c
  | escape => plain
  | single => if c = '\\' then singleEscape else if c = '\'' then plain else single
  | singleEscape => single
  | double => if c = '\\' then doubleEscape else if c = '"' then plain else double
  | doubleEscape => double
  | comment => if c = '\n' then plain else comment

end LineMode

/-- The lines of a text from a point inside one; `line` holds the line up to there, the last
character first. A text that ends inside quotes or after a blank ends in a line that is none. -/
def linesFrom (mode : LineMode) (line : List Char) : List Char → List (Option (List Char))
  | [] =>
    if mode = .comment ∨ (mode = .plain ∧ line = []) then []
    else if mode = .plain then [some line.reverse]
    else [none]
  | c :: rest =>
    if mode = .comment then linesFrom (mode.next c) [] rest
    else if c = '#' ∧ (mode = .blank ∨ line.all isBlank) then
      some line.reverse :: linesFrom .comment [] rest
    else if c = '\n' ∧ mode.next c = .plain then some line.reverse :: linesFrom .plain [] rest
    else linesFrom (mode.next c) (c :: line) rest

/-- The lines of a text, a byte order mark aside. -/
def lines (text : String) : List (Option (List Char)) :=
  match text.toList with
  | '\ufeff' :: rest => linesFrom .plain [] rest
  | cs => linesFrom .plain [] cs

/-! ### Values -/

/-- Where a value stands. Inside double quotes `quoted` is true. -/
inductive ValueMode where
  | plain
  | single
  | double
  | escape (quoted : Bool)
  /-- after a dollar sign and the given characters of a name, the last first -/
  | dollar (quoted : Bool) (name : List Char)
  /-- after a dollar sign, a brace and the given characters of a name, the last first -/
  | braced (quoted : Bool) (name : List Char)
  /-- after a blank outside quotes -/
  | ended
  deriving DecidableEq, Repr

/-- The mode outside names and escapes. -/
def ValueMode.base (quoted : Bool) : ValueMode := if quoted then .double else .plain

/-- What a backslash and a character stand for. -/
def unescape? (c : Char) : Option Char :=
  if c = 'n' then some '\n'
  else if c = '\\' ∨ c = '\'' ∨ c = '"' ∨ c = '$' ∨ c = ' ' then some c
  else none

/-- Whether a character can belong to a name after a dollar sign. -/
def isNameChar (c : Char) : Bool := Text.inRanges Text.alphanumericRanges c.toNat

/-- A value so far, the last character first, with the value of a variable put after it. -/
def putVariable (env : Environment) (out name : List Char) : List Char :=
  ((env.get? (String.ofList name.reverse)).getD "").toList.reverse ++ out

/-- The mode and the value so far after one character, unless it cannot stand there. The character
after a name without braces stands for itself, whatever it is, unless it starts another name. -/
def valueStep (env : Environment) (c : Char) (out : List Char) :
    ValueMode → Option (ValueMode × List Char)
  | .ended =>
    if c = ' ' ∨ c = '\t' then some (.ended, out) else none
  | .escape quoted => (unescape? c).map fun e => (.base quoted, e :: out)
  | .single => some (if c = '\'' then (.plain, out) else (.single, c :: out))
  | .dollar quoted name =>
    if isNameChar c then some (.dollar quoted (c :: name), out)
    else if c = '\x7b' ∧ name = [] then some (.braced quoted [], out)
    else
      let out := putVariable env out name
      some (if c = '$' then (.dollar quoted [], out) else (.base quoted, c :: out))
  | .braced quoted name =>
    if c = '\x7d' then some (.base quoted, putVariable env out name)
    else some (.braced quoted (c :: name), out)
  | .double =>
    some (if c = '$' then (.dollar true [], out)
      else if c = '"' then (.plain, out)
      else if c = '\\' then (.escape true, out)
      else (.double, c :: out))
  | .plain =>
    some (if c = '$' then (.dollar false [], out)
      else if c = '\'' then (.single, out)
      else if c = '"' then (.double, out)
      else if c = '\\' then (.escape false, out)
      else if c = ' ' ∨ c = '\t' then (.ended, out)
      else (.plain, c :: out))

/-- The value at the end of its text, unless something is left open. A backslash at the end stands
for nothing. -/
def valueEnd (env : Environment) (out : List Char) : ValueMode → Option (List Char)
  | .plain | .ended | .escape false => some out.reverse
  | .dollar false name => some (putVariable env out name).reverse
  | .single | .double | .escape true | .dollar true _ | .braced _ _ => none

/-- The value of a text from a point inside it. A number sign after a blank ends it. -/
def valueFrom (env : Environment) (mode : ValueMode) (out : List Char) :
    List Char → Option (List Char)
  | [] => valueEnd env out mode
  | c :: rest =>
    if mode = .ended ∧ c = '#' then some out.reverse
    else
      match valueStep env c out mode with
      | some (mode, out) => valueFrom env mode out rest
      | none => none

/-! ### Assignments -/

/-- What a line says. -/
inductive Line where
  | nothing
  | assignment (name value : String)
  | malformed
  deriving DecidableEq, Repr

/-- Whether a character can start the name of a variable. -/
def startsName (c : Char) : Bool := c.isAlpha || c = '_'

/-- Whether a character can belong to the name of a variable. -/
def continuesName (c : Char) : Bool := c.isAlphanum || c = '_' || c = '.'

/-- The name at the head of a text, and what follows it and the blanks after it. -/
def name? : List Char → Option (List Char × List Char)
  | [] => none
  | c :: rest =>
    if startsName c then
      some (c :: rest.takeWhile continuesName, trimStart (rest.dropWhile continuesName))
    else none

/-- What a line says after the name of its variable. -/
def assignmentOf (env : Environment) (name : List Char) : List Char → Line
  | '=' :: rest =>
    match trimStart rest with
    | [] | '#' :: _ => .assignment (String.ofList name) ""
    | value =>
      match valueFrom env .plain [] value with
      | some value => .assignment (String.ofList name) (String.ofList value)
      | none => .malformed
  | _ => .malformed

/-- What a line says. The word `export` may stand before the name. -/
def lineOf (env : Environment) (line : List Char) : Line :=
  match trimStart (trimEnd line) with
  | [] | '#' :: _ => .nothing
  | cs =>
    match name? cs with
    | none => .malformed
    | some (name, rest) =>
      if name = "export".toList ∧ rest.head? ≠ some '=' then
        match name? rest with
        | some (name, rest) => assignmentOf env name rest
        | none => .malformed
      else assignmentOf env name rest

end EnvironmentFile

namespace Environment

open EnvironmentFile

/-- An environment with the assignments of lines, up to the first line that is none. -/
def addLines (env : Environment) : List (Option (List Char)) → Environment
  | [] | none :: _ => env
  | some line :: rest =>
    match lineOf env line with
    | .malformed => env
    | .nothing => env.addLines rest
    | .assignment name value => (env.define name value).addLines rest

/-- The name of environment files. -/
def fileName : String := ".env"

/-- The text of the nearest environment file in directories. -/
def nearestFile (files : Files) : List String → Option String
  | [] => none
  | directory :: rest =>
    match files (Path.append directory fileName) with
    | .ok text => some text
    | .error .missing | .error .isADirectory => nearestFile files rest
    | .error _ => none

/-- An environment with the assignments of the environment file of a directory: its own or that of
the nearest directory above it. -/
def addFile (env : Environment) (files : Files) (directory : String) : Environment :=
  match nearestFile files (Path.ancestors directory) with
  | some text => env.addLines (lines text)
  | none => env

end Environment

end FilterSql
