import FilterSql.Error
import FilterSql.Filter.Basic
import FilterSql.Json.Decode
import FilterSql.Options

/-!
Reading a filter from a JSON document.

An object is a filter. Its keys are connectives over arrays of filters, or field paths, written with
dots. Under a field path stand an operand, operators with their operands, one further field key
that extends the path, or a filter on what the path leads to. Each object counts as a level, and the
levels are limited, as is the size of the document.
-/

namespace FilterSql

namespace Filter

/-- The segments of a dotted key; none may be empty. -/
def segments (key : String) : Except CompileError (List String) :=
  let parts := Text.split '.' key
  if parts.any (· == "") then .error (.invalidFilter (.emptySegment key)) else .ok parts

/-- Fails beyond the greatest level. -/
def checkDepth (maxDepth depth : Nat) : Except CompileError Unit :=
  if maxDepth < depth then .error (.invalidFilter (.tooDeep maxDepth)) else .ok ()

/-- Fails beyond the greatest size. -/
def checkSize (maxBytes bytes : Nat) : Except CompileError Unit :=
  if maxBytes < bytes then .error (.invalidFilter (.tooLarge maxBytes)) else .ok ()

/-- The error of a key that starts with an underscore where a field is expected. -/
def misplacedKey (key : String) : CompileError :=
  match Operator.ofKey? key with
  | some _ => .invalidFilter (.operatorWithoutField key)
  | none => .unknownOperator key

/-- What stands under a field path, by its keys. -/
inductive FieldForm where
  /-- operators only -/
  | operators
  /-- operators beside other keys -/
  | mixed
  /-- one further field key -/
  | step
  /-- a filter -/
  | filter
  deriving DecidableEq, Repr

/-- The form of an object under a field path. -/
def fieldForm (keys : List String) : FieldForm :=
  let operators := keys.filter isOperatorKey
  if operators.isEmpty then
    match keys with
    | [key] => if (Connective.ofKey? key).isNone then .step else .filter
    | _ => .filter
  else if operators.length = keys.length then .operators
  else .mixed

/-- One comparison for each operator, all of the same column. -/
def comparisons (path : List String) : List (String × Json) → Except CompileError Filter
  | [] => .ok []
  | (key, operand) :: rest =>
    match Operator.ofKey? key with
    | none => .error (.unknownOperator key)
    | some operator => do
      let entries ← comparisons path rest
      return .leaf path operator operand :: entries

mutual

/-- The entries of an object at a level. The level is checked by the caller. -/
def ofMembers (maxDepth depth : Nat) : List (String × Json) → Except CompileError Filter
  | [] => .ok []
  | (key, value) :: rest => do
    let entries ←
      match Connective.ofKey? key with
      | some op => do
        let children ← ofCombined maxDepth depth key value
        pure [Entry.group op children]
      | none =>
        if isUnderscored key then throw (misplacedKey key)
        else do
          let path ← segments key
          ofField maxDepth depth path value
    let others ← ofMembers maxDepth depth rest
    return entries ++ others

/-- The filters of a combination. -/
def ofCombined (maxDepth depth : Nat) (key : String) : Json → Except CompileError (List Filter)
  | .array items => ofItems maxDepth depth key items
  | _ => .error (.invalidFilter (.notAnArray key))

/-- The filters of the items of a combination, one level further. -/
def ofItems (maxDepth depth : Nat) (key : String) :
    List Json → Except CompileError (List Filter)
  | [] => .ok []
  | .object members :: rest => do
    checkDepth maxDepth (depth + 1)
    let child ← ofMembers maxDepth (depth + 1) members
    let children ← ofItems maxDepth depth key rest
    return child :: children
  | item :: _ => .error (.invalidFilter (.itemNotAnObject key item.kind))

/-- The entries of a field path and what stands under it. -/
def ofField (maxDepth depth : Nat) (path : List String) : Json → Except CompileError Filter
  | .object members =>
    match fieldForm (members.map Prod.fst) with
    | .operators => comparisons path members
    | .mixed => .error (.invalidFilter (.mixedKeys path))
    | .step => ofStep maxDepth depth path members
    | .filter => do
      checkDepth maxDepth (depth + 1)
      let body ← ofMembers maxDepth (depth + 1) members
      return [.nested path body]
  | operand => .ok [.leaf path .eq operand]

/-- The entries of a field path that a single key extends. -/
def ofStep (maxDepth depth : Nat) (path : List String) :
    List (String × Json) → Except CompileError Filter
  | [] => .ok []
  | (key, value) :: _ => do
    checkDepth maxDepth (depth + 1)
    let further ← segments key
    ofField maxDepth (depth + 1) (path ++ further) value

end

/-- The filter of a document: an object, or null for the filter without entries. -/
def ofJson (options : CompileOptions) (document : Json) : Except CompileError Filter := do
  checkSize options.maxBytes document.compact.utf8ByteSize
  match document with
  | .object members =>
    checkDepth options.maxDepth 1
    ofMembers options.maxDepth 1 members
  | .null => return []
  | other => throw (.invalidFilter (.notAnObject other.kind))

/-- The filter of a JSON text, whose own size is limited too. -/
def ofText (options : CompileOptions) (text : String) : Except CompileError Filter := do
  checkSize options.maxBytes text.utf8ByteSize
  match Json.ofText text with
  | .ok document => ofJson options document
  | .error fault => throw (.invalidFilter (.unreadable fault))

end Filter

end FilterSql
