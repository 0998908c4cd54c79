import FilterSql.Json.Fault
import FilterSql.Json.Source

/-!
Reading values of expected types from a source.

A reader walks its source in the order of the text and stops at the first fault. A record is read
from an object, whose unknown keys are passed over, or from an array with the fields in order.
-/

namespace FilterSql

namespace Json

/-- A reader of values of a type. -/
abbrev Reader (α : Type) := Source → Except Fault α

namespace Source

/-- The description of a value that can be read up to its type. -/
def found? : Source → Option Found
  | null => some .null
  | bool b => some (.boolean b)
  | number n => n.map .number
  | string s => s.map .string
  | array _ _ => some .sequence
  | object _ _ => some .map
  | broken => none

/-- The fault of a value of the wrong type; the text's own fault comes first. -/
def mismatch (wanted : String) (x : Source) : Fault :=
  match x.found? with
  | some found => .invalidType found wanted
  | none => .malformed

end Source

namespace Reader

/-- Any document with at most `room` arrays and objects inside one another. -/
def document (room : Nat) : Reader Json := fun x =>
  match x.toJson? room with
  | some doc => .ok doc
  | none => .error .malformed

/-- A string. -/
def text : Reader String
  | .string (some s) => .ok s
  | x => .error (x.mismatch "a string")

/-- A boolean. -/
def flag : Reader Bool
  | .bool b => .ok b
  | x => .error (x.mismatch "a boolean")

/-- An integer that is not negative; `wanted` names its type. -/
def natural (wanted : String) : Reader Nat
  | .number (some (.integer n)) =>
    if n < 0 then .error (.invalidValue n wanted) else .ok n.toNat
  | x => .error (x.mismatch wanted)

/-- A value that may be null. -/
def optional {α : Type} (read : Reader α) : Reader (Option α)
  | .null => .ok none
  | x => (read x).map some

/-- A closed list of values. -/
def list {α : Type} (read : Reader α) : Reader (List α)
  | .array items closed => do
    let values ← items.mapM read
    if closed then .ok values else .error .malformed
  | x => .error (x.mismatch "a sequence")

/-- The members of an object in order, with every key. -/
def members {α : Type} (read : Reader α) :
    List (Option String × Source) → Except Fault (List (String × α))
  | [] => .ok []
  | (none, _) :: _ => .error .malformed
  | (some key, x) :: rest => do
    let value ← read x
    let values ← members read rest
    return (key, value) :: values

/-- A closed table with free keys. -/
def table {α : Type} (read : Reader α) : Reader (List (String × α))
  | .object ms closed => do
    let values ← members read ms
    if closed then .ok (distinctMembers values) else .error .malformed
  | x => .error (x.mismatch "a map")

/-- The value that a name stands for. -/
def variant {α : Type} (variants : List (String × α)) (name : String) : Except Fault α :=
  match variants.lookup name with
  | some a => .ok a
  | none => .error (.unknownVariant name (variants.map Prod.fst))

/-- One of a list of names, as a string or as an object whose only member has the name for its key
and null for its value. -/
def choice {α : Type} (variants : List (String × α)) : Reader α
  | .string (some s) => variant variants s
  | .object ((some key, x) :: rest) closed => do
    let a ← variant variants key
    match x with
    | .null => if rest.isEmpty && closed then .ok a else .error .malformed
    | x => .error (x.mismatch "unit")
  | _ => .error .malformed

end Reader

/-- One field of a record that is being read into a `σ`. -/
structure Field (σ : Type) where
  name : String
  /-- whether an array may not end before it -/
  required : Bool
  isSet : σ → Bool
  set : σ → Source → Except Fault σ

/-- How a record is read: its fields are gathered in a `σ`, which is turned into an `α` at the
end. -/
structure Shape (σ α : Type) where
  name : String
  fields : List (Field σ)
  start : σ
  finish : σ → Except Fault α
  /-- whether an array may stand for the record -/
  positional : Bool
  /-- whether the value of an unknown key can be passed over -/
  passes : Source → Bool

namespace Shape

variable {σ α : Type}

/-- The members of an object, gathered in order. -/
def gather (shape : Shape σ α) (state : σ) :
    List (Option String × Source) → Except Fault σ
  | [] => .ok state
  | (none, _) :: _ => .error .malformed
  | (some key, x) :: rest =>
    match shape.fields.find? (·.name == key) with
    | some field =>
      if field.isSet state then .error (.duplicateField key)
      else do
        let state ← field.set state x
        shape.gather state rest
    | none => if shape.passes x then shape.gather state rest else .error .malformed

/-- The wording of the record with the count of its fields. -/
def withLength (shape : Shape σ α) : String :=
  shape.name ++ " with " ++ toString shape.fields.length ++ " elements"

/-- The items of an array, gathered field by field; `index` counts the fields already read. Fields
after the end are left unset unless they are required. -/
def gatherItems (shape : Shape σ α) (closed : Bool) (state : σ) (index : Nat) :
    List (Field σ) → List Source → Except Fault σ
  | [], [] => if closed then .ok state else .error .malformed
  | [], _ :: _ => .error .malformed
  | field :: fields, [] =>
    if !closed then .error .malformed
    else if field.required then .error (.invalidLength index shape.withLength)
    else shape.gatherItems closed state (index + 1) fields []
  | field :: fields, x :: rest => do
    let state ← field.set state x
    shape.gatherItems closed state (index + 1) fields rest

/-- The reader of a record. -/
def reader (shape : Shape σ α) : Reader α
  | .object members closed => do
    let state ← shape.gather shape.start members
    if closed then shape.finish state else .error .malformed
  | .array items closed =>
    if shape.positional then do
      let state ← shape.gatherItems closed shape.start 0 shape.fields items
      shape.finish state
    else .error (.invalidType .sequence shape.name)
  | x => .error (x.mismatch shape.name)

end Shape

/-- A field that must be there once the record is closed. -/
def requireField {α : Type} (name : String) : Option α → Except Fault α
  | some a => .ok a
  | none => .error (.missingField name)

/-- The greatest number of arrays and objects inside one another. -/
def depthLimit : Nat := 127

/-- The value of a whole text: nothing but blanks may follow it. -/
def readText {α : Type} (read : Reader α) (text : String) : Except Fault α := do
  let (source, complete) := Source.ofText text
  let value ← read source
  if complete then .ok value else .error .malformed

/-- Any JSON text. -/
def ofText (text : String) : Except Fault Json := readText (Reader.document depthLimit) text

end Json

end FilterSql
