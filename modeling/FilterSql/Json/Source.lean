import FilterSql.Json.Literal

/-!
A JSON text as far as it can be read.

Reading never fails. A text that breaks off or goes astray gives a `Source` that is broken at that
point and whole before it, so that whoever walks the source in the order of the text meets the first
thing wrong with it, be it the text itself or a value of the wrong type.
-/

namespace FilterSql

namespace Json

/-- A document as far as its text can be read. Literals that denote nothing carry `none`. A list of
items or members tells whether it was closed. -/
inductive Source where
  | null
  | bool (b : Bool)
  | number (n : Option Number)
  | string (s : Option String)
  | array (items : List Source) (closed : Bool)
  | object (members : List (Option String × Source)) (closed : Bool)
  /-- the text goes astray here -/
  | broken
  deriving Inhabited

namespace Source

/-- The four blanks of JSON. -/
def isSpace (c : Char) : Bool := c == ' ' || c == '\n' || c == '\t' || c == '\r'

/-- A text without its leading blanks. -/
def skipSpace (cs : List Char) : List Char := cs.dropWhile isSpace

mutual

/-- The value at the head of a text, and what follows it unless the text goes astray. -/
def value : (fuel : Nat) → List Char → Source × Option (List Char)
  | 0, _ => (broken, none)
  | fuel + 1, cs =>
    match skipSpace cs with
    | 'n' :: 'u' :: 'l' :: 'l' :: rest => (null, some rest)
    | 't' :: 'r' :: 'u' :: 'e' :: rest => (bool true, some rest)
    | 'f' :: 'a' :: 'l' :: 's' :: 'e' :: rest => (bool false, some rest)
    | '"' :: rest =>
      match stringLiteral rest with
      | some (s, after) => (string s, some after)
      | none => (broken, none)
    | '[' :: rest =>
      let (items, after) := items true fuel rest
      (array items after.isSome, after)
    | '\x7b' :: rest =>
      let (members, after) := members true fuel rest
      (object members after.isSome, after)
    | other =>
      match numberLiteral other with
      | some (n, after) => (number n, some after)
      | none => (broken, none)

/-- The items of an array from a point inside it. A comma stands before every item but the first. -/
def items (first : Bool) : (fuel : Nat) → List Char → List Source × Option (List Char)
  | 0, _ => ([], none)
  | fuel + 1, cs =>
    match skipSpace cs with
    | ']' :: rest => ([], some rest)
    | ',' :: rest =>
      if first || (skipSpace rest).head? == some ']' then ([], none) else itemThen fuel rest
    | other => if first then itemThen fuel other else ([], none)

/-- One item and the items after it. -/
def itemThen : (fuel : Nat) → List Char → List Source × Option (List Char)
  | 0, _ => ([], none)
  | fuel + 1, cs =>
    match value fuel cs with
    | (x, none) => ([x], none)
    | (x, some rest) =>
      let (xs, after) := items false fuel rest
      (x :: xs, after)

/-- The members of an object from a point inside it. -/
def members (first : Bool) : (fuel : Nat) → List Char →
    List (Option String × Source) × Option (List Char)
  | 0, _ => ([], none)
  | fuel + 1, cs =>
    match skipSpace cs with
    | '\x7d' :: rest => ([], some rest)
    | ',' :: rest => if first then ([], none) else memberThen fuel (skipSpace rest)
    | other => if first then memberThen fuel other else ([], none)

/-- One member and the members after it. A key without its colon has a broken value. -/
def memberThen : (fuel : Nat) → List Char → List (Option String × Source) × Option (List Char)
  | 0, _ => ([], none)
  | fuel + 1, cs =>
    match cs with
    | '"' :: rest =>
      match stringLiteral rest with
      | none => ([], none)
      | some (key, after) =>
        match skipSpace after with
        | ':' :: rest =>
          match value fuel rest with
          | (x, none) => ([(key, x)], none)
          | (x, some rest) =>
            let (ms, after) := members false fuel rest
            ((key, x) :: ms, after)
        | _ => ([(key, broken)], none)
    | _ => ([], none)

end

/-- The document of a text, and whether nothing but blanks follows it. Between two steps that shorten
the text stand at most two that do not, so three times its length bounds the steps. -/
def ofText (text : String) : Source × Bool :=
  let cs := text.toList
  match value (3 * cs.length + 3) cs with
  | (x, some rest) => (x, (skipSpace rest).isEmpty)
  | (x, none) => (x, false)

mutual

/-- The document itself, when all of the text can be read and at most `room` arrays and objects
stand inside one another. -/
def toJson? (room : Nat) : Source → Option Json
  | null => some .null
  | bool b => some (.bool b)
  | number n => n.map .number
  | string s => s.map .string
  | array xs closed =>
    match room with
    | 0 => none
    | room + 1 => if closed then (toItems? room xs).map .array else none
  | object ms closed =>
    match room with
    | 0 => none
    | room + 1 =>
      if closed then (toMembers? room ms).map fun ms => .object (distinctMembers ms) else none
  | broken => none

/-- The items of an array. -/
def toItems? (room : Nat) : List Source → Option (List Json)
  | [] => some []
  | x :: xs => do
    let x ← toJson? room x
    let xs ← toItems? room xs
    return x :: xs

/-- The members of an object, repeated keys included. -/
def toMembers? (room : Nat) : List (Option String × Source) → Option (List (String × Json))
  | [] => some []
  | (key, x) :: ms => do
    let key ← key
    let x ← toJson? room x
    let ms ← toMembers? room ms
    return (key, x) :: ms

end

mutual

/-- Whether a value is well formed, which is all that is asked of a value nobody reads. -/
def isWellFormed : Source → Bool
  | array xs closed => closed && areWellFormed xs
  | object ms closed => closed && membersWellFormed ms
  | broken => false
  | null | bool _ | number _ | string _ => true

/-- Whether all items are well formed. -/
def areWellFormed : List Source → Bool
  | [] => true
  | x :: xs => isWellFormed x && areWellFormed xs

/-- Whether all members are well formed. -/
def membersWellFormed : List (Option String × Source) → Bool
  | [] => true
  | (_, x) :: ms => isWellFormed x && membersWellFormed ms

end

end Source

end Json

end FilterSql
