import FilterSql.Json.Basic
import FilterSql.Number.Style

/-!
Writing JSON documents: compactly, or laid out over lines.

Quotes, backslashes and control characters are escaped and nothing else is. A binary64 number is
written with its shortest digits, positionally from `0.00001` up to below `1e16` and then always with
a fraction, and with a signed exponent elsewhere.
-/

namespace FilterSql

namespace Json

/-- How binary64 numbers are written. -/
def decimalStyle : DecimalStyle where
  tie := .even
  leastPositional := some (-5)
  greatestPositional := some 15
  wholeFraction := true

/-- The digit of a number below sixteen. -/
def hexDigit (n : Nat) : Char := if n < 10 then Char.ofNat (48 + n) else Char.ofNat (87 + n)

/-- A character as it stands between quotes. -/
def escapeChar (c : Char) : List Char :=
  if c = '"' then ['\\', '"']
  else if c = '\\' then ['\\', '\\']
  else if c.toNat < 0x20 then
    if c = '\x08' then ['\\', 'b']
    else if c = '\x0c' then ['\\', 'f']
    else if c = '\n' then ['\\', 'n']
    else if c = '\r' then ['\\', 'r']
    else if c = '\t' then ['\\', 't']
    else ['\\', 'u', '0', '0', hexDigit (c.toNat / 16), hexDigit (c.toNat % 16)]
  else [c]

/-- A string between quotes. -/
def quote (s : String) : String :=
  String.ofList ('"' :: s.toList.flatMap escapeChar ++ ['"'])

/-- A number as it stands in a document. -/
def writeNumber : Number → String
  | .integer n => if n < 0 then "-" ++ toString n.natAbs else toString n.natAbs
  | .floating x => decimalStyle.write x

mutual

/-- A document without any white space. -/
def compact : Json → String
  | null => "null"
  | bool true => "true"
  | bool false => "false"
  | number n => writeNumber n
  | string s => quote s
  | array items => "[" ++ compactItems items ++ "]"
  | object members => "\x7b" ++ compactMembers members ++ "\x7d"

/-- Items with commas between them. -/
def compactItems : List Json → String
  | [] => ""
  | [x] => compact x
  | x :: y :: rest => compact x ++ "," ++ compactItems (y :: rest)

/-- Members with commas between them. -/
def compactMembers : List (String × Json) → String
  | [] => ""
  | [(k, x)] => quote k ++ ":" ++ compact x
  | (k, x) :: m :: rest => quote k ++ ":" ++ compact x ++ "," ++ compactMembers (m :: rest)

end

/-- A line break followed by two spaces for each level. -/
def lineBreak (level : Nat) : String := "\n" ++ String.ofList (List.replicate (2 * level) ' ')

mutual

/-- A document over several lines, one item or member on each, as it stands at a level. -/
def pretty (level : Nat) : Json → String
  | array [] => "[]"
  | object [] => "\x7b\x7d"
  | array (x :: rest) =>
    "[" ++ lineBreak (level + 1) ++ pretty (level + 1) x ++ prettyItems (level + 1) rest
      ++ lineBreak level ++ "]"
  | object ((k, x) :: rest) =>
    "\x7b" ++ lineBreak (level + 1) ++ quote k ++ ": " ++ pretty (level + 1) x
      ++ prettyMembers (level + 1) rest ++ lineBreak level ++ "\x7d"
  | null => "null"
  | bool true => "true"
  | bool false => "false"
  | number n => writeNumber n
  | string s => quote s

/-- The items after the first. -/
def prettyItems (level : Nat) : List Json → String
  | [] => ""
  | x :: rest => "," ++ lineBreak level ++ pretty level x ++ prettyItems level rest

/-- The members after the first. -/
def prettyMembers (level : Nat) : List (String × Json) → String
  | [] => ""
  | (k, x) :: rest =>
    "," ++ lineBreak level ++ quote k ++ ": " ++ pretty level x ++ prettyMembers level rest

end

end Json

end FilterSql
