/-!
Patterns of `LIKE` that match a text literally.
-/

namespace FilterSql

namespace Like

/-- The characters with a meaning of their own in a pattern. -/
def isMeta (c : Char) : Bool := c == '\\' || c == '%' || c == '_'

/-- Characters with a backslash before each metacharacter. -/
def escapeChars (cs : List Char) : List Char :=
  cs.flatMap fun c => if isMeta c then ['\\', c] else [c]

/-- A text with a backslash before each metacharacter. -/
def escape (s : String) : String := String.ofList (escapeChars s.toList)

/-- The pattern of the texts that contain a given text. -/
def containing (s : String) : String := String.ofList ('%' :: escapeChars s.toList ++ ['%'])

end Like

end FilterSql
