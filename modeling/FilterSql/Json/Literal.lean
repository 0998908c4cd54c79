import FilterSql.Json.Basic

/-!
Number and string literals of JSON.

An integer literal that fits sixty-four bits, signed or unsigned, is an integer; minus zero is not
one. Every other literal is read as a *significand* scaled by a power of ten, both rounded: the
significand keeps the leading digits that fit sixty-four bits. The two roundings may leave the
number one place away from the nearest one.

A literal can be well formed and still denote nothing: a number beyond the finite range, or a string
with half of a surrogate pair. Such a literal is found with the value `none`.
-/

namespace FilterSql

namespace Json

/-- The value of an ASCII digit. -/
def digitValue (c : Char) : Nat := c.toNat - '0'.toNat

/-- The digits of a whole part taken into a significand, with the count of digits left out. After
the first digit that does not fit, all others are left out. -/
def absorbWhole (significand omitted : Nat) : List Char → Nat × Nat
  | [] => (significand, omitted)
  | c :: cs =>
    let next := 10 * significand + digitValue c
    if omitted = 0 && next < Word64.count then absorbWhole next 0 cs
    else absorbWhole significand (omitted + 1) cs

/-- The digits of a fraction taken into a significand, with the count of digits taken. The first
digit that does not fit ends it. -/
def absorbFraction (significand taken : Nat) : List Char → Nat × Nat
  | [] => (significand, taken)
  | c :: cs =>
    let next := 10 * significand + digitValue c
    if next < Word64.count then absorbFraction next (taken + 1) cs else (significand, taken)

/-- A number times a power of ten. A power beyond the table is reached in steps of `10 ^ 308`
downwards, until nothing is left; upwards it is out of range. -/
def scaleByTen (x : Binary64) (exponent : Int) : (fuel : Nat) → Option Binary64
  | 0 => some x
  | fuel + 1 =>
    if exponent.natAbs ≤ 308 then do
      let power ← Binary64.nearest false (Nat.pow 10 exponent.natAbs) 1
      if 0 ≤ exponent then x.mul power else x.div power
    else if x.place = 0 then some x
    else if 0 ≤ exponent then none
    else do
      let power ← Binary64.nearest false (Nat.pow 10 308) 1
      let y ← x.div power
      scaleByTen y (exponent + 308) fuel

/-- The number with the given digits before and after the point and the given exponent. -/
def scaledNumber (negative : Bool) (whole fraction : List Char) (exponent : Int) :
    Option Number := do
  let (significand, omitted) := absorbWhole 0 0 whole
  let (significand, taken) := absorbFraction significand 0 fraction
  let start ← Binary64.nearest false significand 1
  let x ← scaleByTen start (omitted - taken + exponent) 4
  return .floating (if negative then x.neg else x)

/-- The number with the given digits and neither point nor exponent. -/
def wholeNumber (negative : Bool) (digits : List Char) : Option Number :=
  let n := Reading.natural digits
  if negative then
    if 0 < n && n ≤ Word64.signedLimit then some (.integer (-n)) else scaledNumber true digits [] 0
  else if n < Word64.count then some (.integer n)
  else scaledNumber false digits [] 0

/-- An exponent mark with its exponent, and what follows it. The outer option tells whether the text
is well formed, the inner one whether there is an exponent. -/
def exponentPart : List Char → Option (Option Int × List Char)
  | c :: cs =>
    if c == 'e' || c == 'E' then
      let (negative, body) := Reading.sign cs
      let digits := body.takeWhile Char.isDigit
      if digits.isEmpty then none
      else
        let n : Int := Reading.natural digits
        some (some (if negative then -n else n), body.dropWhile Char.isDigit)
    else some (none, c :: cs)
  | [] => some (none, [])

/-- A point with digits, and what follows them. -/
def fractionPart : List Char → Option (Option (List Char) × List Char)
  | '.' :: cs =>
    let digits := cs.takeWhile Char.isDigit
    if digits.isEmpty then none else some (some digits, cs.dropWhile Char.isDigit)
  | cs => some (none, cs)

/-- A number literal at the head of a text, and what follows it; nothing when it is malformed. -/
def numberLiteral (cs : List Char) : Option (Option Number × List Char) := do
  let (negative, body) : Bool × List Char :=
    match cs with
    | '-' :: rest => (true, rest)
    | _ => (false, cs)
  let whole := body.takeWhile Char.isDigit
  if whole.isEmpty || (whole.head? == some '0' && whole.length != 1) then none
  else
    let (fraction, rest) ← fractionPart (body.dropWhile Char.isDigit)
    let (exponent, rest) ← exponentPart rest
    match fraction, exponent with
    | none, none => some (wholeNumber negative whole, rest)
    | _, _ => some (scaledNumber negative whole (fraction.getD []) (exponent.getD 0), rest)

/-- The value of a hexadecimal digit. -/
def hexValue? (c : Char) : Option Nat :=
  if '0' ≤ c && c ≤ '9' then some (c.toNat - 48)
  else if 'a' ≤ c && c ≤ 'f' then some (c.toNat - 87)
  else if 'A' ≤ c && c ≤ 'F' then some (c.toNat - 55)
  else none

/-- The value of four hexadecimal digits. -/
def hexValues? (a b c d : Char) : Option Nat := do
  let a ← hexValue? a
  let b ← hexValue? b
  let c ← hexValue? c
  let d ← hexValue? d
  return ((a * 16 + b) * 16 + c) * 16 + d

/-- The character that a backslash and a letter stand for. -/
def simpleEscape? (c : Char) : Option Char :=
  match c with
  | '"' => some '"'
  | '\\' => some '\\'
  | '/' => some '/'
  | 'b' => some '\x08'
  | 'f' => some '\x0c'
  | 'n' => some '\n'
  | 'r' => some '\r'
  | 't' => some '\t'
  | _ => none

/-- Whether a code unit opens a surrogate pair. -/
def isHighSurrogate (n : Nat) : Bool := 0xD800 ≤ n && n ≤ 0xDBFF

/-- Whether a code unit closes a surrogate pair. -/
def isLowSurrogate (n : Nat) : Bool := 0xDC00 ≤ n && n ≤ 0xDFFF

/-- The characters that a list of code units and characters stands for; nothing when a surrogate
stands alone. -/
def pairUp : List (Nat ⊕ Char) → Option (List Char)
  | [] => some []
  | .inr c :: rest => (pairUp rest).map (c :: ·)
  | .inl u :: rest =>
    if isHighSurrogate u then
      match rest with
      | .inl v :: after =>
        if isLowSurrogate v then
          (pairUp after).map (Char.ofNat (0x10000 + (u - 0xD800) * 0x400 + (v - 0xDC00)) :: ·)
        else none
      | _ => none
    else if isLowSurrogate u then none
    else (pairUp rest).map (Char.ofNat u :: ·)

/-- The pieces of a string up to its closing quote, and what follows it; nothing when the string
does not close, holds a control character or an unknown escape. Escaped code units are kept apart
from characters. -/
def stringPieces : List Char → Option (List (Nat ⊕ Char) × List Char)
  | [] => none
  | '"' :: rest => some ([], rest)
  | '\\' :: 'u' :: a :: b :: c :: d :: rest =>
    match hexValues? a b c d with
    | none => none
    | some u => (stringPieces rest).map fun (pieces, after) => (.inl u :: pieces, after)
  | '\\' :: c :: rest =>
    match simpleEscape? c with
    | none => none
    | some e => (stringPieces rest).map fun (pieces, after) => (.inr e :: pieces, after)
  | c :: rest =>
    if c.toNat < 0x20 then none
    else (stringPieces rest).map fun (pieces, after) => (.inr c :: pieces, after)

/-- The rest of a string literal after its opening quote, and what follows it. -/
def stringLiteral (cs : List Char) : Option (Option String × List Char) :=
  (stringPieces cs).map fun (pieces, after) => ((pairUp pieces).map String.ofList, after)

end Json

end FilterSql
