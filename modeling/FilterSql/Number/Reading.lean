import FilterSql.Number.Shortest

/-!
Reading numbers from text: integers, and decimals rounded to the nearest binary64 number.

A numeral is an optional sign followed by ASCII digits. A decimal may also have a point with digits
on at least one side of it, and an exponent. Nothing else may stand before, between or after.
-/

namespace FilterSql

namespace Reading

/-- A leading sign, and what follows it. -/
def sign : List Char → Bool × List Char
  | '-' :: cs => (true, cs)
  | '+' :: cs => (false, cs)
  | cs => (false, cs)

/-- The value of a run of ASCII digits. -/
def natural (cs : List Char) : Nat := cs.foldl (fun n c => 10 * n + (c.toNat - '0'.toNat)) 0

/-- An optional sign and at least one digit. -/
def integer? (cs : List Char) : Option Int :=
  let (negative, ds) := sign cs
  if ds.isEmpty || !ds.all Char.isDigit then none
  else some (if negative then -(natural ds : Int) else natural ds)

/-- An integer of sixty-four bits with sign. -/
def int64? (cs : List Char) : Option Int :=
  match integer? cs with
  | some n =>
    if -(Word64.signedLimit : Int) ≤ n && n < Word64.signedLimit then some n else none
  | none => none

end Reading

namespace Binary64

/-- The number nearest to `± digits * 10 ^ exponent`. Exponents far outside the range are decided by
the place of the first digit alone. -/
def ofDecimal (negative : Bool) (digits : Nat) (exponent : Int) : Option Binary64 :=
  let top := (Decimal.numeral digits).length + exponent
  if digits = 0 || top < -400 then some (zero negative)
  else if 400 < top then none
  else nearest negative (digits * Nat.pow 10 exponent.toNat) (Nat.pow 10 (-exponent).toNat)

end Binary64

namespace Reading

/-- The exponent part of a decimal: nothing, or `e` and an integer. -/
def exponent? : List Char → Option Int
  | [] => some 0
  | c :: cs => if c == 'e' || c == 'E' then integer? cs else none

/-- Digits around an optional point, and what follows them. -/
def fraction (cs : List Char) : List Char × List Char × List Char :=
  match cs.dropWhile Char.isDigit with
  | '.' :: after =>
    (cs.takeWhile Char.isDigit, after.takeWhile Char.isDigit, after.dropWhile Char.isDigit)
  | after => (cs.takeWhile Char.isDigit, [], after)

/-- A decimal as the nearest number; nothing when it is malformed or beyond the finite range. -/
def decimal? (cs : List Char) : Option Binary64 :=
  let (negative, body) := sign cs
  let (whole, part, after) := fraction body
  if whole.isEmpty && part.isEmpty then none
  else
    match exponent? after with
    | none => none
    | some e => Binary64.ofDecimal negative (natural (whole ++ part)) (e - part.length)

end Reading

end FilterSql
