import FilterSql.Number.Shortest

/-!
How a binary64 number is written: its shortest decimal, laid out by a `DecimalStyle`.
-/

namespace FilterSql

/-- The choices a written form makes. Positional form is used for scientific exponents from
`leastPositional` to `greatestPositional`, where absent bounds bound nothing; exponent form is used
for all others. -/
structure DecimalStyle where
  tie : Tie
  leastPositional : Option Int
  greatestPositional : Option Int
  /-- whether a whole number in positional form ends in `.0` -/
  wholeFraction : Bool
  deriving DecidableEq, Repr

namespace Decimal

/-- Digits with the decimal point put in its place. -/
def positional (d : Decimal) (wholeFraction : Bool) : List Char :=
  let ds := numeral d.digits
  let e := d.scientific
  if 0 ≤ d.exponent then
    ds ++ List.replicate d.exponent.toNat '0' ++ (if wholeFraction then ['.', '0'] else [])
  else if 0 ≤ e then ds.take (e.toNat + 1) ++ '.' :: ds.drop (e.toNat + 1)
  else '0' :: '.' :: List.replicate (-e - 1).toNat '0' ++ ds

/-- One digit, the other digits after a point, and a signed exponent. -/
def exponential (d : Decimal) : List Char :=
  let e := d.scientific
  let sign := if e < 0 then '-' else '+'
  let tail := 'e' :: sign :: numeral e.natAbs
  match numeral d.digits with
  | [] => tail
  | [c] => c :: tail
  | c :: cs => c :: '.' :: cs ++ tail

end Decimal

namespace DecimalStyle

/-- Whether a scientific exponent is written positionally. -/
def isPositional (style : DecimalStyle) (e : Int) : Bool :=
  style.leastPositional.all (· ≤ e) && style.greatestPositional.all (e ≤ ·)

/-- The written form of a number; zero keeps its sign. -/
def write (style : DecimalStyle) (x : Binary64) : String :=
  let magnitude :=
    match x.shortest? style.tie with
    | none => if style.wholeFraction then ['0', '.', '0'] else ['0']
    | some d =>
      if style.isPositional d.scientific then d.positional style.wholeFraction else d.exponential
  String.ofList (if x.negative then '-' :: magnitude else magnitude)

end DecimalStyle

end FilterSql
