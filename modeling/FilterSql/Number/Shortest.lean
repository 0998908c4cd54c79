import FilterSql.Number.Binary64

/-!
The shortest decimal that reads back as a given binary64 number.

A decimal reads back as `x` exactly when it lies in the interval between the midpoints to the two
neighbours of `x`, ends included when the place of `x` is even. The grids with one, two, … digits
are tried in turn; on each only the two neighbours of `x` matter, and of two hits the nearer one is
taken. An exact tie between them goes as `Tie` says.
-/

namespace FilterSql

/-- Which of two equally near decimals is taken. -/
inductive Tie where
  /-- the one whose last digit is even -/
  | even
  /-- the greater one -/
  | up
  deriving DecidableEq, Repr

/-- A positive decimal: `digits * 10 ^ exponent`. -/
structure Decimal where
  digits : Nat
  exponent : Int
  deriving DecidableEq, Repr

namespace Decimal

/-- The decimal numeral of a natural number, most significant digit first. -/
def numeral (n : Nat) : List Char := Nat.toDigits 10 n

/-- How many digits are written. -/
def length (d : Decimal) : Nat := (numeral d.digits).length

/-- The exponent of the first digit: the decimal lies between `10 ^ e` and `10 ^ (e + 1)`. -/
def scientific (d : Decimal) : Int := d.exponent + d.length - 1

/-- The same decimal without a last digit zero. -/
def dropLastZero (d : Decimal) : Decimal :=
  if d.digits % 10 = 0 then ⟨d.digits / 10, d.exponent + 1⟩ else d

/-- The exponent of the first digit of `num / den`, for a positive quotient. A quotient below one is
multiplied by ten until it is not, at most `fuel` times. -/
def leadingExponent (num den : Nat) : (fuel : Nat) → Int
  | 0 => (numeral (num / den)).length - 1
  | fuel + 1 =>
    if den ≤ num then (numeral (num / den)).length - 1 else leadingExponent (num * 10) den fuel - 1

end Decimal

namespace Binary64

/-- The interval of reals that round to a positive number, as numerators over a common
denominator, and whether its ends belong to it. -/
structure Rounding where
  low : Nat
  value : Nat
  high : Nat
  den : Nat
  closed : Bool

/-- The reals that round to `x`: up to the midpoints to the neighbouring magnitudes. -/
def rounding (x : Binary64) : Rounding where
  low := unitsAt (x.place - 1) + x.units
  value := 2 * x.units
  high := x.units + unitsAt (x.place + 1)
  den := 2 * unitsPerOne
  closed := x.place % 2 == 0

namespace Rounding

/-- Whether `num / den'` rounds to the number, where `num` and `den'` are taken over the common
denominator. -/
def admits (r : Rounding) (num den : Nat) : Bool :=
  if r.closed then r.low * den ≤ num && num ≤ r.high * den
  else r.low * den < num && num < r.high * den

/-- The decimal with last digit at `10 ^ exponent` that rounds to the number and is nearest to it. -/
def onGrid (r : Rounding) (tie : Tie) (exponent : Int) : Option Decimal :=
  -- one grid step is `step / den` over the common denominator
  let step := r.den * Nat.pow 10 exponent.toNat
  let den := Nat.pow 10 (-exponent).toNat
  let lower := r.value * den / step
  let below := r.admits (lower * step) den
  let above := r.admits ((lower + 1) * step) den
  let twice := 2 * (r.value * den - lower * step)
  let takeAbove : Bool :=
    above && (!below || step < twice || (step == twice && (tie == .up || lower % 2 == 1)))
  if takeAbove then some ⟨lower + 1, exponent⟩
  else if below then some ⟨lower, exponent⟩
  else none

/-- The first hit among the grids with `count` digits, `count + 1` digits, and so on. -/
def search (r : Rounding) (tie : Tie) (leading : Int) (count : Nat) : (fuel : Nat) → Option Decimal
  | 0 => none
  | fuel + 1 =>
    match r.onGrid tie (leading + 1 - count) with
    | some d => some d
    | none => search r tie leading (count + 1) fuel

end Rounding

/-- The shortest decimal that reads back as the magnitude of `x`, the nearest of those; seventeen
digits always suffice. Zero has none. A last digit zero comes up only when a grid with one digit is
hit at its upper end, the next power of ten. -/
def shortest? (x : Binary64) (tie : Tie) : Option Decimal :=
  if x.place = 0 then none
  else
    let r := x.rounding
    (r.search tie (Decimal.leadingExponent r.value r.den 400) 1 17).map Decimal.dropLastZero

end Binary64

end FilterSql
