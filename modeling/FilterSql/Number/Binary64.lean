import FilterSql.Number.Word

/-!
Finite binary64 numbers, in exact arithmetic.

The non-negative finite magnitudes form one increasing list; a magnitude is held as its *place* in
that list, which is also the low 63 bits of the interchange format. Every magnitude is a whole
number of *units* of `2 ^ -1074`, so comparison, rounding, multiplication and division are questions
about natural numbers. `nearest` is the only place where rounding happens.
-/

namespace FilterSql

namespace Binary64

/-- How many magnitudes there are in each binade. -/
def binadeSize : Nat := 4503599627370496

/-- The first place that is no finite magnitude. -/
def placeLimit : Nat := 2047 * binadeSize

/-- The magnitude at a place, in units of `2 ^ -1074`. -/
def unitsAt (place : Nat) : Nat :=
  if place < binadeSize then place
  else (binadeSize + place % binadeSize) * Nat.pow 2 (place / binadeSize - 1)

/-- How many units make one. -/
def unitsPerOne : Nat := Nat.pow 2 1074

/-- How many units make one is a power of two. The exponent is given by its bounds only, so that no
proof computes the power. -/
theorem exists_unitsPerOne : ∃ a, 1000 ≤ a ∧ a < 1100 ∧ unitsPerOne = Nat.pow 2 a := by
  unfold unitsPerOne
  generalize places : 1074 = a
  exact ⟨a, by omega, by omega, rfl⟩

theorem unitsPerOne_pos : 0 < unitsPerOne := by
  obtain ⟨a, -, -, units⟩ := exists_unitsPerOne
  exact units ▸ Nat.two_pow_pos a

/-- The place whose magnitude is nearest to `num / den`; of two equally near places, the even one.
The place may lie beyond the finite ones. -/
def nearestPlace (num den : Nat) : Nat :=
  let scaled := num * unitsPerOne
  let binade := (scaled / den).log2 - 52
  let step := den * Nat.pow 2 binade
  let steps := scaled / step
  let rest := scaled % step
  let up := step < 2 * rest ∨ (step = 2 * rest ∧ steps % 2 = 1)
  binade * binadeSize + steps + (if up then 1 else 0)

end Binary64

/-- A finite binary64 number: a sign and the place of its magnitude. Zero has two signs. -/
structure Binary64 where
  negative : Bool
  place : Nat
  finite : place < Binary64.placeLimit
  deriving DecidableEq, Repr

namespace Binary64

/-- Zero, with the given sign. -/
def zero (negative : Bool) : Binary64 := ⟨negative, 0, by decide⟩

instance : Inhabited Binary64 := ⟨zero false⟩

/-- The magnitude in units of `2 ^ -1074`. -/
def units (x : Binary64) : Nat := unitsAt x.place

/-- Equality of the numbers held: the two zeros are the same number, and every other number has one
form only. -/
def sameNumber (x y : Binary64) : Bool :=
  x.place == y.place && (x.negative == y.negative || x.place == 0)

/-- The number nearest to `± num / den`, ties to even; nothing when that is beyond the finite
range. -/
def nearest (negative : Bool) (num den : Nat) : Option Binary64 :=
  if h : nearestPlace num den < placeLimit then some ⟨negative, nearestPlace num den, h⟩ else none

/-- The number nearest to an integer. -/
def ofInt? (n : Int) : Option Binary64 := nearest (n < 0) n.natAbs 1

/-- The rounded product. -/
def mul (x y : Binary64) : Option Binary64 :=
  nearest (x.negative != y.negative) (x.units * y.units) (unitsPerOne * unitsPerOne)

/-- The rounded quotient, for a divisor other than zero. -/
def div (x y : Binary64) : Option Binary64 :=
  nearest (x.negative != y.negative) x.units y.units

/-- The opposite number. -/
def neg (x : Binary64) : Binary64 := { x with negative := !x.negative }

@[simp] theorem sameNumber_self (x : Binary64) : x.sameNumber x = true := by
  simp [sameNumber]

end Binary64

end FilterSql
