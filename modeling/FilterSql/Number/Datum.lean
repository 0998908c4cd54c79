import FilterSql.Number.Binary64

/-!
All that the sixty-four bits of the interchange format stand for: finite numbers, the two
infinities, and NaNs.

The places of `Binary64` go on beyond the finite magnitudes: the next one is infinity, and those
after it are the NaNs. `ofBits?_bits` and `bits_ofBits?` say that each datum has its own bits, and
that all sixty-four-bit words are taken.
-/

namespace FilterSql

namespace Binary64

/-- A datum of the binary64 format. The NaNs of one sign are told apart by a payload. -/
inductive Datum where
  | finite (x : Binary64)
  | infinity (negative : Bool)
  | nan (negative : Bool) (payload : Fin (binadeSize - 1))
  deriving DecidableEq, Repr

namespace Datum

instance : Inhabited Datum := ⟨finite default⟩

/-- The sign bit. -/
def negative : Datum → Bool
  | finite x => x.negative
  | infinity negative => negative
  | nan negative _ => negative

/-- The place of a datum among those of its sign. -/
def place : Datum → Nat
  | finite x => x.place
  | infinity _ => placeLimit
  | nan _ payload => placeLimit + 1 + payload

/-- Beyond infinity there are as many places as payloads. -/
theorem beyond_lt {place : Nat} (bounded : place < Word64.signedLimit) :
    place - placeLimit - 1 < binadeSize - 1 := by
  simp only [Word64.signedLimit, placeLimit, binadeSize] at *
  omega

/-- The datum at a place. -/
def ofPlace (negative : Bool) (place : Nat) (bounded : place < Word64.signedLimit) : Datum :=
  if h : place < placeLimit then finite ⟨negative, place, h⟩
  else if place = placeLimit then infinity negative
  else nan negative ⟨place - placeLimit - 1, beyond_lt bounded⟩

/-- The interchange format: the sign bit, then the place. -/
def bits (x : Datum) : Nat := (if x.negative then Word64.signedLimit else 0) + x.place

/-- The datum with the given bits; nothing for a number that is no word. -/
def ofBits? (bits : Nat) : Option Datum :=
  if bits < Word64.count then
    some (ofPlace (Word64.signedLimit ≤ bits) (bits % Word64.signedLimit)
      (Nat.mod_lt _ (by decide)))
  else none

/-- Whether a datum is a NaN. -/
def isNaN : Datum → Bool
  | nan _ _ => true
  | _ => false

/-- Equality of the numbers held; a NaN holds none, so it equals nothing. -/
def sameNumber : Datum → Datum → Bool
  | finite x, finite y => x.sameNumber y
  | infinity a, infinity b => a == b
  | _, _ => false

@[simp] theorem sameNumber_self (x : Datum) : x.sameNumber x = !x.isNaN := by
  cases x <;> simp [sameNumber, isNaN]

theorem place_lt (x : Datum) : x.place < Word64.signedLimit := by
  cases x with
  | finite x =>
    have := x.finite
    simp only [place, Word64.signedLimit, placeLimit, binadeSize] at *
    omega
  | infinity _ => exact (by decide : placeLimit < Word64.signedLimit)
  | nan _ payload =>
    have := payload.isLt
    simp only [place, Word64.signedLimit, placeLimit, binadeSize] at *
    omega

@[simp] theorem negative_ofPlace (negative : Bool) (place : Nat)
    (bounded : place < Word64.signedLimit) :
    (ofPlace negative place bounded).negative = negative := by
  unfold ofPlace
  split
  · rfl
  · split <;> rfl

@[simp] theorem place_ofPlace (negative : Bool) (place : Nat)
    (bounded : place < Word64.signedLimit) : (ofPlace negative place bounded).place = place := by
  unfold ofPlace
  split
  · rfl
  · split
    · next h => exact h.symm
    · simp only [Datum.place]
      omega

/-- Sign and place determine a datum. -/
theorem ofPlace_place (x : Datum) : ofPlace x.negative x.place x.place_lt = x := by
  cases x with
  | finite x => simp [ofPlace, place, negative, x.finite]
  | infinity _ => simp [ofPlace, place, negative]
  | nan _ payload =>
    have beyond : ¬ placeLimit + 1 + payload.val < placeLimit := by omega
    have other : ¬ placeLimit + 1 + payload.val = placeLimit := by omega
    have rest : placeLimit + 1 + payload.val - placeLimit - 1 = payload.val := by omega
    simp [ofPlace, place, negative, beyond, other, rest]

theorem bits_lt (x : Datum) : x.bits < Word64.count := by
  have := x.place_lt
  have := Word64.count_eq_two_mul_signedLimit
  unfold bits
  split <;> omega

/-- Each datum is read back from its bits. -/
theorem ofBits?_bits (x : Datum) : ofBits? x.bits = some x := by
  have bounded := x.place_lt
  have sign : decide (Word64.signedLimit ≤ x.bits) = x.negative := by
    unfold bits
    cases x.negative with
    | false => simpa using bounded
    | true => simp
  have rest : x.bits % Word64.signedLimit = x.place := by
    unfold bits
    cases x.negative <;> simp [Nat.mod_eq_of_lt bounded]
  simp only [ofBits?, x.bits_lt, if_true, sign, rest, ofPlace_place]

/-- Each word is the bits of the datum that it stands for. -/
theorem bits_ofBits? {n : Nat} {x : Datum} (h : ofBits? n = some x) : x.bits = n := by
  unfold ofBits? at h
  split at h
  · next word =>
    cases h
    simp only [bits, negative_ofPlace, place_ofPlace, decide_eq_true_eq]
    simp only [Word64.count, Word64.signedLimit] at *
    by_cases signed : 9223372036854775808 ≤ n
    · simp only [signed, if_true]
      omega
    · simp only [signed, if_false]
      omega
  · cases h

end Datum

end Binary64

end FilterSql
