import FilterSql.Proofs.CommaList
import Mathlib.Algebra.Group.Nat.Defs

/-!
Which texts are read as numbers, and as which.

Integers are read from their decimal numerals (`Reading.integer?_eq_some`) and from nothing else.
Binary64 numbers are read from decimals, which may have a sign, a point among their digits and an
exponent (`Reading.IsDecimal`); what is read is the binary64 number nearest to the decimal
(`Reading.decimal?_eq_some`), although exponents far from zero are decided without rounding.
-/

namespace FilterSql

namespace Reading

/-! ### Integers -/

/-- A digit is the numeral of its value. -/
theorem numeral_digit {c : Char} (digit : c.isDigit = true) :
    c.toNat - '0'.toNat < 10 ∧ Decimal.numeral (c.toNat - '0'.toNat) = [c] := by
  obtain ⟨low, high⟩ := Char.isDigit_iff_toNat.mp digit
  have bound : c.toNat - '0'.toNat < 10 := by
    simp only [show '0'.toNat = 48 from rfl, show '9'.toNat = 57 from rfl] at *
    omega
  refine ⟨bound, ?_⟩
  rw [Decimal.numeral, Nat.toDigits_of_lt_base bound, List.cons.injEq, ← Char.toNat_inj,
    Nat.toNat_digitChar_of_lt_ten bound]
  exact ⟨Nat.add_sub_cancel' low, rfl⟩

/-- Digits behind the numeral of a positive number go on with it. -/
theorem numeral_append {n : Nat} (positive : 0 < n) {cs : List Char}
    (digits : ∀ c ∈ cs, c.isDigit = true) :
    Decimal.numeral n ++ cs =
      Decimal.numeral (cs.foldl (fun n c => 10 * n + (c.toNat - '0'.toNat)) n) := by
  induction cs generalizing n with
  | nil => simp
  | cons c cs ih =>
      obtain ⟨digit, later⟩ := List.forall_mem_cons.mp digits
      obtain ⟨bound, numeral⟩ := numeral_digit digit
      have next : Decimal.numeral n ++ [c] = Decimal.numeral (10 * n + (c.toNat - '0'.toNat)) := by
        rw [← numeral]
        exact Nat.toDigits_append_toDigits (by decide) positive bound
      rw [List.append_cons, next, List.foldl_cons]
      exact ih (Nat.add_pos_left (Nat.mul_pos (by decide) positive) _) later

/-- Digits are those of a number, possibly behind zeros. -/
theorem exists_padded {cs : List Char} (some : cs ≠ []) (digits : ∀ c ∈ cs, c.isDigit = true) :
    ∃ zeros n, cs = padded zeros n := by
  induction cs with
  | nil => exact absurd rfl some
  | cons c cs ih =>
      obtain ⟨digit, later⟩ := List.forall_mem_cons.mp digits
      by_cases zero : c = '0'
      · subst zero
        cases cs with
        | nil => exact ⟨0, 0, rfl⟩
        | cons =>
            obtain ⟨zeros, n, rest⟩ := ih (by simp) later
            exact ⟨zeros + 1, n, by rw [rest]; rfl⟩
      · obtain ⟨bound, numeral⟩ := numeral_digit digit
        have positive : 0 < c.toNat - '0'.toNat := by
          obtain ⟨low, -⟩ := Char.isDigit_iff_toNat.mp digit
          have other : c.toNat ≠ '0'.toNat := fun same => zero (Char.toNat_inj.mp same)
          omega
        have whole := numeral_append positive later
        rw [numeral] at whole
        exact ⟨0, _, whole⟩

/-- The sign that is read stands in front of what follows it, or there is none. -/
inductive Signed : (negative : Bool) → (cs rest : List Char) → Prop where
  | bare (cs : List Char) : Signed false cs cs
  | plus (cs : List Char) : Signed false ('+' :: cs) cs
  | minus (cs : List Char) : Signed true ('-' :: cs) cs

theorem signed_sign (cs : List Char) : Signed (sign cs).1 cs (sign cs).2 := by
  unfold sign
  split
  · exact .minus _
  · exact .plus _
  · exact .bare _

/-- Integers are read from their numerals, and from nothing else. -/
theorem integer?_eq_some {cs : List Char} {n : Int} : integer? cs = some n ↔ Numeral n cs := by
  refine ⟨fun read => ?_, integer?_numeral⟩
  have signed := signed_sign cs
  simp only [integer?] at read
  generalize (sign cs).1 = negative at signed read
  generalize (sign cs).2 = ds at signed read
  split at read
  · cases read
  · next digits =>
      simp only [Bool.or_eq_true, List.isEmpty_iff, Bool.not_eq_true', not_or,
        Bool.not_eq_false, List.all_eq_true] at digits
      obtain ⟨zeros, k, rfl⟩ := exists_padded digits.1 digits.2
      rw [natural_padded] at read
      cases signed with
      | bare => cases read; exact .bare zeros k
      | plus => cases read; exact .plus zeros k
      | minus => cases read; exact .minus zeros k

/-- Integers of sixty-four bits are read from their numerals, and from nothing else. -/
theorem int64?_eq_some {cs : List Char} {n : Int} :
    int64? cs = some n ↔
      Numeral n cs ∧ -(Word64.signedLimit : Int) ≤ n ∧ n < Word64.signedLimit := by
  rw [← integer?_eq_some, int64?]
  cases integer? cs with
  | none => simp
  | some m =>
      simp only [Bool.and_eq_true, decide_eq_true_eq, Option.ite_none_right_eq_some,
        Option.some_inj]
      constructor
      · rintro ⟨bounds, rfl⟩
        exact ⟨rfl, bounds⟩
      · rintro ⟨rfl, bounds⟩
        exact ⟨bounds, rfl⟩

/-! ### Decimals -/

/-- Digits with a point somewhere among them, or without one, and how many are behind the point. -/
inductive Mantissa : (ds : List Char) → (places : Nat) → (cs : List Char) → Prop where
  | whole (ds : List Char) : Mantissa ds 0 ds
  | point (before after : List Char) :
    Mantissa (before ++ after) after.length (before ++ '.' :: after)

/-- An exponent, which may be left out. -/
inductive Scale : (exponent : Int) → (cs : List Char) → Prop where
  | one : Scale 0 []
  | power {exponent : Int} {mark : Char} {cs : List Char} (isMark : mark = 'e' ∨ mark = 'E')
      (written : Numeral exponent cs) : Scale exponent (mark :: cs)

/-- The decimals of `± digits * 10 ^ exponent`. -/
inductive IsDecimal (negative : Bool) :
    (digits : Nat) → (exponent : Int) → (cs : List Char) → Prop where
  | mk {ds mantissa scale cs : List Char} {places : Nat} {exponent : Int}
      (some : ds ≠ []) (digits : ∀ c ∈ ds, c.isDigit = true) (pointed : Mantissa ds places mantissa)
      (scaled : Scale exponent scale) (signed : Signed negative cs (mantissa ++ scale)) :
      IsDecimal negative (natural ds) (exponent - places) cs

theorem exponent?_eq_some {cs : List Char} {exponent : Int} :
    exponent? cs = some exponent ↔ Scale exponent cs := by
  constructor
  · intro read
    cases cs with
    | nil => cases read; exact .one
    | cons c cs =>
        rw [exponent?] at read
        split at read
        · next isMark => exact .power (by simpa using isMark) (integer?_eq_some.mp read)
        · cases read
  · rintro (_ | ⟨isMark, written⟩)
    · rfl
    · rw [exponent?, if_pos (by simpa using isMark)]
      exact integer?_eq_some.mpr written

/-- The digits that are read stand around the point, in front of what follows them. -/
theorem mantissa_fraction (cs : List Char) :
    ∃ mantissa, Mantissa ((fraction cs).1 ++ (fraction cs).2.1) (fraction cs).2.1.length mantissa ∧
      (∀ c ∈ (fraction cs).1 ++ (fraction cs).2.1, c.isDigit = true) ∧
      cs = mantissa ++ (fraction cs).2.2 := by
  have taken (ds : List Char) : ∀ c ∈ ds.takeWhile Char.isDigit, c.isDigit = true :=
    List.all_eq_true.mp List.all_takeWhile
  unfold fraction
  split
  · next after rest =>
      refine ⟨_, .point _ _, List.forall_mem_append.mpr ⟨taken _, taken _⟩, ?_⟩
      rw [List.append_assoc, List.cons_append, List.takeWhile_append_dropWhile, ← rest,
        List.takeWhile_append_dropWhile]
  · refine ⟨cs.takeWhile Char.isDigit, ?_, by simpa using taken cs, ?_⟩
    · rw [List.append_nil]
      exact .whole _
    · exact (List.takeWhile_append_dropWhile).symm

/-- Digits and a point are read up to the exponent. -/
theorem fraction_mantissa {ds mantissa scale : List Char} {places : Nat} {exponent : Int}
    (digits : ∀ c ∈ ds, c.isDigit = true) (pointed : Mantissa ds places mantissa)
    (scaled : Scale exponent scale) :
    ∃ before after, fraction (mantissa ++ scale) = (before, after, scale) ∧ before ++ after = ds ∧
      after.length = places := by
  have ends : scale.takeWhile Char.isDigit = [] ∧ scale.dropWhile Char.isDigit = scale := by
    cases scaled with
    | one => exact ⟨rfl, rfl⟩
    | power isMark => rcases isMark with rfl | rfl <;> exact ⟨rfl, rfl⟩
  cases pointed with
  | whole =>
      refine ⟨ds, [], ?_, List.append_nil ds, rfl⟩
      rw [fraction, List.dropWhile_append_of_pos digits, List.takeWhile_append_of_pos digits,
        ends.1, ends.2, List.append_nil]
      cases scaled with
      | one => rfl
      | power isMark => rcases isMark with rfl | rfl <;> rfl
  | point before after =>
      obtain ⟨first, second⟩ := List.forall_mem_append.mp digits
      refine ⟨before, after, ?_, rfl, rfl⟩
      rw [List.append_assoc, List.cons_append, fraction, List.dropWhile_append_of_pos first]
      have point : ('.' :: (after ++ scale)).dropWhile Char.isDigit = '.' :: (after ++ scale) := rfl
      have none : ('.' :: (after ++ scale)).takeWhile Char.isDigit = [] := rfl
      rw [point, List.takeWhile_append_of_pos first, none, List.append_nil]
      simp only [List.dropWhile_append_of_pos second, List.takeWhile_append_of_pos second, ends,
        List.append_nil]

/-- In front of digits and a point only a sign is read as one. -/
theorem sign_of_signed {negative : Bool} {cs ds mantissa scale : List Char} {places : Nat}
    (some : ds ≠ []) (digits : ∀ c ∈ ds, c.isDigit = true) (pointed : Mantissa ds places mantissa)
    (signed : Signed negative cs (mantissa ++ scale)) :
    sign cs = (negative, mantissa ++ scale) := by
  have first : ∃ c rest, mantissa = c :: rest ∧ (c.isDigit = true ∨ c = '.') := by
    cases pointed with
    | whole =>
        obtain ⟨c, rest, rfl⟩ := List.exists_cons_of_ne_nil some
        exact ⟨c, rest, rfl, .inl (digits c List.mem_cons_self)⟩
    | point before after =>
        cases before with
        | nil => exact ⟨'.', after, rfl, .inr rfl⟩
        | cons c before => exact ⟨c, _, rfl, .inl (digits c List.mem_cons_self)⟩
  cases signed with
  | plus => rfl
  | minus => rfl
  | bare =>
      obtain ⟨c, rest, rfl, proper⟩ := first
      rw [List.cons_append]
      unfold sign
      split
      · next same => cases same; simp at proper
      · next same => cases same; simp at proper
      · rfl

end Reading

namespace Binary64

/-! ### Decimals far from one -/

theorem two_pow_le_ten_pow (k : Nat) : 2 ^ (3 * k) ≤ 10 ^ k := by
  rw [Nat.pow_mul]
  exact Nat.pow_le_pow_left (by decide) k

/-- A quotient below half a unit is nearest to zero. -/
theorem nearestPlace_eq_zero {num den : Nat} (small : 2 * (num * unitsPerOne) < den) :
    nearestPlace num den = 0 := by
  have none : num * unitsPerOne / den = 0 := Nat.div_eq_of_lt (by omega)
  have rest : num * unitsPerOne % den = num * unitsPerOne := Nat.mod_eq_of_lt (by omega)
  have binade : Nat.log2 0 - 52 = 0 := rfl
  have step : Nat.pow 2 0 = 1 := rfl
  simp only [nearestPlace, none, binade, step, Nat.mul_one, rest]
  rw [if_neg (by omega), Nat.zero_mul]

/-- A quotient from `10 ^ 400` on is beyond the finite numbers. -/
theorem placeLimit_le_nearestPlace {num den k : Nat} (positive : 0 < den) (far : 400 ≤ k)
    (large : 10 ^ k * den ≤ num) : placeLimit ≤ nearestPlace num den := by
  obtain ⟨a, low, -, (units : unitsPerOne = 2 ^ a)⟩ := exists_unitsPerOne
  have quotient : 2 ^ (3 * k + a) ≤ num * unitsPerOne / den := by
    rw [Nat.le_div_iff_mul_le positive, units, Nat.pow_add]
    calc 2 ^ (3 * k) * 2 ^ a * den
      _ ≤ 10 ^ k * 2 ^ a * den :=
        Nat.mul_le_mul_right _ (Nat.mul_le_mul_right _ (two_pow_le_ten_pow k))
      _ = 10 ^ k * den * 2 ^ a := Nat.mul_right_comm ..
      _ ≤ num * 2 ^ a := Nat.mul_le_mul_right _ large
  have binade : 2100 ≤ (num * unitsPerOne / den).log2 - 52 := by
    have nonzero := Nat.ne_of_gt (Nat.lt_of_lt_of_le (Nat.two_pow_pos _) quotient)
    have log := (Nat.le_log2 nonzero).mpr quotient
    omega
  calc placeLimit
    _ ≤ 2100 * binadeSize := by decide
    _ ≤ ((num * unitsPerOne / den).log2 - 52) * binadeSize := Nat.mul_le_mul_right _ binade
    _ ≤ nearestPlace num den := by
      rw [nearestPlace, Nat.add_assoc]
      exact Nat.le_add_right ..

/-- A positive number lies between the powers of ten that its numeral tells by its length. -/
theorem pow_length_numeral {n : Nat} (positive : 0 < n) :
    10 ^ ((Decimal.numeral n).length - 1) ≤ n ∧ n < 10 ^ (Decimal.numeral n).length := by
  have some : 0 < (Decimal.numeral n).length :=
    List.length_pos_iff.mpr (by simp [Decimal.numeral, Nat.toDigits_ne_nil])
  refine ⟨?_, (Nat.length_toDigits_le_iff (by decide) some).mp (Nat.le_refl _)⟩
  by_cases one : (Decimal.numeral n).length = 1
  · rw [one]
    exact positive
  · refine Nat.le_of_not_lt fun less => ?_
    have shorter := (Nat.length_toDigits_le_iff (by decide) (by omega)).mpr less
    rw [← Decimal.numeral] at shorter
    omega

/-- A fraction that begins far behind the point is nearest to zero. -/
theorem nearestPlace_fraction {digits length k : Nat} (below : digits < 10 ^ length)
    (far : length + 401 ≤ k) : nearestPlace digits (10 ^ k) = 0 := by
  obtain ⟨a, -, small, (units : unitsPerOne = 2 ^ a)⟩ := exists_unitsPerOne
  obtain ⟨m, rfl⟩ := Nat.exists_eq_add_of_le (Nat.le_of_add_right_le far)
  apply nearestPlace_eq_zero
  calc 2 * (digits * unitsPerOne)
    _ = digits * 2 ^ (a + 1) := by rw [units, Nat.pow_succ, Nat.mul_comm 2, Nat.mul_assoc]
    _ < 10 ^ length * 2 ^ (a + 1) := Nat.mul_lt_mul_of_pos_right below (Nat.two_pow_pos _)
    _ ≤ 10 ^ length * 2 ^ (3 * m) :=
      Nat.mul_le_mul_left _ (Nat.pow_le_pow_right (by decide) (by omega))
    _ ≤ 10 ^ length * 10 ^ m := Nat.mul_le_mul_left _ (two_pow_le_ten_pow m)
    _ = 10 ^ (length + m) := (Nat.pow_add ..).symm

/-- A decimal that begins far in front of the point is beyond the finite numbers. -/
theorem placeLimit_le_nearestPlace_scaled {digits length : Nat} {exponent : Int}
    (above : 10 ^ (length - 1) ≤ digits) (far : 400 < length + exponent) (some : 0 < length) :
    placeLimit ≤ nearestPlace (digits * 10 ^ exponent.toNat) (10 ^ (-exponent).toNat) := by
  refine placeLimit_le_nearestPlace (k := (length - 1 + exponent).toNat) (Nat.pow_pos (by decide))
    (by omega) ?_
  calc 10 ^ (length - 1 + exponent).toNat * 10 ^ (-exponent).toNat
    _ = 10 ^ (length - 1) * 10 ^ exponent.toNat := by
      rw [← Nat.pow_add, ← Nat.pow_add]
      congr 1
      omega
    _ ≤ digits * 10 ^ exponent.toNat := Nat.mul_le_mul_right _ above

/-- The number nearest to a decimal is found whether or not its exponent is far from zero. -/
theorem ofDecimal_eq_nearest (negative : Bool) (digits : Nat) (exponent : Int) :
    ofDecimal negative digits exponent =
      nearest negative (digits * 10 ^ exponent.toNat) (10 ^ (-exponent).toNat) := by
  simp only [ofDecimal]
  split
  · next near =>
      have place : nearestPlace (digits * 10 ^ exponent.toNat) (10 ^ (-exponent).toNat) = 0 := by
        rcases Nat.eq_zero_or_pos digits with rfl | positive
        · rw [Nat.zero_mul]
          have positive : 0 < 10 ^ (-exponent).toNat := Nat.pow_pos (by decide)
          exact nearestPlace_eq_zero (by rwa [Nat.zero_mul, Nat.mul_zero])
        · simp only [Bool.or_eq_true, decide_eq_true_eq] at near
          have whole : exponent.toNat = 0 := by omega
          rw [whole, Nat.pow_zero, Nat.mul_one]
          exact nearestPlace_fraction (pow_length_numeral positive).2 (by omega)
      have finite : 0 < placeLimit := by decide
      simp [nearest, place, zero, finite]
  · split
    · next near large =>
        simp only [Bool.or_eq_true, decide_eq_true_eq, not_or] at near
        have positive := Nat.pos_of_ne_zero near.1
        have some : 0 < (Decimal.numeral digits).length :=
          List.length_pos_iff.mpr (by simp [Decimal.numeral, Nat.toDigits_ne_nil])
        have place := placeLimit_le_nearestPlace_scaled (pow_length_numeral positive).1 large some
        rw [nearest, dif_neg (Nat.not_lt_of_le place)]
    · rfl

end Binary64

namespace Reading

/-- A decimal is read as the binary64 number nearest to it, if that is finite, and nothing else is
read. -/
theorem decimal?_eq_some {cs : List Char} {x : Binary64} :
    decimal? cs = some x ↔
      ∃ negative digits exponent, IsDecimal negative digits exponent cs ∧
        Binary64.nearest negative (digits * 10 ^ exponent.toNat) (10 ^ (-exponent).toNat) =
          some x := by
  simp only [← Binary64.ofDecimal_eq_nearest]
  constructor
  · intro read
    have signed := signed_sign cs
    obtain ⟨mantissa, pointed, digits, parts⟩ := mantissa_fraction (sign cs).2
    rw [parts] at signed
    simp only [decimal?] at read
    split at read
    · cases read
    · next some =>
        split at read
        · cases read
        · next exponent scaled =>
            refine ⟨_, _, _, .mk ?_ digits pointed (exponent?_eq_some.mp scaled) signed, read⟩
            simpa [Bool.and_eq_true, List.append_eq_nil_iff] using some
  · rintro ⟨negative, digits, exponent, ⟨some, isDigits, pointed, scaled, signed⟩, number⟩
    obtain ⟨before, after, parts, rfl, rfl⟩ := fraction_mantissa isDigits pointed scaled
    have nonempty : (before.isEmpty && after.isEmpty) = false := by
      simpa [List.append_eq_nil_iff, ← Bool.not_eq_true] using some
    simp only [decimal?, sign_of_signed some isDigits pointed signed, parts, nonempty,
      Bool.false_eq_true, if_false, exponent?_eq_some.mpr scaled]
    exact number

end Reading

end FilterSql
