import FilterSql.Json.Printer
import FilterSql.Json.Source
import FilterSql.Proofs.Integers
import FilterSql.Proofs.Numerals
import Mathlib.Data.List.TakeWhile

/-!
Literals that are written are read back.

A string is read back from what stands for it between quotes (`stringLiteral_quote`), and an integer
of sixty-four bits from its numeral (`readsBack_integer`). A number is read alike at the end of a
text and in front of a character that no number goes on with (`numberLiteral_append`).
-/

namespace FilterSql

namespace Json

/-! ### Strings -/

theorem hexValues?_hexDigit : ∀ n : Fin 32,
    hexValues? '0' '0' (hexDigit (n / 16)) (hexDigit (n % 16)) = some n.val := by
  decide

/-- The piece that an escaped character is read as. -/
def escapePiece (c : Char) : Nat ⊕ Char :=
  if c.toNat < 0x20 ∧ c ∉ ['\x08', '\x0c', '\n', '\r', '\t'] then .inl c.toNat else .inr c

/-- An escaped character is read as its piece. -/
theorem stringPieces_escapeChar (c : Char) (cs : List Char) :
    stringPieces (escapeChar c ++ cs) =
      (stringPieces cs).map fun (pieces, after) => (escapePiece c :: pieces, after) := by
  unfold escapeChar
  split_ifs with quote backslash control b f n r t
  · subst quote; rfl
  · subst backslash; rfl
  · subst b; rfl
  · subst f; rfl
  · subst n; rfl
  · subst r; rfl
  · subst t; rfl
  · have value : hexValues? '0' '0' (hexDigit (c.toNat / 16)) (hexDigit (c.toNat % 16)) =
        some c.toNat := hexValues?_hexDigit ⟨c.toNat, control⟩
    have piece : escapePiece c = .inl c.toNat := if_pos ⟨control, by simp [*]⟩
    simp only [List.cons_append, List.nil_append, stringPieces, value, piece]
  · have piece : escapePiece c = .inr c := if_neg fun ⟨less, _⟩ => control less
    rw [List.singleton_append, stringPieces.eq_def]
    split
    · next same => cases same
    · next same => exact absurd (List.cons.inj same).1 quote
    · next same => exact absurd (List.cons.inj same).1 backslash
    · next same => exact absurd (List.cons.inj same).1 backslash
    · next same =>
        obtain ⟨rfl, rfl⟩ := List.cons.inj same
        rw [if_neg control, piece]

/-- A piece stands for the character that was escaped. -/
theorem pairUp_escapePiece (c : Char) (pieces : List (Nat ⊕ Char)) :
    pairUp (escapePiece c :: pieces) = (pairUp pieces).map (c :: ·) := by
  unfold escapePiece
  split
  · next control =>
      have high : isHighSurrogate c.toNat = false := by simp [isHighSurrogate]; omega
      have low : isLowSurrogate c.toNat = false := by simp [isLowSurrogate]; omega
      rw [pairUp.eq_def]
      simp only [high, low, Bool.false_eq_true, if_false, Char.ofNat_toNat]
  · rw [pairUp]

theorem stringPieces_escaped (cs rest : List Char) :
    stringPieces (cs.flatMap escapeChar ++ '"' :: rest) = some (cs.map escapePiece, rest) := by
  induction cs with
  | nil => rfl
  | cons c cs ih =>
      rw [List.flatMap_cons, List.append_assoc, stringPieces_escapeChar, ih]
      rfl

theorem pairUp_escaped (cs : List Char) : pairUp (cs.map escapePiece) = some cs := by
  induction cs with
  | nil => rfl
  | cons c cs ih => rw [List.map_cons, pairUp_escapePiece, ih]; rfl

/-- A string between quotes is read back, whatever follows it. -/
theorem stringLiteral_quote (s : String) :
    ∃ body, (quote s).toList = '"' :: body ∧
      ∀ rest, stringLiteral (body ++ rest) = some (some s, rest) := by
  refine ⟨s.toList.flatMap escapeChar ++ ['"'], ?_, fun rest => ?_⟩
  · rw [quote, String.toList_ofList]
    rfl
  · rw [List.append_assoc, List.singleton_append]
    simp only [stringLiteral, stringPieces_escaped, Option.map_some, pairUp_escaped,
      String.ofList_toList]

/-! ### Numbers -/

/-- A number literal behind its sign. -/
def magnitudeLiteral (negative : Bool) (cs : List Char) : Option (Option Number × List Char) :=
  let whole := cs.takeWhile Char.isDigit
  if whole.isEmpty || (whole.head? == some '0' && whole.length != 1) then none
  else
    (fractionPart (cs.dropWhile Char.isDigit)).bind fun (fraction, rest) =>
      (exponentPart rest).bind fun (exponent, rest) =>
        match fraction, exponent with
        | none, none => some (wholeNumber negative whole, rest)
        | _, _ =>
          some (scaledNumber negative whole (fraction.getD []) (exponent.getD 0), rest)

theorem numberLiteral_minus (cs : List Char) :
    numberLiteral ('-' :: cs) = magnitudeLiteral true cs := rfl

theorem numberLiteral_plain {cs : List Char} (plain : ∀ rest, cs ≠ '-' :: rest) :
    numberLiteral cs = magnitudeLiteral false cs := by
  unfold numberLiteral
  split
  · next sign =>
      split at sign
      · exact absurd rfl (plain _)
      · cases sign
        rfl

theorem fractionPart_plain {cs : List Char} (plain : ∀ rest, cs ≠ '.' :: rest) :
    fractionPart cs = some (none, cs) := by
  unfold fractionPart
  split
  · exact absurd rfl (plain _)
  · rfl

/-- A text that does not go on with a number. -/
def EndsNumber (rest : List Char) : Prop :=
  ∀ c ∈ rest.head?, c.isDigit = false ∧ c ∉ ['.', 'e', 'E', '-', '+']

theorem endsNumber_cons {c : Char} (other : c.isDigit = false ∧ c ∉ ['.', 'e', 'E', '-', '+'])
    (rest : List Char) : EndsNumber (c :: rest) := by
  rintro _ ⟨⟩
  exact other

section

variable {rest : List Char} (ends : EndsNumber rest)

include ends

theorem takeWhile_isDigit_append (cs : List Char) :
    (cs ++ rest).takeWhile Char.isDigit = cs.takeWhile Char.isDigit := by
  induction cs with
  | nil =>
      cases rest with
      | nil => rfl
      | cons c rest => simp [(ends c rfl).1]
  | cons c cs ih => simp [List.takeWhile_cons, ih]

theorem dropWhile_isDigit_append (cs : List Char) :
    (cs ++ rest).dropWhile Char.isDigit = cs.dropWhile Char.isDigit ++ rest := by
  induction cs with
  | nil =>
      cases rest with
      | nil => rfl
      | cons c rest => simp [(ends c rfl).1]
  | cons c cs ih =>
      simp only [List.cons_append, List.dropWhile_cons, ih]
      split <;> rfl

theorem fractionPart_append (cs : List Char) : fractionPart (cs ++ rest) =
    (fractionPart cs).map fun (part, after) => (part, after ++ rest) := by
  cases cs with
  | nil =>
      have plain : ∀ cs, rest ≠ '.' :: cs := by
        rintro cs rfl
        simpa using (ends '.' rfl).2
      rw [List.nil_append, fractionPart_plain plain]
      rfl
  | cons c cs =>
      by_cases point : c = '.'
      · subst point
        rw [List.cons_append, fractionPart, fractionPart, takeWhile_isDigit_append ends,
          dropWhile_isDigit_append ends]
        dsimp only
        split <;> rfl
      · rw [List.cons_append, fractionPart_plain (by simp [point]),
          fractionPart_plain (by simp [point])]
        rfl

theorem sign_append (cs : List Char) :
    Reading.sign (cs ++ rest) = ((Reading.sign cs).1, (Reading.sign cs).2 ++ rest) := by
  cases cs with
  | nil =>
      rw [List.nil_append]
      unfold Reading.sign
      split
      · next cs => simpa using (ends '-' rfl).2
      · next cs => simpa using (ends '+' rfl).2
      · rfl
  | cons c cs =>
      rw [List.cons_append]
      unfold Reading.sign
      split <;> simp_all

theorem exponentPart_append (cs : List Char) : exponentPart (cs ++ rest) =
    (exponentPart cs).map fun (part, after) => (part, after ++ rest) := by
  cases cs with
  | nil =>
      cases rest with
      | nil => rfl
      | cons c rest =>
          have other : (c == 'e' || c == 'E') = false := by
            have apart := (ends c rfl).2
            simp only [List.mem_cons, not_or] at apart
            simp [apart]
          rw [List.nil_append, exponentPart, other]
          rfl
  | cons c cs =>
      rw [List.cons_append, exponentPart, exponentPart, sign_append ends]
      dsimp only
      rw [takeWhile_isDigit_append ends, dropWhile_isDigit_append ends]
      split_ifs <;> rfl

theorem magnitudeLiteral_append (negative : Bool) (cs : List Char) :
    magnitudeLiteral negative (cs ++ rest) =
      (magnitudeLiteral negative cs).map fun (n, after) => (n, after ++ rest) := by
  simp only [magnitudeLiteral, takeWhile_isDigit_append ends, dropWhile_isDigit_append ends,
    fractionPart_append ends]
  split
  · rfl
  cases fractionPart (cs.dropWhile Char.isDigit) with
  | none => rfl
  | some part =>
      simp only [Option.map_some, Option.bind_some, exponentPart_append ends]
      cases exponentPart part.2 with
      | none => rfl
      | some scale =>
          simp only [Option.map_some, Option.bind_some]
          split <;> rfl

/-- A number is read in front of a text that does not go on with it as it is read at the end. -/
theorem numberLiteral_append (cs : List Char) : numberLiteral (cs ++ rest) =
    (numberLiteral cs).map fun (n, after) => (n, after ++ rest) := by
  cases cs with
  | nil =>
      have plain : ∀ cs, rest ≠ '-' :: cs := by
        rintro cs rfl
        simpa using (ends '-' rfl).2
      have none := magnitudeLiteral_append ends false []
      rw [List.nil_append] at none ⊢
      rw [numberLiteral_plain plain, none]
      rfl
  | cons c cs =>
      by_cases minus : c = '-'
      · subst minus
        exact magnitudeLiteral_append ends true cs
      · rw [numberLiteral_plain (by simp [minus]), numberLiteral_plain (by simp [minus]),
          magnitudeLiteral_append ends]

end

/-- A number literal begins with a sign or a digit. -/
theorem numberLiteral_head {cs : List Char} {n : Option Number × List Char}
    (read : numberLiteral cs = some n) :
    ∃ c rest, cs = c :: rest ∧ (c = '-' ∨ c.isDigit = true) := by
  cases cs with
  | nil => cases read
  | cons c rest =>
      refine ⟨c, rest, rfl, ?_⟩
      by_cases minus : c = '-'
      · exact .inl minus
      · right
        by_contra other
        rw [numberLiteral_plain (by simp [minus])] at read
        simp [magnitudeLiteral, other] at read

/-! ### Integers -/

/-- The numeral of a positive number has no zero in front. -/
theorem head?_numeral {n : Nat} {cs : List Char} (zero : Decimal.numeral n = '0' :: cs) :
    cs = [] := by
  by_contra some
  have digits : ∀ c ∈ cs, c.isDigit = true := by
    intro c mem
    have mem : c ∈ Decimal.numeral n := by simp [zero, mem]
    exact Nat.isDigit_of_mem_toDigits (by decide) (by decide) mem
  obtain ⟨zeros, m, rfl⟩ := Reading.exists_padded some digits
  have same := Reading.natural_padded 0 n
  have value := Reading.natural_padded (zeros + 1) m
  rw [Reading.padded, List.replicate_succ, List.cons_append, ← Reading.padded, ← zero] at value
  rw [Reading.padded, List.replicate_zero, List.nil_append, value] at same
  subst same
  have length := congrArg List.length zero
  simp [Reading.padded] at length
  omega

theorem magnitudeLiteral_numeral (negative : Bool) (n : Nat) :
    magnitudeLiteral negative (Decimal.numeral n) =
      some (wholeNumber negative (Decimal.numeral n), []) := by
  have digits : ∀ c ∈ Decimal.numeral n, c.isDigit = true := fun c mem =>
    Nat.isDigit_of_mem_toDigits (by decide) (by decide) mem
  have whole : (Decimal.numeral n).takeWhile Char.isDigit = Decimal.numeral n :=
    List.takeWhile_eq_self_iff.mpr digits
  have none : (Decimal.numeral n).dropWhile Char.isDigit = [] :=
    List.dropWhile_eq_nil_iff.mpr digits
  obtain ⟨c, cs, numeral⟩ := List.exists_cons_of_ne_nil (l := Decimal.numeral n) Nat.toDigits_ne_nil
  have proper : ((Decimal.numeral n).isEmpty ||
      ((Decimal.numeral n).head? == some '0' && (Decimal.numeral n).length != 1)) = false := by
    by_cases zero : c = '0'
    · subst zero
      simp [numeral, head?_numeral numeral]
    · simp [numeral, zero]
  simp only [magnitudeLiteral, whole, none, proper]
  rfl

theorem floating_of_scaledNumber {negative : Bool} {whole fraction : List Char} {exponent : Int}
    {n : Number} (read : scaledNumber negative whole fraction exponent = some n) :
    ∃ x, n = .floating x := by
  unfold scaledNumber at read
  simp only [Option.bind_eq_bind, Option.bind_eq_some_iff, Option.pure_def, Option.some.injEq]
    at read
  obtain ⟨_, _, x, _, rfl⟩ := read
  exact ⟨_, rfl⟩

/-- An integer that is read fits sixty-four bits. -/
theorem held_wholeNumber {negative : Bool} {digits : List Char} {n : Int}
    (read : wholeNumber negative digits = some (.integer n)) : Number.Held n := by
  simp only [wholeNumber] at read
  split at read
  · split at read
    · next fits =>
        rw [Bool.and_eq_true, decide_eq_true_eq, decide_eq_true_eq] at fits
        obtain rfl := Number.integer.inj (Option.some.inj read)
        exact ⟨by omega, by simp only [Word64.count]; omega⟩
    · obtain ⟨x, same⟩ := floating_of_scaledNumber read
      cases same
  · split at read
    · next fits =>
        obtain rfl := Number.integer.inj (Option.some.inj read)
        exact ⟨by omega, by omega⟩
    · obtain ⟨x, same⟩ := floating_of_scaledNumber read
      cases same

theorem held_magnitudeLiteral {negative : Bool} {cs after : List Char} {n : Int}
    (read : magnitudeLiteral negative cs = some (some (.integer n), after)) : Number.Held n := by
  unfold magnitudeLiteral at read
  dsimp only at read
  split at read
  · cases read
  obtain ⟨⟨fraction, rest⟩, -, read⟩ := Option.bind_eq_some_iff.mp read
  obtain ⟨⟨exponent, rest⟩, -, read⟩ := Option.bind_eq_some_iff.mp read
  dsimp only at read
  split at read
  · exact held_wholeNumber (Prod.mk.inj (Option.some.inj read)).1
  · obtain ⟨x, same⟩ := floating_of_scaledNumber (Prod.mk.inj (Option.some.inj read)).1
    cases same

theorem held_numberLiteral {cs after : List Char} {n : Int}
    (read : numberLiteral cs = some (some (.integer n), after)) : Number.Held n := by
  by_cases minus : ∃ rest, cs = '-' :: rest
  · obtain ⟨rest, rfl⟩ := minus
    exact held_magnitudeLiteral read
  · rw [numberLiteral_plain (not_exists.mp minus)] at read
    exact held_magnitudeLiteral read

end Json

/-- A number is read back from what is written for it. -/
def Number.ReadsBack (n : Number) : Prop :=
  Json.numberLiteral (Json.writeNumber n).toList = some (some n, [])

instance (n : Number) : Decidable n.ReadsBack := inferInstanceAs (Decidable (_ = _))

/-- A binary64 number need not be: the two roundings of the reader may lead to its neighbour. -/
theorem Number.exists_not_readsBack : ∃ x, ¬ Number.ReadsBack (.floating x) := by
  -- written as `264042116423.64166`
  refine ⟨⟨false, 4777964137456325154, by decide⟩, ?_⟩
  decide +kernel

open Json in
/-- Integers of sixty-four bits are read back. -/
theorem Number.Held.readsBack {n : Int} (held : Number.Held n) : Number.ReadsBack (.integer n) := by
  have numeral (k : Nat) : (toString k).toList = Decimal.numeral k := Nat.toList_repr
  have value (k : Nat) : Reading.natural (Decimal.numeral k) = k := Reading.natural_padded 0 k
  have bounds := held
  simp only [Number.Held, Word64.signedLimit, Word64.count] at bounds
  by_cases negative : n < 0
  · have positive : 0 < n.natAbs := by omega
    have below : n.natAbs ≤ Word64.signedLimit := by
      simp only [Word64.signedLimit]
      omega
    have whole : wholeNumber true (Decimal.numeral n.natAbs) = some (.integer n) := by
      rw [wholeNumber, value, if_pos rfl, if_pos (by simp [positive, below]),
        show -(n.natAbs : Int) = n by omega]
    have written : (writeNumber (.integer n)).toList = '-' :: Decimal.numeral n.natAbs := by
      rw [writeNumber, if_pos negative, String.toList_append, numeral]
      rfl
    rw [Number.ReadsBack, written, numberLiteral_minus, magnitudeLiteral_numeral, whole]
  · have fits : n.natAbs < Word64.count := by
      simp only [Word64.count]
      omega
    have whole : wholeNumber false (Decimal.numeral n.natAbs) = some (.integer n) := by
      rw [wholeNumber, value, if_neg Bool.false_ne_true, if_pos fits,
        show (n.natAbs : Int) = n by omega]
    have written : (writeNumber (.integer n)).toList = Decimal.numeral n.natAbs := by
      rw [writeNumber, if_neg negative, numeral]
    have plain : ∀ rest, Decimal.numeral n.natAbs ≠ '-' :: rest := by
      intro rest minus
      have mem : '-' ∈ Decimal.numeral n.natAbs := by simp [minus]
      cases (Nat.isDigit_of_mem_toDigits (by decide) (by decide) mem : '-'.isDigit = true)
    rw [Number.ReadsBack, written, numberLiteral_plain plain, magnitudeLiteral_numeral, whole]

end FilterSql
