import FilterSql.Compile.Leaf
import Mathlib.Data.List.Forall2

/-!
Lists between commas.

An operator that takes a list also takes a text with the values between commas, each read as the
column's type where that is possible. `Leaf.Part` says which texts stand for which item of an array:
on numeric columns the numerals of an integer of sixty-four bits (`Reading.Numeral`) and on boolean
columns the two words, with blanks around them or without; on all other columns the texts without
commas. Joined by commas they are the same operand as the array (`Leaf.predicate_commas`).
-/

namespace FilterSql

namespace Reading

/-- The digits of a number behind zeros. -/
def padded (zeros n : Nat) : List Char := List.replicate zeros '0' ++ Decimal.numeral n

/-- The decimal numerals of an integer: digits, possibly behind zeros, and a sign in front of them,
which a number that is not negative may do without. -/
inductive Numeral : Int → List Char → Prop where
  | bare (zeros n : Nat) : Numeral n (padded zeros n)
  | plus (zeros n : Nat) : Numeral n ('+' :: padded zeros n)
  | minus (zeros n : Nat) : Numeral (-n) ('-' :: padded zeros n)

theorem isDigit_of_mem_padded {zeros n : Nat} {c : Char} (mem : c ∈ padded zeros n) :
    c.isDigit = true := by
  rcases List.mem_append.mp mem with mem | mem
  · rw [List.eq_of_mem_replicate mem]
    rfl
  · exact Nat.isDigit_of_mem_toDigits (by decide) (by decide) mem

theorem padded_ne_nil (zeros n : Nat) : padded zeros n ≠ [] := by
  simp [padded, Decimal.numeral, Nat.toDigits_ne_nil]

/-- Zeros in front of the digits of a number change nothing. -/
theorem natural_padded (zeros n : Nat) : natural (padded zeros n) = n := by
  have value : natural (Decimal.numeral n) = n :=
    Nat.ofDigitChars_toDigits (by decide) (by decide)
  induction zeros with
  | zero => exact value
  | succ zeros ih =>
      rw [padded, List.replicate_succ, List.cons_append, ← padded]
      exact ih

theorem sign_padded (zeros n : Nat) : sign (padded zeros n) = (false, padded zeros n) := by
  obtain ⟨c, cs, chars⟩ := List.exists_cons_of_ne_nil (padded_ne_nil zeros n)
  have digit : c.isDigit = true := isDigit_of_mem_padded (chars ▸ List.mem_cons_self)
  rw [chars]
  unfold sign
  split
  · next first => cases first; cases digit
  · next first => cases first; cases digit
  · rfl

/-- A numeral is read as its integer. -/
theorem integer?_numeral {n : Int} {cs : List Char} (written : Numeral n cs) :
    integer? cs = some n := by
  have digits (zeros k : Nat) :
      ((padded zeros k).isEmpty || !(padded zeros k).all Char.isDigit) = false := by
    have all : (padded zeros k).all Char.isDigit = true :=
      List.all_eq_true.mpr fun c mem => isDigit_of_mem_padded mem
    simp [all, padded_ne_nil]
  cases written with
  | bare zeros n => simp [integer?, sign_padded, digits, natural_padded]
  | plus zeros n => simp [integer?, sign, digits, natural_padded]
  | minus zeros n => simp [integer?, sign, digits, natural_padded]

theorem int64?_numeral {n : Int} {cs : List Char} (written : Numeral n cs)
    (least : -(Word64.signedLimit : Int) ≤ n) (greatest : n < Word64.signedLimit) :
    int64? cs = some n := by
  simp [int64?, integer?_numeral written, least, greatest]

theorem proper_of_isDigit {c : Char} (digit : c.isDigit = true) :
    Text.isBlank c = false ∧ c ≠ ',' := by
  constructor
  · have bounds : 48 ≤ c.toNat ∧ c.toNat ≤ 57 := by
      simpa [Char.isDigit, UInt32.le_iff_toNat_le] using digit
    simp only [Text.isBlank, Bool.or_eq_false_iff, Bool.and_eq_false_iff, beq_eq_false_iff_ne,
      decide_eq_false_iff_not]
    omega
  · rintro rfl
    cases digit

/-- A numeral consists of digits and signs, which are neither blanks nor commas. -/
theorem Numeral.proper {n : Int} {cs : List Char} (written : Numeral n cs) :
    ∀ c ∈ cs, Text.isBlank c = false ∧ c ≠ ',' := by
  have digits (zeros k : Nat) : ∀ c ∈ padded zeros k, Text.isBlank c = false ∧ c ≠ ',' :=
    fun c mem => proper_of_isDigit (isDigit_of_mem_padded mem)
  cases written with
  | bare zeros n => exact digits zeros n
  | plus zeros n => exact List.forall_mem_cons.mpr ⟨by decide, digits zeros n⟩
  | minus zeros n => exact List.forall_mem_cons.mpr ⟨by decide, digits zeros n⟩

end Reading

namespace Leaf

/-! ### The parts of a list -/

/-- Whether a text has given characters in it and only blanks around them. -/
inductive Surrounded (inner : List Char) (s : String) : Prop where
  | mk (before after : List Char) (chars : s.toList = before ++ inner ++ after)
      (leading : ∀ c ∈ before, Text.isBlank c = true)
      (trailing : ∀ c ∈ after, Text.isBlank c = true)

/-- The texts that stand for an item of an array between commas, on columns of a type. -/
inductive Part : LocalType → Json → String → Prop where
  | number {n : Int} {numeral : List Char} {s : String} (written : Reading.Numeral n numeral)
      (least : -(Word64.signedLimit : Int) ≤ n) (greatest : n < Word64.signedLimit)
      (around : Surrounded numeral s) : Part .numeric (.ofInt n) s
  | yes {s : String} (around : Surrounded "true".toList s) : Part .boolean (.bool true) s
  | no {s : String} (around : Surrounded "false".toList s) : Part .boolean (.bool false) s
  | text {localType : LocalType} (notNumeric : localType ≠ .numeric)
      (notBoolean : localType ≠ .boolean) {s : String} (plain : ',' ∉ s.toList) :
      Part localType (.string s) s

theorem not_isBlank_of_any {cs : List Char} (none : cs.any Text.isBlank = false) :
    ∀ c ∈ cs, Text.isBlank c = false := by
  simpa using none

theorem Surrounded.trim {inner : List Char} {s : String} (around : Surrounded inner s)
    (proper : ∀ c ∈ inner, Text.isBlank c = false) : Text.trim s.toList = inner := by
  obtain ⟨before, after, chars, leading, trailing⟩ := around
  rw [chars]
  exact Text.trim_surrounded leading trailing proper

/-- A comma is no blank, so it does not come in with blanks. -/
theorem Surrounded.plain {inner : List Char} {s : String} (around : Surrounded inner s)
    (proper : ',' ∉ inner) : ',' ∉ s.toList := by
  obtain ⟨before, after, chars, leading, trailing⟩ := around
  have notBlank : ¬ Text.isBlank ',' = true := by decide
  simp only [chars, List.mem_append, not_or]
  exact ⟨⟨fun mem => notBlank (leading _ mem), proper⟩, fun mem => notBlank (trailing _ mem)⟩

variable {localType : LocalType} {item : Json} {s : String}

theorem Part.plain (part : Part localType item s) : ',' ∉ s.toList := by
  cases part with
  | number written _ _ around => exact around.plain fun mem => (written.proper _ mem).2 rfl
  | yes around => exact around.plain (by decide)
  | no around => exact around.plain (by decide)
  | text _ _ plain => exact plain

/-- A part is read as the value of its item. -/
theorem Part.coercePart_eq (part : Part localType item s) :
    coercePart localType s = SqlValue.ofJson item := by
  cases part with
  | number written least greatest around =>
      have trimmed := around.trim fun c mem => (written.proper c mem).1
      simp [coercePart, trimmed, Reading.int64?_numeral written least greatest, Json.ofInt,
        SqlValue.ofJson, SqlValue.ofNumber, greatest]
  | yes around =>
      have trimmed := around.trim (not_isBlank_of_any (by decide))
      simp [coercePart, trimmed, SqlValue.ofJson]
  | no around =>
      have trimmed := around.trim (not_isBlank_of_any (by decide))
      simp [coercePart, trimmed, SqlValue.ofJson]
  | text notNumeric notBoolean plain =>
      cases localType <;> first | exact absurd rfl notNumeric | exact absurd rfl notBoolean | rfl

/-- Items that are written as parts are no arrays. -/
theorem Part.itemValues_eq (part : Part localType item s) :
    itemValues item = [SqlValue.ofJson item] := by
  cases part <;> rfl

variable {items : List Json} {parts : List String}

theorem plain_of_mem (written : List.Forall₂ (Part localType) items parts) :
    ∀ s ∈ parts, ',' ∉ s.toList := by
  induction written with
  | nil => simp
  | cons part _ ih => exact List.forall_mem_cons.mpr ⟨part.plain, ih⟩

/-- Parts between commas have the values of their items, one by one. -/
theorem listValues_commas (some : items ≠ [])
    (written : List.Forall₂ (Part localType) items parts) :
    listValues localType (.string (Text.join "," parts)) = items.map SqlValue.ofJson := by
  have some' : parts ≠ [] := by
    rintro rfl
    exact some (List.forall₂_nil_right_iff.mp written)
  have cut : Text.split ',' (Text.join "," parts) = parts :=
    Text.split_join ',' some' (plain_of_mem written)
  rw [listValues, cut]
  clear some some' cut
  induction written with
  | nil => rfl
  | cons part _ ih => rw [List.map_cons, List.map_cons, part.coercePart_eq, ih]

/-- An array of items that are written as parts has their values, one by one. -/
theorem listValues_items (written : List.Forall₂ (Part localType) items parts) :
    listValues localType (.array items) = items.map SqlValue.ofJson := by
  rw [listValues]
  induction written with
  | nil => rfl
  | cons part _ ih =>
      rw [List.flatMap_cons, part.itemValues_eq, ih]
      rfl

/-- The operators that take a list. -/
inductive TakesList : Operator → Prop where
  | isIn : TakesList .isIn
  | notIn : TakesList .notIn
  | between : TakesList .between
  | notBetween : TakesList .notBetween

/-- An operator that takes a list makes the same of the texts of items between commas as of the array
of the items, a predicate or an error, since both have the values of the items in order. -/
theorem predicate_commas {operator : Operator} (takesList : TakesList operator) (some : items ≠ [])
    (written : List.Forall₂ (Part localType) items parts) (column : ColumnRef) :
    listValues localType (.string (Text.join "," parts)) = items.map SqlValue.ofJson ∧
    predicate column localType operator (.string (Text.join "," parts)) =
      predicate column localType operator (.array items) := by
  have values := listValues_commas some written
  have same := values.trans (listValues_items written).symm
  refine ⟨values, ?_⟩
  cases takesList with
  | isIn | notIn => simp only [predicate, same]
  | between | notBetween => simp only [predicate, range, same]

/-- The least integer and a small one with a sign, zeros and blanks around it are the bounds of a
range. -/
theorem predicate_commas_prices :
    TakesList .notBetween ∧
    List.Forall₂ (Part .numeric) [.ofInt (-9223372036854775808), .ofInt 7]
      ["-9223372036854775808", " +007\t"] ∧
    predicate ⟨"books", "price"⟩ .numeric .notBetween (.string "-9223372036854775808, +007\t") =
      .ok (.between ⟨"books", "price"⟩ (.int (-9223372036854775808)) (.int 7) true) := by
  have least : Part .numeric (.ofInt (-9223372036854775808)) "-9223372036854775808" :=
    .number (.minus 0 9223372036854775808) (by decide) (by decide)
      (.mk [] [] (by decide +kernel) (by simp) (by simp))
  have small : Part .numeric (.ofInt 7) " +007\t" :=
    .number (.plus 2 7) (by decide) (by decide)
      (.mk [' '] ['\t'] (by decide +kernel) (List.all_eq_true.mp (by decide))
        (List.all_eq_true.mp (by decide)))
  have written : List.Forall₂ (Part .numeric) [.ofInt (-9223372036854775808), .ofInt 7]
      ["-9223372036854775808", " +007\t"] := .cons least (.cons small .nil)
  have same := (predicate_commas .notBetween (by simp) written ⟨"books", "price"⟩).2
  exact ⟨.notBetween, written, same.trans rfl⟩

end Leaf

end FilterSql
