import FilterSql.Proofs.Alias.Letters
import Mathlib.Algebra.Group.Nat.Defs

/-!
The order of numbers in letters.

Texts of one length are in the order of the numbers that they read as (`lt_iff_ofLetters_lt`). A
code is as long as its number needs and no shorter than the least number of letters
(`length_encode_le_iff`), and one that is longer begins with no padding (`head?_encode`). So the
codes are in the order of their numbers if a shorter one goes before a longer one
(`encode_ordered`).
-/

namespace FilterSql

namespace AliasTable

/-! ### Letters as digits -/

theorem toNat_of_isLower {c : Char} (lower : c.isLower = true) :
    97 ≤ c.toNat ∧ c.toNat ≤ 122 := by
  obtain ⟨low, high⟩ := Bool.and_eq_true_iff.mp lower
  exact ⟨UInt32.le_iff_toNat_le.mp (of_decide_eq_true low),
    UInt32.le_iff_toNat_le.mp (of_decide_eq_true high)⟩

theorem digit_lt {c : Char} (lower : c.isLower = true) : digit c < 26 := by
  have bounds := toNat_of_isLower lower
  rw [digit]
  omega

/-- Letters are in the order of their digits. -/
theorem digit_lt_digit_iff {c d : Char} (lowerC : c.isLower = true) (lowerD : d.isLower = true) :
    digit c < digit d ↔ c < d := by
  have boundsC := toNat_of_isLower lowerC
  have boundsD := toNat_of_isLower lowerD
  have order : c < d ↔ c.toNat < d.toNat := Iff.rfl
  rw [order, digit, digit]
  omega

theorem eq_of_digit_eq {c d : Char} (lowerC : c.isLower = true) (lowerD : d.isLower = true)
    (same : digit c = digit d) : c = d := by
  have boundsC := toNat_of_isLower lowerC
  have boundsD := toNat_of_isLower lowerD
  rw [digit, digit] at same
  exact Char.toNat_inj.mp (by omega)

/-! ### Texts of one length -/

theorem ofLetters_cons (c : Char) (cs : List Char) :
    ofLetters (c :: cs) = digit c * 26 ^ cs.length + ofLetters cs := by
  have onward (n : Nat) : cs.foldl (fun n c => 26 * n + digit c) n =
      n * 26 ^ cs.length + ofLetters cs := by
    induction cs generalizing n with
    | nil => simp [ofLetters]
    | cons d cs ih =>
        rw [ofLetters, List.foldl_cons, List.foldl_cons, ih, ih (26 * 0 + digit d),
          List.length_cons, Nat.pow_succ']
        simp only [Nat.add_mul, Nat.mul_zero, Nat.zero_add, Nat.add_assoc, Nat.mul_comm 26 n,
          Nat.mul_assoc]
  rw [ofLetters, List.foldl_cons, onward, Nat.mul_zero, Nat.zero_add]

/-- A text reads as less than the first number that needs more letters. -/
theorem ofLetters_lt {cs : List Char} (lower : ∀ c ∈ cs, c.isLower = true) :
    ofLetters cs < 26 ^ cs.length := by
  induction cs with
  | nil => decide
  | cons c cs ih =>
      obtain ⟨first, rest⟩ := List.forall_mem_cons.mp lower
      calc ofLetters (c :: cs)
        _ = digit c * 26 ^ cs.length + ofLetters cs := ofLetters_cons c cs
        _ < digit c * 26 ^ cs.length + 26 ^ cs.length := Nat.add_lt_add_left (ih rest) _
        _ = (digit c + 1) * 26 ^ cs.length := (Nat.succ_mul ..).symm
        _ ≤ 26 * 26 ^ cs.length := Nat.mul_le_mul_right _ (digit_lt first)
        _ = 26 ^ (c :: cs).length := Nat.pow_succ'.symm

/-- Of two texts of one length the one with the smaller first letter reads as the smaller number. -/
theorem ofLetters_lt_of_digit_lt {c d : Char} {cs ds : List Char} (less : digit c < digit d)
    (lower : ∀ c ∈ cs, c.isLower = true) (same : cs.length = ds.length) :
    ofLetters (c :: cs) < ofLetters (d :: ds) := by
  calc ofLetters (c :: cs)
    _ = digit c * 26 ^ cs.length + ofLetters cs := ofLetters_cons c cs
    _ < digit c * 26 ^ cs.length + 26 ^ cs.length := Nat.add_lt_add_left (ofLetters_lt lower) _
    _ = (digit c + 1) * 26 ^ cs.length := (Nat.succ_mul ..).symm
    _ ≤ digit d * 26 ^ ds.length := same ▸ Nat.mul_le_mul_right _ less
    _ ≤ digit d * 26 ^ ds.length + ofLetters ds := Nat.le_add_right ..
    _ = ofLetters (d :: ds) := (ofLetters_cons d ds).symm

/-- Texts of one length are in the order of the numbers that they read as. -/
theorem lt_iff_ofLetters_lt {cs ds : List Char} (lowerC : ∀ c ∈ cs, c.isLower = true)
    (lowerD : ∀ d ∈ ds, d.isLower = true) (length : cs.length = ds.length) :
    cs < ds ↔ ofLetters cs < ofLetters ds := by
  -- The first letters decide, unless they are the same.
  induction cs generalizing ds with
  | nil =>
      obtain rfl := List.length_eq_zero_iff.mp length.symm
      simp
  | cons c cs ih =>
      obtain ⟨d, ds, rfl⟩ := List.exists_cons_of_length_eq_add_one length.symm
      obtain ⟨firstC, restC⟩ := List.forall_mem_cons.mp lowerC
      obtain ⟨firstD, restD⟩ := List.forall_mem_cons.mp lowerD
      have same : cs.length = ds.length := Nat.succ.inj length
      rw [List.cons_lt_cons_iff, ih restC restD same, ← digit_lt_digit_iff firstC firstD]
      rcases Nat.lt_trichotomy (digit c) (digit d) with less | equal | greater
      · exact iff_of_true (.inl less) (ofLetters_lt_of_digit_lt less restC same)
      · obtain rfl := eq_of_digit_eq firstC firstD equal
        rw [ofLetters_cons, ofLetters_cons, same]
        simp
      · have reverse := ofLetters_lt_of_digit_lt greater restD same.symm
        refine iff_of_false ?_ (Nat.lt_asymm reverse)
        rintro (less | ⟨rfl, -⟩)
        · exact Nat.lt_asymm less greater
        · exact Nat.lt_irrefl _ greater

/-! ### The length of a code -/

/-- A number has at most so many digits as the power of twenty-six that it is less than. -/
theorem length_lettersOnto_le_iff {fuel n k : Nat} (enough : n < fuel) (some : 0 < k) :
    (lettersOnto fuel n []).length ≤ k ↔ n < 26 ^ k := by
  induction fuel generalizing n k with
  | zero => omega
  | succ fuel ih =>
      obtain ⟨k, rfl⟩ := Nat.exists_eq_add_one.mpr some
      rw [lettersOnto]
      split
      · next small =>
          have first : 26 ^ 1 ≤ 26 ^ (k + 1) := Nat.pow_le_pow_right (by decide) (by omega)
          simp only [List.length_singleton]
          omega
      · next large =>
          have bounded : n / 26 < fuel := by omega
          rw [lettersOnto_append, List.length_append, List.length_singleton,
            Nat.add_le_add_iff_right, Nat.pow_succ, ← Nat.div_lt_iff_lt_mul (by decide)]
          cases k with
          | zero =>
              -- A quotient that is not zero has a digit.
              have value := ofLetters_lettersOnto bounded
              refine iff_of_false (fun none => ?_) (by omega)
              rw [List.length_eq_zero_iff.mp (Nat.le_zero.mp none)] at value
              have zero : ofLetters [] = 0 := rfl
              omega
          | succ k => exact ih bounded (Nat.succ_pos k)

theorem length_encode_le_iff {n k : Nat} (long : width ≤ k) :
    (encode n).length ≤ k ↔ n < 26 ^ k := by
  have some : 0 < k := Nat.lt_of_lt_of_le (by decide) long
  rw [← length_lettersOnto_le_iff (Nat.lt_add_one n) some, encode, String.length_ofList,
    List.length_append, List.length_replicate, letters]
  omega

/-- A code that is longer than the least number of letters begins with no padding. -/
theorem head?_encode {n : Nat} (long : width < (encode n).length) :
    (encode n).toList.head? ≠ some 'a' := by
  intro first
  obtain ⟨rest, whole⟩ := List.head?_eq_some_iff.mp first
  have length : (encode n).length = rest.length + 1 := by
    rw [← String.length_toList, whole, List.length_cons]
  -- Without its padding the code would be a letter shorter.
  have lower : ∀ c ∈ rest, c.isLower = true := fun c mem =>
    isLower_of_mem_encode n c (whole ▸ .tail _ mem)
  have value : ofLetters rest = n := by
    have zero : digit 'a' = 0 := rfl
    rw [← ofLetters_encode n, whole, ofLetters_cons, zero, Nat.zero_mul, Nat.zero_add]
  have small := ofLetters_lt lower
  rw [value, ← length_encode_le_iff (by omega)] at small
  omega

/-! ### The order of codes -/

/-- Codes of one length are in the order of their numbers. -/
theorem encode_lt_encode_iff {m n : Nat} (length : (encode m).length = (encode n).length) :
    encode m < encode n ↔ m < n := by
  have order := lt_iff_ofLetters_lt (isLower_of_mem_encode m) (isLower_of_mem_encode n)
    (by simpa only [String.length_toList] using length)
  rwa [ofLetters_encode, ofLetters_encode, ← String.lt_iff] at order

/-- A greater number has no shorter code. -/
theorem length_encode_mono {m n : Nat} (le : m ≤ n) : (encode m).length ≤ (encode n).length := by
  have long := width_le_length_encode n
  exact (length_encode_le_iff long).mpr
    (Nat.lt_of_le_of_lt le ((length_encode_le_iff long).mp (Nat.le_refl _)))

/-- Codes are different for different numbers and are in the order of the numbers, a shorter one
before a longer one and the others letter by letter. A code has five letters as long as there are
codes of five letters, then more, the first of which is not `a`. Its letters are the digits of its
number in base twenty-six. -/
theorem encode_ordered :
    (∀ m n, encode m = encode n ↔ m = n) ∧
    (∀ m n, m < n ↔ (encode m).length < (encode n).length ∨
      ((encode m).length = (encode n).length ∧ encode m < encode n)) ∧
    ∀ n, ((encode n).length = 5 ↔ n < 26 ^ 5) ∧
      (5 < (encode n).length ∧ (encode n).toList.head? ≠ some 'a' ↔ 26 ^ 5 ≤ n) ∧
      (∀ c ∈ (encode n).toList, c.isLower = true) ∧ ofLetters (encode n).toList = n := by
  refine ⟨fun m n => encode_injective.eq_iff, fun m n => ⟨fun less => ?_, ?_⟩, fun n => ?_⟩
  · rcases Nat.lt_or_eq_of_le (length_encode_mono (Nat.le_of_lt less)) with shorter | same
    · exact .inl shorter
    · exact .inr ⟨same, (encode_lt_encode_iff same).mpr less⟩
  · rintro (shorter | ⟨same, before⟩)
    · exact Nat.lt_of_not_le fun le => Nat.not_le_of_lt shorter (length_encode_mono le)
    · exact (encode_lt_encode_iff same).mp before
  · have least : 5 ≤ (encode n).length := width_le_length_encode n
    have short := length_encode_le_iff (n := n) (Nat.le_refl width)
    rw [width] at short
    refine ⟨by omega, ⟨fun ⟨longer, _⟩ => by omega, fun large => ?_⟩, isLower_of_mem_encode n,
      ofLetters_encode n⟩
    have longer : 5 < (encode n).length := by omega
    exact ⟨longer, head?_encode longer⟩

/-- The last code of five letters and the first one of six. -/
example : encode (26 ^ 5 - 1) = "zzzzz" ∧ encode (26 ^ 5) = "baaaaa" := by decide +kernel

end AliasTable

end FilterSql
