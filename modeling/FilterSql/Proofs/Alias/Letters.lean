import FilterSql.Compile.Alias
import Mathlib.Logic.Function.Basic

/-!
Numbers in letters.

`encode_injective`: different numbers have different codes. The digits of a code are read back by
`ofLetters`, for which the padding in front is a row of zeros, so a number is recovered from its
code. A code has the least number of letters or more (`width_le_length_encode`), all of them
lower-case (`isLower_of_mem_encode`).
-/

namespace FilterSql

namespace AliasTable

/-- The digit that a letter stands for. -/
def digit (c : Char) : Nat := c.toNat - 97

/-- The number that letters read as in base twenty-six. -/
def ofLetters (cs : List Char) : Nat := cs.foldl (fun n c => 26 * n + digit c) 0

@[simp] theorem digit_letter (n : Nat) : digit (letter n) = n % 26 := by
  have digits : ∀ d : Fin 26, digit (Char.ofNat (97 + d)) = d := by decide
  exact digits ⟨n % 26, Nat.mod_lt n (by decide)⟩

@[simp] theorem ofLetters_snoc (cs : List Char) (c : Char) :
    ofLetters (cs ++ [c]) = 26 * ofLetters cs + digit c := by
  simp [ofLetters]

/-- Zeros in front do not change the number. -/
theorem ofLetters_replicate_append (k : Nat) (cs : List Char) :
    ofLetters (List.replicate k 'a' ++ cs) = ofLetters cs := by
  induction k with
  | zero => rfl
  | succ k ih => simpa [List.replicate_succ, ofLetters, digit] using ih

/-- The digits are put before what is written already. -/
theorem lettersOnto_append (fuel n : Nat) (written : List Char) :
    lettersOnto fuel n written = lettersOnto fuel n [] ++ written := by
  induction fuel generalizing n written with
  | zero => rfl
  | succ fuel ih =>
      simp only [lettersOnto]
      split
      · rfl
      · rw [ih, ih (n / 26) [letter n]]
        simp

/-- With enough fuel all digits are written. -/
theorem ofLetters_lettersOnto {fuel n : Nat} (enough : n < fuel) :
    ofLetters (lettersOnto fuel n []) = n := by
  induction fuel generalizing n with
  | zero => omega
  | succ fuel ih =>
      simp only [lettersOnto]
      split
      · next small => simp [ofLetters, Nat.mod_eq_of_lt small]
      · next large =>
          have rest := ih (n := n / 26) (by omega)
          rw [lettersOnto_append, ofLetters_snoc, rest, digit_letter]
          omega

theorem ofLetters_letters (n : Nat) : ofLetters (letters n) = n :=
  ofLetters_lettersOnto (Nat.lt_succ_self n)

/-- A number is read back from its code. -/
theorem ofLetters_encode (n : Nat) : ofLetters (encode n).toList = n := by
  simp only [encode, String.toList_ofList]
  rw [ofLetters_replicate_append, ofLetters_letters]

theorem encode_injective : Function.Injective encode := by
  intro m n same
  rw [← ofLetters_encode m, same, ofLetters_encode]

theorem isLower_letter (n : Nat) : (letter n).isLower = true := by
  have all : ∀ d : Fin 26, (Char.ofNat (97 + d)).isLower = true := by decide
  exact all ⟨n % 26, Nat.mod_lt n (by decide)⟩

theorem isLower_of_mem_lettersOnto {fuel n : Nat} {written : List Char}
    (before : ∀ c ∈ written, c.isLower = true) :
    ∀ c ∈ lettersOnto fuel n written, c.isLower = true := by
  induction fuel generalizing n written with
  | zero => exact before
  | succ fuel ih =>
      have more : ∀ c ∈ letter n :: written, c.isLower = true :=
        List.forall_mem_cons.mpr ⟨isLower_letter n, before⟩
      simp only [lettersOnto]
      split
      · exact more
      · exact ih more

/-- Codes are written in lower-case letters. -/
theorem isLower_of_mem_encode (n : Nat) : ∀ c ∈ (encode n).toList, c.isLower = true := by
  intro c mem
  simp only [encode, String.toList_ofList, List.mem_append] at mem
  rcases mem with padding | digits
  · rw [List.eq_of_mem_replicate padding]
    decide
  · exact isLower_of_mem_lettersOnto (by simp) c digits

theorem width_le_length_encode (n : Nat) : width ≤ (encode n).length := by
  simp only [encode, String.length_ofList, List.length_append, List.length_replicate]
  omega

end AliasTable

end FilterSql
