import FilterSql.Proofs.Variants
import FilterSql.Schema.LocalType

/-!
What does not matter to the local type of a storage type.

A name without arguments is looked up as it is once trimmed, in lower case and without its marks of
unsigned numbers (`ofStorageType_eq`). Everything from the first parenthesis on is cut off, which
leaves the name alone (`baseName_arguments`), and one more mark changes nothing
(`ofStorageType_unsigned`).
-/

namespace FilterSql

namespace LocalType

open Text

/-! ### Marks of unsigned numbers -/

/-- As many steps as there are characters are enough. -/
theorem dropMarks_succ {mark : List Char} (some : mark ≠ []) {fuel : Nat} {cs : List Char}
    (bound : cs.length ≤ fuel) : dropMarks mark (fuel + 1) cs = dropMarks mark fuel cs := by
  have step (fuel : Nat) (cs : List Char) : dropMarks mark (fuel + 1) cs =
    if mark.isPrefixOf cs then dropMarks mark fuel (cs.drop mark.length) else cs := rfl
  induction fuel generalizing cs with
  | zero =>
      obtain rfl := List.length_eq_zero_iff.mp (Nat.le_zero.mp bound)
      cases mark with
      | nil => exact absurd rfl some
      | cons c mark => rfl
  | succ fuel ih =>
      have positive := List.length_pos_iff.mpr some
      have shorter : (cs.drop mark.length).length ≤ fuel := by
        rw [List.length_drop]
        omega
      rw [step (fuel + 1) cs, step fuel cs, ih shorter]

theorem dropMarks_of_length_le {mark : List Char} (some : mark ≠ []) {cs : List Char} {fuel : Nat}
    (bound : cs.length ≤ fuel) : dropMarks mark fuel cs = dropMarks mark cs.length cs := by
  induction fuel, bound using Nat.le_induction with
  | base => rfl
  | succ fuel bound ih => rw [dropMarks_succ some bound, ih]

theorem dropMarks_mark (mark : List Char) (fuel : Nat) (cs : List Char) :
    dropMarks mark (fuel + 1) (mark ++ cs) = dropMarks mark fuel cs := by
  rw [dropMarks, if_pos (by simp), List.drop_left]

/-- A further mark at the end is dropped as well. -/
theorem dropUnsigned_append (cs : List Char) :
    dropUnsigned (cs ++ unsignedMark) = dropUnsigned cs := by
  have some : unsignedMark.reverse ≠ [] := by decide
  have length : (cs ++ unsignedMark).length = cs.length + 8 + 1 := by
    rw [List.length_append, show unsignedMark.length = 9 from rfl]
  have enough : cs.reverse.length ≤ cs.length + 8 := by simp
  rw [dropUnsigned, dropUnsigned, length, List.reverse_append, dropMarks_mark,
    dropMarks_of_length_le some enough, List.length_reverse]

/-! ### Names without arguments -/

theorem toList_lower_trimmed (s : String) :
    (lower (trimmed s)).toList = lowerFrom [] (trim s.toList) := by
  rw [lower, trimmed, String.toList_ofList, String.toList_ofList]

/-- Lower-casing yields no parenthesis that was not there. -/
theorem not_mem_lowerFrom {cs : List Char} (plain : '(' ∉ cs) : '(' ∉ lowerFrom [] (trim cs) := by
  rw [mem_lowerFrom (by decide)]
  exact fun mem => plain ((trim_sublist cs).mem mem)

/-- The name in front of the first parenthesis is what stands there without blanks at its ends. -/
theorem baseName_append {name blanks : List Char} (plain : '(' ∉ name) (trimmed : Trimmed name)
    (blank : ∀ c ∈ blanks, isBlank c = true) (arguments : List Char)
    (cut : ∀ c ∈ arguments.head?, c = '(') :
    baseName (name ++ blanks ++ arguments) = dropUnsigned name := by
  have inside : ∀ c ∈ name ++ blanks, (c != '(') = true := by
    intro c mem
    rw [bne_iff_ne]
    rintro rfl
    rcases List.mem_append.mp mem with mem | mem
    · exact plain mem
    · exact absurd (blank _ mem) (by decide)
  have outside : arguments.takeWhile (· != '(') = [] := by
    cases arguments with
    | nil => rfl
    | cons c rest => simp [cut c rfl]
  have none : ∀ c ∈ ([] : List Char), isBlank c = true := nofun
  have padded := trim_padded none blank name
  rw [List.nil_append, trimmed.trim_eq] at padded
  rw [baseName, List.takeWhile_append_of_pos inside, outside, List.append_nil, padded]

/-- The local type of a name without arguments. -/
theorem ofStorageType_eq {s : String} (plain : '(' ∉ s.toList) : ofStorageType s =
    ofBaseName (String.ofList (dropUnsigned (lowerFrom [] (trim s.toList)))) := by
  have lowered := not_mem_lowerFrom plain
  have other : lower (trimmed s) ≠ "tinyint(1)" := by
    intro same
    rw [← toList_lower_trimmed, same] at lowered
    exact lowered (by decide)
  have none : ∀ c ∈ ([] : List Char), isBlank c = true := nofun
  have name := baseName_append lowered (trimmed_trim s.toList).lowerFrom none [] nofun
  rw [List.append_nil, List.append_nil] at name
  rw [ofStorageType, if_neg other, toList_lower_trimmed, name]

/-- What stands in front of the first parenthesis is in lower case what it is alone. -/
theorem exists_lowerFrom_arguments (cs ds : List Char) : ∃ blanks arguments,
    lowerFrom [] (trim (cs ++ '(' :: ds)) =
      lowerFrom [] (trim cs) ++ blanks ++ '(' :: arguments ∧
    ∀ c ∈ blanks, isBlank c = true := by
  obtain ⟨blanks, parts, blank⟩ := exists_trimEnd (trimStart cs)
  have whole : trim (cs ++ '(' :: ds) = trim cs ++ (blanks ++ '(' :: trimEnd ds) := by
    rw [trim_append_cons (by decide), parts, List.append_assoc, ← trim]
  have apart : ∀ c ∈ (blanks ++ '(' :: trimEnd ds).head?, isSeparator c = true := by
    intro c head
    cases blanks with
    | nil =>
        obtain rfl : '(' = c := Option.some.inj head
        decide
    | cons b blanks =>
        obtain rfl : b = c := Option.some.inj head
        exact isSeparator_of_isBlank (blank _ (by simp))
  have behind (before : List Char) : lowerFrom before (blanks ++ '(' :: trimEnd ds) =
      blanks ++ '(' :: lowerFrom ('(' :: (blanks.reverse ++ before)) (trimEnd ds) := by
    rw [lowerFrom_append,
      lowerIn_separators fun c mem => isSeparator_of_isBlank (blank c mem)]
    rfl
  refine ⟨blanks, lowerFrom ('(' :: (blanks.reverse ++ ((trim cs).reverse ++ []))) (trimEnd ds), ?_,
    blank⟩
  rw [whole, lowerFrom_append, lowerIn_of_head? apart, ← lowerFrom_eq, behind, List.append_assoc]

theorem ofStorageType_arguments {s : String} (plain : '(' ∉ s.toList) (a : String) :
    ofStorageType (s ++ "(" ++ a) =
      if lower (trimmed (s ++ "(" ++ a)) = "tinyint(1)" then .boolean else ofStorageType s := by
  have chars : (s ++ "(" ++ a).toList = s.toList ++ '(' :: a.toList := by
    simp only [String.toList_append, List.append_assoc]
    rfl
  obtain ⟨blanks, arguments, lowered, blank⟩ := exists_lowerFrom_arguments s.toList a.toList
  have name := baseName_append (not_mem_lowerFrom plain) (trimmed_trim s.toList).lowerFrom
    blank ('(' :: arguments) fun c head => (Option.some.inj head).symm
  rw [ofStorageType, toList_lower_trimmed, chars, lowered, name, ofStorageType_eq plain]

/-! ### Further marks -/

theorem ofStorageType_unsigned {s : String} (plain : '(' ∉ s.toList)
    (ends : ∀ c ∈ s.toList.getLast?, isBlank c = false) :
    ofStorageType (s ++ " unsigned") = ofStorageType s := by
  have chars : (s ++ " unsigned").toList = s.toList ++ unsignedMark := String.toList_append
  have plain' : '(' ∉ (s ++ " unsigned").toList := by
    rw [chars, List.mem_append, not_or]
    exact ⟨plain, by decide⟩
  rw [ofStorageType_eq plain', ofStorageType_eq plain, chars]
  rcases s.toList.eq_nil_or_concat' with none | ⟨init, c, last⟩
  · rw [none]
    decide
  · have visible : isBlank c = false := ends c (by simp [last])
    have whole : trim (s.toList ++ unsignedMark) = trim s.toList ++ unsignedMark := by
      rw [last, List.append_assoc, List.singleton_append, trim_append_cons visible,
        trim_append_cons visible, List.append_assoc]
      rfl
    have mark : lowerIn [] (trim s.toList) unsignedMark = lowerIn [] (trim s.toList) [] :=
      lowerIn_of_head? fun d head => by
        obtain rfl : ' ' = d := Option.some.inj head
        decide
    rw [whole, lowerFrom_append, mark, ← lowerFrom_eq]
    exact congrArg (fun cs => ofBaseName (String.ofList cs)) (dropUnsigned_append _)

/-- A storage type name with a number of further marks of unsigned numbers at its end. -/
def withUnsigned (s : String) : Nat → String
  | 0 => s
  | k + 1 => withUnsigned s k ++ " unsigned"

/-- A mark brings neither a parenthesis nor a blank at the end. -/
theorem withUnsigned_plain {s : String} (plain : '(' ∉ s.toList)
    (ends : ∀ c ∈ s.toList.getLast?, isBlank c = false) (k : Nat) :
    '(' ∉ (withUnsigned s k).toList ∧
      ∀ c ∈ (withUnsigned s k).toList.getLast?, isBlank c = false := by
  induction k with
  | zero => exact ⟨plain, ends⟩
  | succ k ih =>
      have chars : (withUnsigned s (k + 1)).toList = (withUnsigned s k).toList ++ unsignedMark :=
        String.toList_append
      rw [chars, List.mem_append, not_or]
      refine ⟨⟨ih.1, by decide⟩, fun c last => ?_⟩
      have mark : unsignedMark.getLast? = some 'd' := rfl
      rw [List.getLast?_append, mark] at last
      obtain rfl : 'd' = c := Option.some.inj last
      decide

theorem ofStorageType_withUnsigned {s : String} (plain : '(' ∉ s.toList)
    (ends : ∀ c ∈ s.toList.getLast?, isBlank c = false) (k : Nat) :
    ofStorageType (withUnsigned s k) = ofStorageType s := by
  induction k with
  | zero => rfl
  | succ k ih =>
      have name := withUnsigned_plain plain ends k
      rw [withUnsigned, ofStorageType_unsigned name.1 name.2, ih]

/-! ### Spellings of a storage type -/

theorem ofStorageType_variant {s u : String} (variant : Variant s u) :
    ofStorageType u = ofStorageType s := by
  rw [ofStorageType, ofStorageType, lower_trimmed_variant variant]

/-- The local type of a name without arguments is that of every spelling of it, in other ASCII
letter case and with blanks around it, of every spelling of it with arguments, other than those of
`tinyint(1)`, which holds booleans, and, if the name does not end in a blank, of every spelling of
it with marks of unsigned numbers at its end. -/
theorem ofStorageType_spellings (s : String) (plain : '(' ∉ s.toList) :
    (∀ u, Variant s u → ofStorageType u = ofStorageType s) ∧
    (∀ a u, Variant (s ++ "(" ++ a) u → ofStorageType u =
      if lower (trimmed u) = "tinyint(1)" then .boolean else ofStorageType s) ∧
    ((∀ c ∈ s.toList.getLast?, isBlank c = false) →
      ∀ k u, Variant (withUnsigned s k) u → ofStorageType u = ofStorageType s) := by
  refine ⟨fun u => ofStorageType_variant, fun a u variant => ?_, fun ends k u variant => ?_⟩
  · rw [ofStorageType_variant variant, ofStorageType_arguments plain,
      lower_trimmed_variant variant]
  · rw [ofStorageType_variant variant, ofStorageType_withUnsigned plain ends]

/-- A number with padded arguments, a boolean, and a number with two marks in other letter case. -/
theorem ofStorageType_spellings_tinyint :
    ofStorageType "\tTinyInt (4) unsigned " = .numeric ∧ ofStorageType " TINYINT(1)" = .boolean ∧
    ofStorageType "tinyint UNSIGNED Unsigned\n" = .numeric := by
  have bare : ofStorageType "tinyint" = .numeric := by decide +kernel
  have spaced : ofStorageType "tinyint " = .numeric := by decide +kernel
  have numeric : Variant "tinyint (4) unsigned" "\tTinyInt (4) unsigned " :=
    ⟨['\t'], "TinyInt (4) unsigned".toList, [' '], rfl, List.forall_mem_singleton.mpr rfl,
      List.forall_mem_singleton.mpr rfl, by decide +kernel⟩
  have boolean : Variant "tinyint(1)" " TINYINT(1)" :=
    ⟨[' '], "TINYINT(1)".toList, [], rfl, List.forall_mem_singleton.mpr rfl, nofun,
      by decide +kernel⟩
  have unsigned : Variant "tinyint unsigned unsigned" "tinyint UNSIGNED Unsigned\n" :=
    ⟨[], "tinyint UNSIGNED Unsigned".toList, ['\n'], rfl, nofun,
      List.forall_mem_singleton.mpr rfl, by decide +kernel⟩
  have ends : ∀ c ∈ "tinyint".toList.getLast?, isBlank c = false := by
    rintro c ⟨⟩
    rfl
  have spellings := ofStorageType_spellings "tinyint" (by decide)
  refine ⟨?_, ?_, ?_⟩
  · rw [(ofStorageType_spellings "tinyint " (by decide)).2.1 "4) unsigned" _ numeric, spaced]
    decide +kernel
  · rw [spellings.2.1 "1)" _ boolean]
    decide +kernel
  · rw [spellings.2.2 ends 2 _ unsigned, bare]

end LocalType

end FilterSql
