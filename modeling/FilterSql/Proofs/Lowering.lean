import FilterSql.Text.Case
import Mathlib.Data.List.Infix

/-!
Lower-casing in context.

Capital sigma is the one character whose lower case depends on what stands around it. A part of a
text therefore becomes one thing by itself and perhaps another thing inside a longer text
(`lowerIn`). A capital sigma is `Settled` by the characters next to it if nothing beyond them can
change what it becomes, and a text is `Steady` if it settles its capital sigmas. `lower_infix_iff`
says that these texts, and no others, are found again after lower-casing in every text that has them
in it.
-/

namespace FilterSql

namespace Text

/-! ### Parts of texts -/

/-- Whether a capital sigma between given characters ends a word. The characters before it are held
the nearest first. -/
def endsWord (before after : List Char) : Bool := meetsCased before && !meetsCased after

/-- What a character becomes between other characters. -/
def lowerAt (before : List Char) (c : Char) (after : List Char) : List Char :=
  if c = 'Σ' then (if endsWord before after then ['ς'] else ['σ'])
  else if c = 'İ' then ['i', '\u0307']
  else [lowerChar c]

/-- What a part of a text becomes between other parts. -/
def lowerIn (before : List Char) : (part after : List Char) → List Char
  | [], _ => []
  | c :: rest, after => lowerAt before c (rest ++ after) ++ lowerIn (c :: before) rest after

theorem lowerFrom_append (before part after : List Char) :
    lowerFrom before (part ++ after) =
      lowerIn before part after ++ lowerFrom (part.reverse ++ before) after := by
  induction part generalizing before with
  | nil => rfl
  | cons c rest ih =>
      have first : lowerFrom before (c :: (rest ++ after)) =
          lowerAt before c (rest ++ after) ++ lowerFrom (c :: before) (rest ++ after) := rfl
      rw [List.cons_append, first, ih, lowerIn, List.append_assoc, List.reverse_cons,
        List.append_assoc, List.singleton_append]

theorem lowerFrom_eq (before cs : List Char) : lowerFrom before cs = lowerIn before cs [] := by
  simpa [lowerFrom] using lowerFrom_append before cs []

theorem lowerIn_append (before part part' after : List Char) :
    lowerIn before (part ++ part') after =
      lowerIn before part (part' ++ after) ++ lowerIn (part.reverse ++ before) part' after := by
  induction part generalizing before with
  | nil => rfl
  | cons c rest ih => simp [lowerIn, ih]

/-- How many characters a character becomes does not depend on the others. -/
theorem length_lowerAt (before : List Char) (c : Char) (after : List Char) :
    (lowerAt before c after).length = if c = 'İ' then 2 else 1 := by
  unfold lowerAt
  split
  · next sigma =>
      subst sigma
      split <;> rfl
  · split <;> rfl

theorem length_lowerIn (before before' part after after' : List Char) :
    (lowerIn before part after).length = (lowerIn before' part after').length := by
  induction part generalizing before before' with
  | nil => rfl
  | cons c rest ih =>
      rw [lowerIn, lowerIn, List.length_append, List.length_append, length_lowerAt, length_lowerAt,
        ih (c :: before) (c :: before')]

theorem lowerIn_ne_nil {before part after : List Char} (some : part ≠ []) :
    lowerIn before part after ≠ [] := by
  obtain ⟨c, rest, rfl⟩ := List.exists_cons_of_ne_nil some
  have length := length_lowerAt before c (rest ++ after)
  intro none
  rw [lowerIn, List.append_eq_nil_iff] at none
  rw [none.1] at length
  split at length <;> cases length

/-- A part that becomes the same in two places has its capital sigmas at the ends of words in both
or in neither. -/
theorem endsWord_of_lowerIn_eq {before before' part part' after after' : List Char}
    (same : lowerIn before (part ++ 'Σ' :: part') after =
      lowerIn before' (part ++ 'Σ' :: part') after') :
    endsWord (part.reverse ++ before) (part' ++ after) =
      endsWord (part.reverse ++ before') (part' ++ after') := by
  rw [lowerIn_append, lowerIn_append] at same
  have sigma := (List.append_inj same (length_lowerIn ..)).2
  rw [lowerIn, lowerIn] at sigma
  have first := (List.append_inj sigma (by simp only [length_lowerAt])).1
  simp only [lowerAt, if_true] at first
  split at first <;> split at first <;> simp_all

/-! ### Settled sigmas -/

/-- Whether the first character that is not case-ignorable is cased, if there is one. -/
def firstCased? (cs : List Char) : Option Bool :=
  (cs.dropWhile isCaseIgnorable).head?.map isCased

theorem meetsCased_eq (cs : List Char) : meetsCased cs = (firstCased? cs == some true) := by
  unfold meetsCased firstCased?
  cases cs.dropWhile isCaseIgnorable <;> simp

theorem firstCased?_append (cs ds : List Char) :
    firstCased? (cs ++ ds) = (firstCased? cs).or (firstCased? ds) := by
  induction cs with
  | nil => rfl
  | cons c cs ih =>
      cases ignored : isCaseIgnorable c with
      | true => simpa [firstCased?, ignored] using ih
      | false => simp [firstCased?, ignored]

/-- Whether the characters around a capital sigma say what it becomes. -/
def Settled (before after : List Char) : Prop :=
  firstCased? before = some false ∨ firstCased? after = some true ∨
    (firstCased? before = some true ∧ firstCased? after = some false)

instance (before after : List Char) : Decidable (Settled before after) :=
  inferInstanceAs (Decidable (_ ∨ _ ∨ _))

/-- What stands farther off does not change what a settled sigma becomes. -/
theorem Settled.endsWord_append {before after : List Char} (settled : Settled before after)
    (farBefore farAfter : List Char) :
    endsWord (before ++ farBefore) (after ++ farAfter) = endsWord before after := by
  simp only [endsWord, meetsCased_eq, firstCased?_append]
  rcases settled with apart | inside | ⟨follows, ends⟩
  · simp [apart]
  · simp [inside]
  · simp [follows, ends]

/-- A cased letter farther off, on one of the two sides, changes what a sigma becomes that is not
settled. -/
theorem endsWord_of_not_settled {before after : List Char} (unsettled : ¬ Settled before after) :
    (∀ x, firstCased? [x] = some true →
      endsWord (before ++ [x]) after ≠ endsWord before after) ∨
    (∀ x, firstCased? [x] = some true →
      endsWord before (after ++ [x]) ≠ endsWord before after) := by
  simp only [Settled, not_or, not_and] at unsettled
  obtain ⟨notApart, notInside, notEnd⟩ := unsettled
  simp only [endsWord, meetsCased_eq, firstCased?_append]
  cases front : firstCased? before with
  | none =>
      left
      intro x cased
      simp [cased, notInside]
  | some inWord =>
      right
      intro x cased
      obtain rfl : inWord = true := by simpa [front] using notApart
      have back : firstCased? after = none := by
        cases back : firstCased? after with
        | none => rfl
        | some cased => cases cased <;> simp_all
      simp [cased, back]

/-! ### Texts that are found again -/

/-- Whether all capital sigmas of a text are settled, given the characters before it. -/
def SteadyFrom (before : List Char) : List Char → Prop
  | [] => True
  | c :: rest => (c = 'Σ' → Settled before rest) ∧ SteadyFrom (c :: before) rest

/-- Whether a text settles all its capital sigmas. -/
def Steady (s : String) : Prop := SteadyFrom [] s.toList

instance decidableSteadyFrom : (before cs : List Char) → Decidable (SteadyFrom before cs)
  | _, [] => .isTrue trivial
  | before, c :: rest =>
    have := decidableSteadyFrom (c :: before) rest
    inferInstanceAs (Decidable ((c = 'Σ' → Settled before rest) ∧ SteadyFrom (c :: before) rest))

instance (s : String) : Decidable (Steady s) := inferInstanceAs (Decidable (SteadyFrom [] s.toList))

/-- A text without capital sigmas has none to settle. -/
theorem SteadyFrom.of_not_mem {before cs : List Char} (none : 'Σ' ∉ cs) : SteadyFrom before cs := by
  induction cs generalizing before with
  | nil => trivial
  | cons c rest ih =>
      rw [List.mem_cons, not_or] at none
      exact ⟨fun sigma => absurd sigma.symm none.1, ih none.2⟩

theorem exists_not_settled {before cs : List Char} (unsteady : ¬ SteadyFrom before cs) :
    ∃ part part', cs = part ++ 'Σ' :: part' ∧ ¬ Settled (part.reverse ++ before) part' := by
  induction cs generalizing before with
  | nil => exact absurd trivial unsteady
  | cons c rest ih =>
      by_cases later : SteadyFrom (c :: before) rest
      · have here : ¬ (c = 'Σ' → Settled before rest) := fun settled => unsteady ⟨settled, later⟩
        obtain ⟨rfl, unsettled⟩ := Classical.not_imp.mp here
        exact ⟨[], rest, rfl, unsettled⟩
      · obtain ⟨part, part', rfl, unsettled⟩ := ih later
        exact ⟨c :: part, part', rfl, by simpa using unsettled⟩

/-- A steady text becomes the same everywhere. -/
theorem SteadyFrom.lowerIn_eq {before cs : List Char} (steady : SteadyFrom before cs)
    (farBefore farAfter : List Char) :
    lowerIn (before ++ farBefore) cs farAfter = lowerIn before cs [] := by
  induction cs generalizing before with
  | nil => rfl
  | cons c rest ih =>
      obtain ⟨settled, later⟩ := steady
      have first : lowerAt (before ++ farBefore) c (rest ++ farAfter) = lowerAt before c rest := by
        unfold lowerAt
        split
        · next sigma => rw [(settled sigma).endsWord_append]
        · rfl
      rw [lowerIn, lowerIn, List.append_nil, first, ← List.cons_append, ih later]

/-- There is a cased letter that a given character is not and that is the same in lower case. -/
theorem exists_letter (c : Option Char) :
    ∃ x, c ≠ some x ∧ firstCased? [x] = some true ∧
      ∀ before after, lowerAt before x after = [x] := by
  by_cases first : c = some 'a'
  · refine ⟨'b', by simp [first], by decide +kernel, fun before after => ?_⟩
    rfl
  · refine ⟨'a', first, by decide +kernel, fun before after => ?_⟩
    rfl

/-- A text that is not steady is in some text in whose lower case its own is not found. -/
theorem exists_not_infix {cs : List Char} (unsteady : ¬ SteadyFrom [] cs) :
    ∃ around, cs <:+: around ∧ ¬ lowerFrom [] cs <:+: lowerFrom [] around := by
  obtain ⟨part, part', sigma, unsettled⟩ := exists_not_settled unsteady
  rw [List.append_nil] at unsettled
  have nonempty : lowerIn [] cs [] ≠ [] := lowerIn_ne_nil (by simp [sigma])
  -- A cased letter in front or behind changes the sigma. The lower case becomes longer by that one
  -- letter, so the old one could only be found at its end or at its beginning: with the letter in it,
  -- which is therefore chosen apart from the character in that place, or without, which the sigma
  -- excludes.
  rcases endsWord_of_not_settled unsettled with changes | changes
  · obtain ⟨x, other, cased, same⟩ := exists_letter (lowerIn [] cs []).head?
    refine ⟨x :: cs, List.infix_cons (List.infix_refl _), fun found => ?_⟩
    rw [lowerFrom_eq, lowerFrom_eq, lowerIn, same, List.singleton_append, List.infix_cons_iff,
      List.prefix_cons_iff] at found
    rcases found with (none | ⟨rest, first, -⟩) | found
    · exact nonempty none
    · exact other (by rw [first, List.head?_cons])
    · have equal := found.eq_of_length (length_lowerIn ..)
      subst sigma
      exact changes x cased (by simpa using (endsWord_of_lowerIn_eq equal).symm)
  · obtain ⟨x, other, cased, same⟩ := exists_letter (lowerIn [] cs []).getLast?
    refine ⟨cs ++ [x], List.infix_append' [] _ _, fun found => ?_⟩
    have last : lowerFrom (cs.reverse ++ []) [x] = [x] := by
      rw [lowerFrom_eq, lowerIn, same, lowerIn, List.append_nil]
    rw [lowerFrom_eq, lowerFrom_append, last, List.infix_concat_iff, List.suffix_concat_iff]
      at found
    rcases found with (none | ⟨rest, first, -⟩) | found
    · exact nonempty none
    · exact other (by rw [first, List.getLast?_concat])
    · have equal := found.eq_of_length (length_lowerIn ..)
      subst sigma
      exact changes x cased (by simpa using (endsWord_of_lowerIn_eq equal).symm)

/-- The lower case of a text is found in that of every text that has the text in it exactly if the
text is steady. -/
theorem lower_infix_iff {s : String} :
    (∀ t : String, s.toList <:+: t.toList → (lower s).toList <:+: (lower t).toList) ↔ Steady s := by
  constructor
  · intro found
    by_contra unsteady
    obtain ⟨around, within, missed⟩ := exists_not_infix unsteady
    have within' := found (String.ofList around) (by simpa using within)
    exact missed (by simpa [lower] using within')
  · rintro steady t ⟨before, after, chars⟩
    have same : lowerIn before.reverse s.toList after = lowerFrom [] s.toList := by
      rw [lowerFrom_eq]
      exact SteadyFrom.lowerIn_eq steady before.reverse after
    have whole : lowerFrom [] t.toList = lowerIn [] before (s.toList ++ after) ++
        (lowerFrom [] s.toList ++ lowerFrom (s.toList.reverse ++ before.reverse) after) := by
      rw [← chars, List.append_assoc, lowerFrom_append, List.append_nil, lowerFrom_append, same]
    rw [lower, lower, String.toList_ofList, String.toList_ofList, whole]
    exact List.infix_append' _ _ _

end Text

end FilterSql
