import FilterSql.Proofs.Lowering
import FilterSql.Text.Blank
import Mathlib.Data.List.TakeWhile

/-!
Texts that differ in the case of ASCII letters and in the blanks around them.

Such texts are the same when they are trimmed and put into lower case (`lower_trimmed_variant`).
Trimming leaves a text that neither begins nor ends with a blank (`trimmed_trim`), which stays so in
lower case (`Trimmed.lowerFrom`). Blanks and opening parentheses are apart from all words: they stay
what they are, nothing else becomes one of them (`mem_lowerAt`), and in front of one of them a text
becomes in lower case what it becomes alone (`lowerIn_of_head?`).
-/

namespace FilterSql

namespace Text

/-! ### Trimming -/

/-- Characters that neither begin nor end with a blank. -/
def Trimmed (cs : List Char) : Prop :=
  (∀ c ∈ cs.head?, isBlank c = false) ∧ ∀ c ∈ cs.getLast?, isBlank c = false

theorem head?_dropWhile_isBlank (cs : List Char) :
    ∀ c ∈ (cs.dropWhile isBlank).head?, isBlank c = false := by
  intro c first
  have rejected := List.head?_dropWhile_not isBlank cs
  rw [Option.mem_def.mp first] at rejected
  simpa using rejected

/-- Blanks at the end do not matter to what trimming the end leaves. -/
theorem trimEnd_append {after : List Char} (trailing : ∀ c ∈ after, isBlank c = true)
    (cs : List Char) : trimEnd (cs ++ after) = trimEnd cs := by
  rw [trimEnd, List.reverse_append, List.dropWhile_append_of_pos (by simpa using trailing), trimEnd]

theorem exists_trimEnd (cs : List Char) :
    ∃ after, cs = trimEnd cs ++ after ∧ ∀ c ∈ after, isBlank c = true := by
  refine ⟨(cs.reverse.takeWhile isBlank).reverse, ?_, fun c mem => ?_⟩
  · rw [trimEnd, ← List.reverse_append, List.takeWhile_append_dropWhile, List.reverse_reverse]
  · exact List.all_eq_true.mp List.all_takeWhile c (List.mem_reverse.mp mem)

theorem trimEnd_eq_self {cs : List Char} (last : ∀ c ∈ cs.getLast?, isBlank c = false) :
    trimEnd cs = cs := by
  have none : ∀ c ∈ ([] : List Char), isBlank c = true := nofun
  have first : ∀ c ∈ cs.reverse.head?, isBlank c = false := by simpa using last
  have start := dropWhile_isBlank none first
  rw [List.nil_append] at start
  rw [trimEnd, start, List.reverse_reverse]

theorem trimStart_append {before : List Char} (leading : ∀ c ∈ before, isBlank c = true)
    (cs : List Char) : trimStart (before ++ cs) = trimStart cs :=
  List.dropWhile_append_of_pos leading

theorem trimStart_eq_self {cs : List Char} (first : ∀ c ∈ cs.head?, isBlank c = false) :
    trimStart cs = cs := by
  have none : ∀ c ∈ ([] : List Char), isBlank c = true := nofun
  exact dropWhile_isBlank none first

theorem Trimmed.trim_eq {cs : List Char} (trimmed : Trimmed cs) : trim cs = cs := by
  rw [trim, trimStart_eq_self trimmed.1, trimEnd_eq_self trimmed.2]

theorem getLast?_trimEnd (cs : List Char) : ∀ c ∈ (trimEnd cs).getLast?, isBlank c = false := by
  simpa [trimEnd] using head?_dropWhile_isBlank cs.reverse

theorem trimmed_trim (cs : List Char) : Trimmed (trim cs) := by
  refine ⟨?_, getLast?_trimEnd _⟩
  obtain ⟨after, parts, -⟩ := exists_trimEnd (trimStart cs)
  have first := head?_dropWhile_isBlank cs
  rw [← trimStart, parts] at first
  intro c mem
  exact first c (by rw [List.head?_append, ← trim, Option.mem_def.mp mem]; rfl)

theorem trim_sublist (cs : List Char) : (trim cs).Sublist cs := by
  obtain ⟨after, parts, -⟩ := exists_trimEnd (trimStart cs)
  have start : (trimStart cs).Sublist cs := (List.dropWhile_suffix _).sublist
  rw [parts] at start
  exact (List.sublist_append_left _ after).trans start

theorem trimStart_append_cons {c : Char} (visible : isBlank c = false) (cs ds : List Char) :
    trimStart (cs ++ c :: ds) = trimStart cs ++ c :: ds := by
  rw [trimStart, List.dropWhile_append]
  split
  · next empty => rw [trimStart, List.isEmpty_iff.mp empty, List.dropWhile_cons, visible]; rfl
  · rfl

theorem trimEnd_append_cons {c : Char} (visible : isBlank c = false) (cs ds : List Char) :
    trimEnd (cs ++ c :: ds) = cs ++ c :: trimEnd ds := by
  have turned := trimStart_append_cons visible ds.reverse cs.reverse
  rw [trimStart, trimStart] at turned
  simp only [trimEnd, List.reverse_append, List.reverse_cons, List.append_assoc,
    List.singleton_append, turned, List.reverse_reverse]

/-- Only the blanks on both sides of a character that is none are trimmed. -/
theorem trim_append_cons {c : Char} (visible : isBlank c = false) (cs ds : List Char) :
    trim (cs ++ c :: ds) = trimStart cs ++ c :: trimEnd ds := by
  rw [trim, trimStart_append_cons visible, trimEnd_append_cons visible]

/-- Blanks around a text are trimmed. -/
theorem trim_padded {before after : List Char} (leading : ∀ c ∈ before, isBlank c = true)
    (trailing : ∀ c ∈ after, isBlank c = true) (cs : List Char) :
    trim (before ++ cs ++ after) = trim cs := by
  rw [trim, List.append_assoc, trimStart_append leading, trimStart, List.dropWhile_append]
  split
  · next empty =>
      -- There are only blanks.
      have none : after.dropWhile isBlank = [] := List.dropWhile_eq_nil_iff.mpr trailing
      rw [none, trim, trimStart, List.isEmpty_iff.mp empty]
  · exact trimEnd_append trailing _

/-! ### Letter case -/

/-- A text in other ASCII letter case, with blanks around it. -/
inductive Variant (s : String) : String → Prop where
  | mk {u : String} (before same after : List Char) (chars : u.toList = before ++ same ++ after)
      (leading : ∀ c ∈ before, isBlank c = true) (trailing : ∀ c ∈ after, isBlank c = true)
      (letters : same.map Char.toLower = s.toList.map Char.toLower) : Variant s u

/-- A function of characters that does not tell an ASCII capital from its small letter. -/
theorem toLower_congr {α : Type} {f : Char → α}
    (same : ∀ k : Fin 26, f (Char.ofNat (65 + k)).toLower = f (Char.ofNat (65 + k))) (c : Char) :
    f c.toLower = f c := by
  by_cases upper : c.val ≥ 'A'.val ∧ c.val ≤ 'Z'.val
  · have low : 65 ≤ c.toNat := UInt32.le_iff_toNat_le.mp upper.1
    have high : c.toNat ≤ 90 := UInt32.le_iff_toNat_le.mp upper.2
    have letter := same ⟨c.toNat - 65, by omega⟩
    rwa [show 65 + (c.toNat - 65) = c.toNat by omega, Char.ofNat_toNat] at letter
  · exact congrArg f (dif_neg upper)

theorem isBlank_toLower (c : Char) : isBlank c.toLower = isBlank c :=
  toLower_congr (by decide) c

theorem isCaseIgnorable_toLower (c : Char) : isCaseIgnorable c.toLower = isCaseIgnorable c :=
  toLower_congr (by decide +kernel) c

theorem isCased_toLower (c : Char) : isCased c.toLower = isCased c :=
  toLower_congr (by decide +kernel) c

theorem trim_map_toLower (cs : List Char) :
    trim (cs.map Char.toLower) = (trim cs).map Char.toLower := by
  have blank : isBlank ∘ Char.toLower = isBlank := funext isBlank_toLower
  simp only [trim, trimStart, trimEnd, ← List.map_reverse, List.dropWhile_map, blank]

theorem firstCased?_map_toLower (cs : List Char) :
    firstCased? (cs.map Char.toLower) = firstCased? cs := by
  have ignorable : isCaseIgnorable ∘ Char.toLower = isCaseIgnorable :=
    funext isCaseIgnorable_toLower
  have cased : isCased ∘ Char.toLower = isCased := funext isCased_toLower
  rw [firstCased?, List.dropWhile_map, ignorable, List.head?_map, Option.map_map, cased,
    firstCased?]

theorem lowerChar_toLower (c : Char) : lowerChar c.toLower = lowerChar c :=
  toLower_congr (by decide +kernel) c

theorem toLower_eq_iff {d : Char} (same : ∀ k : Fin 26, (Char.ofNat (65 + k)).toLower ≠ d ∧
    Char.ofNat (65 + k) ≠ d) (c : Char) : c.toLower = d ↔ c = d := by
  have agree := toLower_congr (f := fun c => decide (c = d)) (fun k => by simp [same k]) c
  exact decide_eq_decide.mp agree

/-- The lower case of a character does not depend on the case of the ASCII letters at its place and
around it. -/
theorem lowerAt_toLower (before : List Char) (c : Char) (after : List Char) :
    lowerAt (before.map Char.toLower) c.toLower (after.map Char.toLower) =
      lowerAt before c after := by
  have sigma : c.toLower = 'Σ' ↔ c = 'Σ' := toLower_eq_iff (by decide) c
  have dotted : c.toLower = 'İ' ↔ c = 'İ' := toLower_eq_iff (by decide) c
  simp only [lowerAt, endsWord, meetsCased_eq, firstCased?_map_toLower, lowerChar_toLower, sigma,
    dotted]

theorem lowerFrom_map_toLower (before cs : List Char) :
    lowerFrom (before.map Char.toLower) (cs.map Char.toLower) = lowerFrom before cs := by
  induction cs generalizing before with
  | nil => rfl
  | cons c rest ih =>
      exact congrArg₂ (· ++ ·) (lowerAt_toLower before c rest) (ih (c :: before))

/-- Texts that are variants of one another are the same, once trimmed and in lower case. -/
theorem lower_trimmed_variant {s u : String} (variant : Variant s u) :
    lower (trimmed u) = lower (trimmed s) := by
  obtain ⟨before, same, after, chars, leading, trailing, letters⟩ := variant
  have lowered (cs : List Char) :
      lowerFrom [] (trim cs) = lowerFrom [] (trim (cs.map Char.toLower)) := by
    rw [trim_map_toLower]
    exact (lowerFrom_map_toLower [] _).symm
  simp only [lower, trimmed, String.toList_ofList]
  rw [chars, trim_padded leading trailing, lowered same, letters, ← lowered]

/-! ### Separators -/

/-- The code points of blanks and of the opening parenthesis. -/
def separators : List (Nat × Nat) :=
  [(0x9, 0xD), (0x20, 0x20), (0x28, 0x28), (0x85, 0x85), (0xA0, 0xA0), (0x1680, 0x1680),
    (0x2000, 0x200A), (0x2028, 0x2029), (0x202F, 0x202F), (0x205F, 0x205F), (0x3000, 0x3000)]

/-- Whether a character is a blank or an opening parenthesis. -/
def isSeparator (c : Char) : Bool := inRanges separators c.toNat

theorem isSeparator_of_isBlank {c : Char} (blank : isBlank c = true) : isSeparator c = true := by
  simp only [isBlank, isSeparator, inRanges, separators, List.any_cons, List.any_nil,
    Bool.or_eq_true, Bool.and_eq_true, decide_eq_true_eq, beq_iff_eq] at blank ⊢
  omega

theorem isSeparator_iff {c : Char} : isSeparator c = true ↔
    ∃ range ∈ separators, range.1 ≤ c.toNat ∧ c.toNat ≤ range.2 := by
  simp only [isSeparator, inRanges, List.any_eq_true, Bool.and_eq_true, decide_eq_true_eq]

/-- Neither the characters with a lower case of their own nor their lower case are separators. -/
theorem lowerRuns_apart : ∀ run ∈ lowerRuns, ∀ range ∈ separators, 0 < range.1 ∧
    (run.last < range.1 ∨ range.2 < run.first) ∧
    (run.last + run.shift < range.1 ∨ (range.2 : Int) < run.first + run.shift) := by
  decide +kernel

theorem LowerRun.bounds_of_covers {run : LowerRun} {n : Nat} (covers : run.covers n = true) :
    run.first ≤ n ∧ n ≤ run.last := by
  simp only [LowerRun.covers, Bool.and_eq_true, decide_eq_true_eq] at covers
  exact covers.1

theorem toNat_ofNat_eq_or (n : Nat) : (Char.ofNat n).toNat = n ∨ (Char.ofNat n).toNat = 0 := by
  by_cases valid : n.isValidChar
  · left
    exact congrArg Char.toNat (dif_pos valid)
  · right
    exact congrArg Char.toNat (dif_neg valid)

/-- The code points of a run and those they are mapped to are not separators. -/
theorem LowerRun.isSeparator_eq_false {run : LowerRun} (mem : run ∈ lowerRuns) {c : Char}
    (covers : run.covers c.toNat = true) : isSeparator c = false ∧
      isSeparator (Char.ofNat ((c.toNat : Int) + run.shift).toNat) = false := by
  have bounds := bounds_of_covers covers
  constructor
  · refine Bool.eq_false_iff.mpr fun separator => ?_
    obtain ⟨range, inside, within⟩ := isSeparator_iff.mp separator
    have apart := (lowerRuns_apart run mem range inside).2.1
    omega
  · refine Bool.eq_false_iff.mpr fun separator => ?_
    obtain ⟨range, inside, within⟩ := isSeparator_iff.mp separator
    have apart := lowerRuns_apart run mem range inside
    have point := toNat_ofNat_eq_or ((c.toNat : Int) + run.shift).toNat
    omega

theorem isSeparator_capital : ∀ k : Fin 26, isSeparator (Char.ofNat (65 + k)) = false ∧
    isSeparator (Char.ofNat (65 + k + 32)) = false := by
  decide

/-- Lower-casing leaves separators as they are, and makes a separator of nothing else. -/
theorem lowerChar_eq_self {c : Char}
    (separator : isSeparator c = true ∨ isSeparator (lowerChar c) = true) : lowerChar c = c := by
  by_contra changed
  suffices none : isSeparator c = false ∧ isSeparator (lowerChar c) = false by simp_all
  unfold lowerChar at changed ⊢
  split_ifs at changed ⊢ with ascii capital
  · have low : 65 ≤ c.toNat := UInt32.le_iff_toNat_le.mp capital.1
    have high : c.toNat ≤ 90 := UInt32.le_iff_toNat_le.mp capital.2
    have letter := isSeparator_capital ⟨c.toNat - 65, by omega⟩
    rwa [show 65 + (c.toNat - 65) = c.toNat by omega, Char.ofNat_toNat] at letter
  · exact absurd rfl changed
  · split at changed
    · next run found =>
        have covers : run.covers c.toNat = true :=
          List.find?_some (p := (LowerRun.covers · c.toNat)) found
        exact run.isSeparator_eq_false (List.mem_of_find?_eq_some found) covers
    · exact absurd rfl changed

theorem isSeparator_special :
    ∀ c ∈ ['Σ', 'σ', 'ς', 'İ', 'i', '\u0307'], isSeparator c = false := by
  have all : ['Σ', 'σ', 'ς', 'İ', 'i', '\u0307'].all (!isSeparator ·) = true := by decide
  simpa using all

/-- Separators become themselves, and nothing else becomes one. -/
theorem mem_lowerAt {before after : List Char} {c d : Char} (separator : isSeparator d = true) :
    d ∈ lowerAt before c after ↔ d = c := by
  have special := isSeparator_special
  unfold lowerAt
  split_ifs with sigma endsWord dotted
  · grind
  · grind
  · grind
  · rw [List.mem_singleton]
    have self := @lowerChar_eq_self c
    grind

theorem lowerAt_separator {before after : List Char} {c : Char} (separator : isSeparator c = true) :
    lowerAt before c after = [c] := by
  have special := isSeparator_special
  rw [lowerAt, if_neg (by grind), if_neg (by grind), lowerChar_eq_self (.inl separator)]

theorem mem_lowerFrom {before cs : List Char} {d : Char} (separator : isSeparator d = true) :
    d ∈ lowerFrom before cs ↔ d ∈ cs := by
  induction cs generalizing before with
  | nil => rfl
  | cons c rest ih =>
      have first : lowerFrom before (c :: rest) =
        lowerAt before c rest ++ lowerFrom (c :: before) rest := rfl
      rw [first, List.mem_append, mem_lowerAt separator, ih, List.mem_cons]

theorem lowerIn_separators {before part after : List Char}
    (separators : ∀ c ∈ part, isSeparator c = true) : lowerIn before part after = part := by
  induction part generalizing before with
  | nil => rfl
  | cons c rest ih =>
      rw [List.forall_mem_cons] at separators
      rw [lowerIn, lowerAt_separator separators.1, ih separators.2, List.singleton_append]

/-- No separator is cased or ignored in the context of a capital sigma. -/
theorem caseRanges_apart : ∀ range ∈ casedRanges ++ caseIgnorableRanges, ∀ range' ∈ separators,
    range.2 < range'.1 ∨ range'.2 < range.1 := by
  decide +kernel

theorem firstCased?_separator {c : Char} (separator : isSeparator c = true) (cs : List Char) :
    firstCased? (c :: cs) = some false := by
  obtain ⟨range', mem', within'⟩ := isSeparator_iff.mp separator
  have outside {range : Nat × Nat} (mem : range ∈ casedRanges ++ caseIgnorableRanges) :
      ¬ (range.1 ≤ c.toNat ∧ c.toNat ≤ range.2) := by
    have apart := caseRanges_apart range mem range' mem'
    omega
  have cased : isCased c = false := by
    simp only [isCased, inRanges, List.any_eq_false, Bool.and_eq_true, decide_eq_true_eq]
    exact fun range mem => outside (List.mem_append_left _ mem)
  have ignorable : isCaseIgnorable c = false := by
    simp only [isCaseIgnorable, inRanges, List.any_eq_false, Bool.and_eq_true, decide_eq_true_eq]
    exact fun range mem => outside (List.mem_append_right _ mem)
  simp [firstCased?, ignorable, cased]

/-- A part of a text in front of a separator becomes what it becomes at the end of a text. -/
theorem lowerIn_of_head? {before part after : List Char}
    (apart : ∀ c ∈ after.head?, isSeparator c = true) :
    lowerIn before part after = lowerIn before part [] := by
  induction part generalizing before with
  | nil => rfl
  | cons c rest ih =>
      have ends : meetsCased (rest ++ after) = meetsCased rest := by
        rw [meetsCased_eq, meetsCased_eq, firstCased?_append]
        cases after with
        | nil => simp [firstCased?]
        | cons d after =>
          rw [firstCased?_separator (apart d rfl)]
          cases firstCased? rest <;> rfl
      rw [lowerIn, lowerIn, ih, List.append_nil, lowerAt, lowerAt, endsWord, endsWord, ends]

theorem lowerAt_ne_nil (before : List Char) (c : Char) (after : List Char) :
    lowerAt before c after ≠ [] := by
  have length := length_lowerAt before c after
  intro none
  rw [none] at length
  split at length <;> cases length

/-- A character that is not blank becomes none in lower case. -/
theorem isBlank_of_mem_lowerAt {before after : List Char} {c d : Char} (visible : isBlank c = false)
    (mem : d ∈ lowerAt before c after) : isBlank d = false := by
  refine Bool.eq_false_iff.mpr fun blank => ?_
  rw [(mem_lowerAt (isSeparator_of_isBlank blank)).mp mem, visible] at blank
  cases blank

/-- A text without blanks at its ends has none there in lower case. -/
theorem Trimmed.lowerFrom {before cs : List Char} (trimmed : Trimmed cs) :
    Trimmed (lowerFrom before cs) := by
  constructor
  · cases cs with
    | nil => nofun
    | cons c rest =>
        have first : Text.lowerFrom before (c :: rest) =
          lowerAt before c rest ++ Text.lowerFrom (c :: before) rest := rfl
        intro d head
        rw [first, List.head?_append_of_ne_nil _ (lowerAt_ne_nil before c rest)] at head
        exact isBlank_of_mem_lowerAt (trimmed.1 c rfl) (List.mem_of_mem_head? head)
  · rcases cs.eq_nil_or_concat' with rfl | ⟨init, c, rfl⟩
    · nofun
    · have last : Text.lowerFrom before (init ++ [c]) =
          lowerIn before init [c] ++ lowerAt (init.reverse ++ before) c [] := by
        rw [lowerFrom_append, lowerFrom_eq, lowerIn, lowerIn, List.append_nil, List.append_nil]
      intro d tail
      rw [last, List.getLast?_append_of_ne_nil _ (lowerAt_ne_nil _ c [])] at tail
      exact isBlank_of_mem_lowerAt (trimmed.2 c (by simp)) (List.mem_of_mem_getLast? tail)

end Text

end FilterSql
