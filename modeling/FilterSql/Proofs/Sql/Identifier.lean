import FilterSql.Sql.Dialect
import Mathlib.Data.List.Induction

/-!
Quoted identifiers, read from the front of a text.

In clickhouse an identifier ends at the first quote mark that no backslash is in force in front of;
a backslash makes a mark or a backslash stand for itself, and what else it may stand in front of is
left open (`Escapes`). In the other dialects an identifier ends at the first mark that is not
doubled, and a doubled mark stands for one.

Each name has one spelling that denotes it, whatever is left open (`readIdent_spelling`,
`eq_of_readIdent`). Quoting a name gives that spelling, except that in clickhouse it leaves
backslashes alone. So a quoted identifier and a qualified column are read back, and nothing more is
read, exactly for the names that are `Quotable`, in front of any text that does not begin with one
more mark to be doubled (`quoteIdent_reads_back`). An identifier with a backslash may end early in
clickhouse, and the rest of its text is read as SQL (`quoteIdent_breaks_out`).
-/

namespace FilterSql

namespace Identifier

/-- What is read: the characters of a name, and the text behind its closing mark. -/
abbrev Reading := Option (List Char × List Char)

/-- What a backslash and a character stand for in clickhouse, if they may stand in an identifier.
It is asked neither for the quote mark nor for the backslash. -/
abbrev Escapes := Char → Option (List Char)

/-- A reading with characters in front of the name. -/
def before (cs : List Char) (reading : Reading) : Reading :=
  reading.map fun (name, rest) => (cs ++ name, rest)

/-- Reads up to the first mark that is not doubled. -/
def upToSingle (mark : Char) : List Char → Reading
  | [] => none
  | [c] => if c = mark then some ([], []) else none
  | c :: c' :: rest =>
    if c = mark then
      if c' = mark then before [mark] (upToSingle mark rest) else some ([], c' :: rest)
    else before [c] (upToSingle mark (c' :: rest))

/-- Reads up to the first mark that no backslash is in force in front of. -/
def upToBare (mark : Char) (escapes : Escapes) : List Char → Reading
  | [] => none
  | [c] => if c = mark then some ([], []) else none
  | c :: c' :: rest =>
    if c = mark then some ([], c' :: rest)
    else if c = '\\' then
      (if c' ∈ [mark, '\\'] then some [c'] else escapes c').bind fun cs =>
        before cs (upToBare mark escapes rest)
    else before [c] (upToBare mark escapes (c' :: rest))

/-- Characters with an escape in front of each special one. -/
def spell (escape : Char) (special : List Char) (cs : List Char) : List Char :=
  cs.flatMap fun c => if c ∈ special then [escape, c] else [c]

theorem before_eq_some {cs name rest : List Char} {reading : Reading}
    (read : before cs reading = some (name, rest)) :
    ∃ name', reading = some (name', rest) ∧ name = cs ++ name' := by
  obtain ⟨⟨name', rest'⟩, read, same⟩ := Option.map_eq_some_iff.mp read
  cases same
  exact ⟨name', read, rfl⟩

variable {mark escape c : Char} {special : List Char} {escapes : Escapes}
  {cs name rest text : List Char}

theorem spell_cons_of_mem (mem : c ∈ special) (cs : List Char) :
    spell escape special (c :: cs) = escape :: c :: spell escape special cs := by
  simp [spell, mem]

theorem spell_cons_of_not_mem (other : c ∉ special) (cs : List Char) :
    spell escape special (c :: cs) = c :: spell escape special cs := by
  simp [spell, other]

/-- One more special character makes a spelling longer by its occurrences. -/
theorem length_spell_pair (escape : Char) {a b : Char} (distinct : a ≠ b) (cs : List Char) :
    (spell escape [a, b] cs).length = (spell escape [a] cs).length + cs.count b := by
  induction cs with
  | nil => rfl
  | cons c cs ih =>
      by_cases first : c = a
      · subst first
        rw [spell_cons_of_mem (by simp), spell_cons_of_mem (by simp),
          List.count_cons_of_ne distinct]
        simp only [List.length_cons, ih]
        omega
      · have other : c ∉ [a] := by simpa using first
        rw [spell_cons_of_not_mem other]
        by_cases second : c = b
        · subst second
          rw [spell_cons_of_mem (by simp), List.count_cons_self]
          simp only [List.length_cons, ih]
          omega
        · rw [spell_cons_of_not_mem (by simp [first, second]), List.count_cons_of_ne second]
          simp only [List.length_cons, ih]
          omega

/-! ### Doubled marks -/

/-- A spelled name is read as it is, if no further mark follows. -/
theorem upToSingle_spell (cs : List Char) (single : rest.head? ≠ some mark) :
    upToSingle mark (spell mark [mark] cs ++ mark :: rest) = some (cs, rest) := by
  induction cs with
  | nil =>
      cases rest with
      | nil => simp [spell, upToSingle]
      | cons c' rest =>
          have other : c' ≠ mark := by simpa using single
          simp [spell, upToSingle, other]
  | cons c cs ih =>
      by_cases isMark : c = mark
      · subst isMark
        rw [spell_cons_of_mem (by simp)]
        simp [upToSingle, ih, before]
      · rw [spell_cons_of_not_mem (by simpa using isMark), List.cons_append]
        -- what follows the character is not empty: there is the closing mark
        cases behind : spell mark [mark] cs ++ mark :: rest with
        | nil => simp at behind
        | cons c' more =>
            rw [upToSingle, if_neg isMark, ← behind, ih]
            rfl

/-- Nothing else is read as the name. -/
theorem eq_of_upToSingle (read : upToSingle mark text = some (name, rest)) :
    text = spell mark [mark] name ++ mark :: rest ∧ rest.head? ≠ some mark := by
  induction text using List.twoStepInduction generalizing name with
  | nil => cases read
  | singleton c =>
      simp only [upToSingle] at read
      split at read
      · next isMark =>
          cases read
          exact ⟨by simp [spell, isMark], by simp⟩
      · cases read
  | cons_cons c c' text ih₂ ih₁ =>
      simp only [upToSingle] at read
      split at read
      · next isMark =>
          split at read
          · next doubled =>
              obtain ⟨name', inner, rfl⟩ := before_eq_some read
              obtain ⟨rfl, single⟩ := ih₂ inner
              refine ⟨?_, single⟩
              rw [isMark, doubled, List.singleton_append, spell_cons_of_mem (by simp)]
              rfl
          · next single =>
              cases read
              exact ⟨by simp [spell, isMark], by simpa using single⟩
      · next other =>
          obtain ⟨name', inner, rfl⟩ := before_eq_some read
          obtain ⟨behind, single⟩ := ih₁ _ inner
          refine ⟨?_, single⟩
          rw [behind, List.singleton_append, spell_cons_of_not_mem (by simpa using other)]
          rfl

/-! ### Marks behind backslashes -/

/-- A spelled name is read as it is, whatever follows and whatever other backslashes mean. -/
theorem upToBare_spell (distinct : mark ≠ '\\') (cs : List Char) :
    upToBare mark escapes (spell '\\' [mark, '\\'] cs ++ mark :: rest) = some (cs, rest) := by
  induction cs with
  | nil => cases rest <;> simp [spell, upToBare]
  | cons c cs ih =>
      by_cases isSpecial : c ∈ [mark, '\\']
      · rw [spell_cons_of_mem isSpecial]
        simp only [List.cons_append, upToBare, if_neg (Ne.symm distinct), if_true,
          if_pos isSpecial, Option.bind_some, ih]
        rfl
      · rw [spell_cons_of_not_mem isSpecial, List.cons_append]
        obtain ⟨other, plain⟩ : c ≠ mark ∧ c ≠ '\\' := by simpa using isSpecial
        cases behind : spell '\\' [mark, '\\'] cs ++ mark :: rest with
        | nil => simp at behind
        | cons c' more =>
            rw [upToBare, if_neg other, if_neg plain, ← behind, ih]
            rfl

/-- Where a backslash may stand in front of a mark or a backslash only, nothing else is read as the
name. -/
theorem eq_of_upToBare (read : upToBare mark (fun _ => none) text = some (name, rest)) :
    text = spell '\\' [mark, '\\'] name ++ mark :: rest := by
  induction text using List.twoStepInduction generalizing name with
  | nil => cases read
  | singleton c =>
      simp only [upToBare] at read
      split at read
      · next isMark =>
          cases read
          simp [spell, isMark]
      · cases read
  | cons_cons c c' text ih₂ ih₁ =>
      simp only [upToBare] at read
      split at read
      · next isMark =>
          cases read
          simp [spell, isMark]
      · next other =>
          split at read
          · next isEscape =>
              obtain ⟨cs, stands, read⟩ := Option.bind_eq_some_iff.mp read
              split at stands
              · next meant =>
                  cases stands
                  obtain ⟨name', inner, rfl⟩ := before_eq_some read
                  rw [ih₂ inner, isEscape, List.singleton_append, spell_cons_of_mem meant]
                  rfl
              · cases stands
          · next plain =>
              obtain ⟨name', inner, rfl⟩ := before_eq_some read
              rw [ih₁ _ inner, List.singleton_append,
                spell_cons_of_not_mem (by simp [other, plain])]
              rfl

end Identifier

namespace Dialect

open Identifier

variable {d : Dialect} {escapes : Escapes} {ident : String} {rest text : List Char}

/-- Reads a quoted identifier from the front of a text: the name that it denotes, and the text
behind it. -/
def readIdent (d : Dialect) (escapes : Escapes) : List Char → Option (String × List Char)
  | [] => none
  | c :: text =>
    if c = d.quoteMark then
      (if d = .clickhouse then upToBare c escapes text else upToSingle c text).map
        fun (name, rest) => (String.ofList name, rest)
    else none

/-- Reads a qualified column from the front of a text: the table, the column, and the text behind
it. -/
def readColumn (d : Dialect) (escapes : Escapes) (text : List Char) :
    Option ((String × String) × List Char) := do
  let (table, text) ← d.readIdent escapes text
  match text with
  | '.' :: text =>
    let (column, text) ← d.readIdent escapes text
    return ((table, column), text)
  | _ => none

/-- The characters that an escape must stand in front of inside an identifier. -/
def specials : Dialect → List Char
  | .clickhouse => [quoteMark .clickhouse, '\\']
  | d => [d.quoteMark]

/-- The escape inside an identifier. -/
def identEscape : Dialect → Char
  | .clickhouse => '\\'
  | d => d.quoteMark

/-- The spelling of a name between its marks. -/
def spelling (d : Dialect) (ident : String) : List Char :=
  d.quoteMark :: spell d.identEscape d.specials ident.toList ++ [d.quoteMark]

/-- A text that does not go on with an identifier in front of it. -/
def Separate (d : Dialect) (rest : List Char) : Prop :=
  d ≠ .clickhouse → rest.head? ≠ some d.quoteMark

/-- An identifier that quoting leaves intact. -/
def Quotable (d : Dialect) (ident : String) : Prop := d = .clickhouse → '\\' ∉ ident.toList

/-- The spelling of a name is read as the name, whatever is left open. -/
theorem readIdent_spelling (ident : String) (separate : d.Separate rest) :
    d.readIdent escapes (d.spelling ident ++ rest) = some (ident, rest) := by
  simp only [spelling, List.cons_append, List.append_assoc, readIdent, if_true]
  by_cases clickhouse : d = .clickhouse
  · subst clickhouse
    rw [if_pos rfl, identEscape, specials, List.nil_append, upToBare_spell (by decide)]
    simp
  · have single := separate clickhouse
    rw [if_neg clickhouse]
    cases d with
    | clickhouse => exact absurd rfl clickhouse
    | sqlite | postgres | duckdb => simp [identEscape, specials, upToSingle_spell _ single]

/-- Where nothing is left open, a name is read off its spelling only. -/
theorem eq_of_readIdent (read : d.readIdent (fun _ => none) text = some (ident, rest)) :
    text = d.spelling ident ++ rest ∧ d.Separate rest := by
  cases text with
  | nil => cases read
  | cons c text =>
      simp only [readIdent] at read
      split at read
      · next isMark =>
          obtain ⟨⟨name, rest'⟩, inner, same⟩ := Option.map_eq_some_iff.mp read
          cases same
          subst isMark
          by_cases clickhouse : d = .clickhouse
          · subst clickhouse
            rw [if_pos rfl] at inner
            refine ⟨?_, fun other => absurd rfl other⟩
            rw [eq_of_upToBare inner]
            simp [spelling, identEscape, specials]
          · rw [if_neg clickhouse] at inner
            obtain ⟨rfl, single⟩ := eq_of_upToSingle inner
            refine ⟨?_, fun _ => single⟩
            cases d <;> simp [spelling, identEscape, specials] at clickhouse ⊢
      · cases read

/-- The spellings of a table and a column with a dot between them are read as the two. -/
theorem readColumn_spelling (table column : String) (separate : d.Separate rest) :
    d.readColumn escapes (d.spelling table ++ '.' :: (d.spelling column ++ rest)) =
      some ((table, column), rest) := by
  have dot : d.Separate ('.' :: (d.spelling column ++ rest)) := by
    intro _
    cases d <;> simp [quoteMark]
  simp [readColumn, readIdent_spelling table dot, readIdent_spelling column separate]

theorem eq_of_readColumn {table column : String}
    (read : d.readColumn (fun _ => none) text = some ((table, column), rest)) :
    text = d.spelling table ++ '.' :: (d.spelling column ++ rest) ∧ d.Separate rest := by
  obtain ⟨⟨table', text'⟩, first, further⟩ := Option.bind_eq_some_iff.mp read
  obtain ⟨rfl, -⟩ := eq_of_readIdent first
  simp only at further
  split at further
  · obtain ⟨⟨column', rest'⟩, second, same⟩ := Option.bind_eq_some_iff.mp further
    cases same
    obtain ⟨rfl, separate⟩ := eq_of_readIdent second
    exact ⟨rfl, separate⟩
  · cases further

/-! ### Quoting -/

theorem toList_quoteIdent (d : Dialect) (ident : String) :
    (d.quoteIdent ident).toList =
      d.quoteMark :: spell d.identEscape [d.quoteMark] ident.toList ++ [d.quoteMark] := by
  have escape : d.escapeIdent = spell d.identEscape [d.quoteMark] := by
    funext cs
    refine congrArg (cs.flatMap ·) ?_
    funext c
    by_cases isMark : c = d.quoteMark
    · subst isMark
      cases d <;> rfl
    · simp [isMark]
  rw [quoteIdent, String.toList_ofList, escape]

/-- A spelling is longer than the quoted identifier by the backslashes that quoting leaves alone. -/
theorem length_spelling (d : Dialect) (ident : String) :
    (d.spelling ident).length = (d.quoteIdent ident).toList.length +
      if d = .clickhouse then ident.toList.count '\\' else 0 := by
  rw [toList_quoteIdent]
  cases d with
  | sqlite | postgres | duckdb => rfl
  | clickhouse =>
      have longer := length_spell_pair '\\' (show quoteMark .clickhouse ≠ '\\' by decide)
        ident.toList
      simp only [spelling, specials, identEscape, List.cons_append, List.length_cons,
        List.length_append, longer, if_true]
      omega

/-- Quoting gives the spelling of a name exactly if it leaves the name intact. -/
theorem toList_quoteIdent_eq_spelling (quotable : d.Quotable ident) :
    (d.quoteIdent ident).toList = d.spelling ident := by
  rw [toList_quoteIdent, spelling]
  cases d with
  | sqlite | postgres | duckdb => rfl
  | clickhouse =>
      have plain := quotable rfl
      have same : spell '\\' [quoteMark .clickhouse] ident.toList =
          spell '\\' [quoteMark .clickhouse, '\\'] ident.toList := by
        unfold spell
        rw [List.flatMap_def, List.flatMap_def]
        refine congrArg _ (List.map_congr_left fun c mem => ?_)
        have other : c ≠ '\\' := by
          rintro rfl
          exact plain mem
        simp [other]
      rw [identEscape, specials, same]

/-- An identifier whose quoting is no shorter than its spelling is left intact. -/
theorem quotable_of_length
    (enough : (d.spelling ident).length ≤ (d.quoteIdent ident).toList.length) :
    d.Quotable ident := by
  intro clickhouse
  rw [length_spelling, if_pos clickhouse] at enough
  exact List.count_eq_zero.mp (by omega)

/-- Quoting an identifier, and qualifying a column, is undone by reading, in front of a text that
does not go on with the identifier, exactly for the names that quoting leaves intact. -/
theorem quoteIdent_reads_back (d : Dialect) :
    (∀ ident rest, (∀ escapes,
        d.readIdent escapes ((d.quoteIdent ident).toList ++ rest) = some (ident, rest)) ↔
      d.Quotable ident ∧ d.Separate rest) ∧
    ∀ table column rest, (∀ escapes, d.readColumn escapes
        ((d.qualify table column).toList ++ rest) = some ((table, column), rest)) ↔
      (d.Quotable table ∧ d.Quotable column) ∧ d.Separate rest := by
  constructor
  · intro ident rest
    constructor
    · intro read
      obtain ⟨same, separate⟩ := eq_of_readIdent (read fun _ => none)
      have enough := congrArg List.length (List.append_cancel_right same)
      exact ⟨quotable_of_length (Nat.le_of_eq enough.symm), separate⟩
    · rintro ⟨quotable, separate⟩ escapes
      rw [toList_quoteIdent_eq_spelling quotable]
      exact readIdent_spelling ident separate
  · intro table column rest
    have qualified : (d.qualify table column).toList ++ rest =
        (d.quoteIdent table).toList ++ '.' :: ((d.quoteIdent column).toList ++ rest) := by
      simp [qualify]
    constructor
    · intro read
      obtain ⟨same, separate⟩ := eq_of_readColumn (read fun _ => none)
      have enough := congrArg List.length (qualified.symm.trans same)
      simp only [List.length_append, List.length_cons] at enough
      -- neither of the two quoted identifiers is longer than its spelling
      have first := length_spelling d table
      have second := length_spelling d column
      exact ⟨⟨quotable_of_length (by omega), quotable_of_length (by omega)⟩, separate⟩
    · rintro ⟨⟨first, second⟩, separate⟩ escapes
      rw [qualified, toList_quoteIdent_eq_spelling first, toList_quoteIdent_eq_spelling second]
      exact readColumn_spelling table column separate

/-- An identifier with a backslash in front of a mark ends behind the backslash, and what stands
behind the mark is read as SQL, whatever else a backslash may stand in front of. -/
theorem quoteIdent_breaks_out :
    (fun escapes => readIdent .clickhouse escapes
        (quoteIdent .clickhouse "\\` IS NULL OR 1=1 -- ").toList) =
      fun _ => some ("\\", " IS NULL OR 1=1 -- `".toList) := by
  rfl

end Dialect

end FilterSql
