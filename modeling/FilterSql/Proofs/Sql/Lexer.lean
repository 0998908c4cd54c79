import FilterSql.Statement.Render

/-!
The tokens of SQL text, and how a text is cut into them.

The reader goes through a text from left to right, one character at a time. A token goes on as long
as the next character can belong to it; then that character begins another one. Keywords are read in
either letter case. What stands between quote marks is one token, whatever characters it is made of:
a doubled mark stands for the mark, and in clickhouse a backslash makes a mark or a backslash stand
for itself. A placeholder is therefore found outside of quoted identifiers only.

The main statements say which tokens a part of a text is cut into wherever it stands: a number
(`lexes_number`), a placeholder (`lexes_placeholder`) and a quoted identifier of arbitrary
characters, in clickhouse one without backslashes (`lexes_quoteIdent`).
-/

namespace FilterSql

/-- A token of SQL text. -/
inductive Token where
  /-- an identifier between quote marks -/
  | name (s : String)
  /-- a keyword, in upper case -/
  | word (s : String)
  | number (n : Nat)
  /-- a text literal -/
  | literal (s : String)
  | comparison (op : Comparison)
  | leftParen
  | rightParen
  | comma
  | dot
  | star
  | minus
  /-- the place of a parameter, with its number if it has one -/
  | placeholder (n : Option Nat)
  /-- a parameter that stands at its place -/
  | operand (v : SqlValue)
  deriving DecidableEq, Repr

namespace Token

/-- The token of a connective. -/
def connective (op : Connective) : Token := .word op.keyword

/-- A result with tokens in front of it. -/
def before (ts : List Token) (result : Option (List Token)) : Option (List Token) :=
  ts.foldr (fun t result => result.map (t :: ·)) result

@[simp] theorem before_nil (result : Option (List Token)) : before [] result = result := rfl

theorem before_append (ts us : List Token) (result : Option (List Token)) :
    before (ts ++ us) result = before ts (before us result) := List.foldr_append

@[simp] theorem before_none (ts : List Token) : before ts none = none := by
  induction ts with
  | nil => rfl
  | cons t ts ih => simp only [before, List.foldr_cons] at ih ⊢; rw [ih]; rfl

theorem before_some (ts us : List Token) : before ts (some us) = some (ts ++ us) := by
  induction ts with
  | nil => rfl
  | cons t ts ih => simp only [before, List.foldr_cons] at ih ⊢; rw [ih]; rfl

end Token

namespace Lexer

/-- The token that a reader is inside of. -/
inductive State where
  | between
  | word (cs : List Char)
  /-- behind the sign of a numbered placeholder -/
  | dollar
  | digits (placeholder : Bool) (n : Nat)
  | quoted (mark : Char) (cs : List Char)
  /-- behind a backslash between quote marks -/
  | escaped (mark : Char) (cs : List Char)
  /-- behind a quote mark that is the last one unless another follows -/
  | closed (mark : Char) (cs : List Char)
  | sign (op : Comparison)
  /-- a token to which no character can be added -/
  | whole (t : Token)
  deriving DecidableEq, Repr

/-- The value of a digit. -/
def digit (c : Char) : Nat := c.toNat - '0'.toNat

namespace State

/-- The token with one more character, unless that character cannot belong to it. -/
def extend (d : Dialect) : State → Char → Option State
  | .between, _ => none
  | .word cs, c => if c.isAlphanum || c = '_' then some (.word (cs ++ [c.toUpper])) else none
  | .dollar, c => if c.isDigit then some (.digits true (digit c)) else none
  | .digits placeholder n, c =>
    if c.isDigit then some (.digits placeholder (10 * n + digit c)) else none
  | .quoted mark cs, c =>
    if c = mark then some (.closed mark cs)
    else if c = '\\' ∧ d = .clickhouse then some (.escaped mark cs)
    else some (.quoted mark (cs ++ [c]))
  | .escaped mark cs, c =>
    if c = mark ∨ c = '\\' then some (.quoted mark (cs ++ [c])) else none
  | .closed mark cs, c => if c = mark then some (.quoted mark (cs ++ [c])) else none
  | .sign .lt, '=' => some (.sign .lte)
  | .sign .lt, '>' => some (.sign .neq)
  | .sign .gt, '=' => some (.sign .gte)
  | .sign _, _ => none
  | .whole _, _ => none

/-- The tokens of a text that ends the token here and goes on with `following`. -/
def close : State → Option (List Token) → Option (List Token)
  | .between, following => following
  | .word cs, following => Token.before [.word (String.ofList cs)] following
  | .dollar, _ => none
  | .digits placeholder n, following =>
    Token.before [if placeholder then .placeholder (some n) else .number n] following
  | .quoted _ _, _ => none
  | .escaped _ _, _ => none
  | .closed mark cs, following =>
    Token.before [if mark = '\x27' then .literal (String.ofList cs) else .name (String.ofList cs)]
      following
  | .sign op, following => Token.before [.comparison op] following
  | .whole t, following => Token.before [t] following

@[simp] theorem extend_between (d : Dialect) (c : Char) : State.between.extend d c = none := rfl

@[simp] theorem close_none (q : State) : q.close none = none := by cases q <;> rfl

end State

/-- The token that a character begins. -/
def start (d : Dialect) (c : Char) : Option State :=
  if c = ' ' then some .between
  else if c.isDigit then some (.digits false (digit c))
  else if c.isAlpha || c = '_' then some (.word [c.toUpper])
  else
    match c with
    | '(' => some (.whole .leftParen)
    | ')' => some (.whole .rightParen)
    | ',' => some (.whole .comma)
    | '.' => some (.whole .dot)
    | '*' => some (.whole .star)
    | '-' => some (.whole .minus)
    | '=' => some (.sign .eq)
    | '<' => some (.sign .lt)
    | '>' => some (.sign .gt)
    | '?' => if d = .postgres then none else some (.whole (.placeholder none))
    | '$' => if d = .postgres then some .dollar else none
    | '\x27' => some (.quoted c [])
    | _ => if c = d.quoteMark then some (.quoted c []) else none

/-- The tokens of a text from inside of a token on, if it can be cut into tokens. -/
def run (d : Dialect) : State → List Char → Option (List Token)
  | q, [] => q.close (some [])
  | q, c :: cs =>
    match q.extend d c with
    | some q' => run d q' cs
    | none =>
      match start d c with
      | some q' => q.close (run d q' cs)
      | none => none

end Lexer

/-- The tokens of a text, if it can be cut into tokens. -/
def lex (d : Dialect) (cs : List Char) : Option (List Token) := Lexer.run d .between cs

namespace Lexer

variable {d : Dialect} {q : State} {rest : List Char}

/-! ### Ends of tokens -/

/-- What follows a token that is not ended by itself: nothing, or one of the characters that belong
to no such token. -/
def Breaks (cs : List Char) : Prop := ∀ c ∈ cs.head?, c ∈ [' ', ')', ',', '.']

/-- A token that none of those characters belongs to. -/
def State.Ended (d : Dialect) (q : State) : Prop := ∀ c ∈ [' ', ')', ',', '.'], q.extend d c = none

/-- Behind its last character, a token is read apart from what follows. -/
theorem run_of_extend_eq_none (ended : ∀ c ∈ rest.head?, q.extend d c = none) :
    run d q rest = q.close (lex d rest) := by
  cases rest with
  | nil => rfl
  | cons c cs =>
    rw [lex, run, run, ended c rfl, State.extend_between]
    cases start d c with
    | none => simp
    | some q' => rfl

theorem run_ended (ended : q.Ended d) (breaks : Breaks rest) :
    run d q rest = q.close (lex d rest) :=
  run_of_extend_eq_none fun c hc => ended c (breaks c hc)

theorem run_whole (t : Token) : run d (.whole t) rest = Token.before [t] (lex d rest) :=
  run_of_extend_eq_none fun _ _ => rfl

theorem ended_word (cs : List Char) : (State.word cs).Ended d := by
  simp [State.Ended, State.extend]

theorem ended_digits (placeholder : Bool) (n : Nat) : (State.digits placeholder n).Ended d := by
  simp [State.Ended, State.extend]

theorem ended_closed {mark : Char} (h : mark ∈ ['\x27', d.quoteMark]) (cs : List Char) :
    (State.closed mark cs).Ended d := by
  cases d <;> simp [State.Ended, State.extend, Dialect.quoteMark] at h ⊢ <;> grind

/-! ### Numbers and identifiers -/

theorem run_digits (d : Dialect) (placeholder : Bool) (n : Nat) (cs rest : List Char)
    (decimal : ∀ c ∈ cs, c.isDigit) :
    run d (.digits placeholder n) (cs ++ rest)
      = run d (.digits placeholder (Nat.ofDigitChars 10 cs n)) rest := by
  induction cs generalizing n with
  | nil => rfl
  | cons c cs ih =>
    rw [List.cons_append, run]
    simp only [State.extend, decimal c (by simp), if_true]
    rw [ih _ fun c hc => decimal c (by simp [hc]), Nat.ofDigitChars_cons]
    rfl

/-- Between its marks, an identifier is read as it is, whatever its characters. -/
theorem run_quoted (d : Dialect) (cs rest read : List Char)
    (plain : d = .clickhouse → '\\' ∉ cs) :
    run d (.quoted d.quoteMark read) (d.escapeIdent cs ++ d.quoteMark :: rest)
      = run d (.closed d.quoteMark (read ++ cs)) rest := by
  induction cs generalizing read with
  | nil => simp [Dialect.escapeIdent, run, State.extend]
  | cons c cs ih =>
    have ih' := ih (read ++ [c]) fun h => fun m => plain h (by simp [m])
    rw [List.append_assoc] at ih'
    by_cases isMark : c = d.quoteMark
    · -- the mark is escaped by itself or, in clickhouse, by a backslash
      subst isMark
      rw [Dialect.escapeIdent, List.flatMap_cons, if_pos rfl, List.append_assoc,
        ← Dialect.escapeIdent]
      cases d <;> exact ih'
    · have notBackslash : ¬ (c = '\\' ∧ d = .clickhouse) := by
        rintro ⟨rfl, h⟩
        exact plain h (by simp)
      rw [Dialect.escapeIdent, List.flatMap_cons, if_neg isMark]
      simp only [List.cons_append, List.nil_append, run, State.extend, isMark, notBackslash,
        if_false]
      exact ih'

end Lexer

/-! ### Texts that are read on their own -/

section Spelling

open Lexer

/-- A text that is read as the given tokens wherever what follows it meets a condition. -/
def Spells (follows : List Char → Prop) (d : Dialect) (s : String) (ts : List Token) : Prop :=
  ∀ rest, follows rest → lex d (s.toList ++ rest) = Token.before ts (lex d rest)

/-- A text that is read as the given tokens if a break follows. -/
abbrev Lexes (d : Dialect) (s : String) (ts : List Token) : Prop := Spells Breaks d s ts

/-- A text that is read as the given tokens whatever follows. -/
abbrev Delimited (d : Dialect) (s : String) (ts : List Token) : Prop :=
  Spells (fun _ => True) d s ts

/-- A text before which every token ends. -/
def Breaking (s : String) : Prop := s.toList.head?.any (· ∈ [' ', ')', ',', '.'])

variable {d : Dialect} {s t : String} {ts us : List Token}

theorem Breaking.exists_head (h : Breaking s) :
    ∃ c ∈ [' ', ')', ',', '.'], s.toList.head? = some c := by
  cases head : s.toList.head? with
  | none => simp [Breaking, head] at h
  | some c => exact ⟨c, by simpa [Breaking, head] using h, rfl⟩

theorem Breaking.breaks (h : Breaking s) (rest : List Char) : Breaks (s.toList ++ rest) := by
  obtain ⟨c, hc, head⟩ := h.exists_head
  intro c' hc'
  rw [List.head?_append, head] at hc'
  cases hc'
  exact hc

theorem Breaking.append (h : Breaking s) (t : String) : Breaking (s ++ t) := by
  obtain ⟨c, hc, head⟩ := h.exists_head
  rw [Breaking, String.toList_append, List.head?_append, head]
  simpa using hc

theorem Spells.append {follows follows' : List Char → Prop} (first : Spells follows d s ts)
    (second : Spells follows' d t us) (meets : ∀ rest, follows' rest → follows (t.toList ++ rest)) :
    Spells follows' d (s ++ t) (ts ++ us) := by
  intro rest h
  rw [String.toList_append, List.append_assoc, first _ (meets rest h), second rest h,
    Token.before_append]

theorem Delimited.lexes (h : Delimited d s ts) : Lexes d s ts := fun rest _ => h rest trivial

theorem Spells.then {follows : List Char → Prop} (first : Spells (fun _ => True) d s ts)
    (second : Spells follows d t us) : Spells follows d (s ++ t) (ts ++ us) :=
  first.append second fun _ _ => trivial

theorem Spells.thenBreak {follows : List Char → Prop} (first : Spells Breaks d s ts)
    (second : Spells follows d t us) (breaking : Breaking t) :
    Spells follows d (s ++ t) (ts ++ us) :=
  first.append second fun rest _ => breaking.breaks rest

theorem Lexes.of_run (ts : List Token) {t : Token} {q : State} (ended : q.Ended d)
    (closes : ∀ following, q.close following = Token.before [t] following)
    (reaches : ∀ rest, lex d (s.toList ++ rest) = Token.before ts (run d q rest)) :
    Lexes d s (ts ++ [t]) := by
  intro rest breaks
  rw [reaches, run_ended ended breaks, closes, Token.before_append]

theorem Delimited.of_run (ts : List Token) {t : Token}
    (reaches : ∀ rest, lex d (s.toList ++ rest) = Token.before ts (run d (.whole t) rest)) :
    Delimited d s (ts ++ [t]) := by
  intro rest _
  rw [reaches, run_whole, Token.before_append]

theorem start_digit {c : Char} (h : c.isDigit) : start d c = some (.digits false (digit c)) := by
  have notBlank : c ≠ ' ' := by
    rintro rfl
    cases h
  simp only [start, notBlank, h, if_true, if_false]

/-- The digits of a number, and the number that is read off them. -/
theorem exists_digits (n : Nat) :
    ∃ c cs, (toString n).toList = c :: cs ∧ (∀ x ∈ c :: cs, x.isDigit) ∧
      Nat.ofDigitChars 10 cs (digit c) = n := by
  obtain ⟨c, cs, digits⟩ := List.exists_cons_of_ne_nil (Nat.toDigits_ne_nil (n := n) (b := 10))
  refine ⟨c, cs, ?_, fun x hx => ?_, ?_⟩
  · rw [Nat.toString_eq_ofList_toDigits, String.toList_ofList, digits]
  · exact Nat.isDigit_of_mem_toDigits (by decide) (by decide) (digits ▸ hx)
  · have value : Nat.ofDigitChars 10 (c :: cs) 0 = n := by
      rw [← digits, Nat.ofDigitChars_toDigits (by decide) (by decide)]
    rwa [Nat.ofDigitChars_cons, Nat.mul_zero, Nat.zero_add] at value

theorem lexes_number (n : Nat) : Lexes d (toString n) [.number n] := by
  refine .of_run [] (ended_digits false n) (fun _ => rfl) fun rest => ?_
  obtain ⟨c, cs, digits, decimal, value⟩ := exists_digits n
  rw [digits, List.cons_append, lex, run, State.extend_between, start_digit (decimal c (by simp))]
  simp only [State.close, Token.before_nil]
  rw [run_digits _ _ _ _ _ fun x hx => decimal x (by simp [hx]), value]

theorem lexes_quoteIdent (ident : String) (plain : d = .clickhouse → '\\' ∉ ident.toList) :
    Lexes d (d.quoteIdent ident) [.name ident] := by
  refine .of_run (q := .closed d.quoteMark ident.toList) [] (ended_closed (by simp) _)
    (fun _ => ?_) fun rest => ?_
  · cases d <;> simp [State.close, Dialect.quoteMark]
  · have opens : start d d.quoteMark = some (.quoted d.quoteMark []) := by cases d <;> rfl
    rw [Dialect.quoteIdent, String.toList_ofList, List.cons_append, List.cons_append,
      List.append_assoc, lex, run, State.extend_between, opens]
    exact run_quoted d ident.toList rest [] plain

/-- The number that the placeholder of a parameter shows. -/
def Dialect.shownNumber : Dialect → Nat → Option Nat
  | .postgres, n => some n
  | _, _ => none

theorem lexes_placeholder (n : Nat) :
    Lexes d (d.placeholder n) [.placeholder (d.shownNumber n)] := by
  have unnumbered {d : Dialect} (h : d ≠ .postgres) : Delimited d "?" [.placeholder none] :=
    .of_run [] fun rest => by cases d <;> first | rfl | exact absurd rfl h
  cases d with
  | postgres =>
    refine .of_run [] (ended_digits true n) (fun _ => rfl) fun rest => ?_
    obtain ⟨c, cs, digits, decimal, value⟩ := exists_digits n
    have first : (State.dollar).extend .postgres c = some (.digits true (digit c)) := by
      simp [State.extend, decimal c]
    rw [Dialect.placeholder, String.toList_append, digits]
    change run .postgres .dollar (c :: (cs ++ rest)) = _
    rw [run, first]
    simp only [Token.before_nil]
    rw [run_digits _ _ _ _ _ fun x hx => decimal x (by simp [hx]), value]
  | sqlite => exact (unnumbered (by simp)).lexes
  | duckdb => exact (unnumbered (by simp)).lexes
  | clickhouse => exact (unnumbered (by simp)).lexes

example : lex .sqlite "\"who?\"\"s\" = ?".toList =
    some [.name "who?\"s", .comparison .eq, .placeholder none] := rfl

end Spelling

end FilterSql
