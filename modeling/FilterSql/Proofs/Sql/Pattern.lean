import FilterSql.Sql.Like
import Mathlib.Data.List.Infix

/-!
What a `LIKE` pattern matches.

A pattern is read as tokens (`Like.tokens?`): `%` stands for any characters, `_` for one character,
and a backslash makes the next character stand for itself. A pattern that ends in such a backslash
says nothing. `Like.answer` is the answer that a database gives for a pattern and a text, if it
gives one.

`Like.answer_containing` says that the pattern made of a text is a proper one and matches the texts
with that text somewhere in them, and no others. The escaping behind it goes through the characters
once; `Like.escapeChars_eq_putEscapes` says that this is the same as putting backslashes before one
sort of metacharacter after another, as long as the backslashes themselves come first.
-/

namespace FilterSql

namespace Like

/-! ### Patterns -/

/-- What a part of a pattern asks for. -/
inductive Token where
  /-- any characters, or none -/
  | any
  /-- one character, whatever it is -/
  | one
  /-- a given character -/
  | char (c : Char)
  deriving DecidableEq, Repr

/-- The token of a character without a backslash before it. -/
def token (c : Char) : Token :=
  if c = '%' then .any else if c = '_' then .one else .char c

/-- The tokens of the rest of a pattern, in which a backslash has escaped the first character or has
not. An escape in front of nothing has none. -/
def tokensAfter : (escaped : Bool) → List Char → Option (List Token)
  | false, [] => some []
  | true, [] => none
  | true, c :: rest => (tokensAfter false rest).map (.char c :: ·)
  | false, c :: rest =>
    if c = '\\' then tokensAfter true rest else (tokensAfter false rest).map (token c :: ·)

/-- The tokens of a pattern. -/
def tokens? (pattern : List Char) : Option (List Token) := tokensAfter false pattern

/-- Whether a text is what tokens ask for. -/
def accepts : List Token → List Char → Bool
  | [], cs => cs.isEmpty
  | .any :: ts, cs => cs.tails.any (accepts ts)
  | .one :: ts, cs =>
    match cs with
    | [] => false
    | _ :: rest => accepts ts rest
  | .char c :: ts, cs =>
    match cs with
    | [] => false
    | d :: rest => d == c && accepts ts rest

/-- Whether a text matches a pattern, if the pattern is a proper one. -/
def answer (pattern text : String) : Option Bool :=
  (tokens? pattern.toList).map fun ts => accepts ts text.toList

example : answer "100\\" "100" = none := by decide +kernel

/-! ### Texts that tokens accept -/

@[simp] theorem accepts_nil (cs : List Char) : accepts [] cs = true ↔ cs = [] := by
  simp [accepts]

@[simp] theorem accepts_any (ts : List Token) (cs : List Char) :
    accepts (.any :: ts) cs = true ↔ ∃ rest, rest <:+ cs ∧ accepts ts rest = true := by
  simp [accepts]

/-- Any characters are what the token for them asks for. -/
theorem accepts_any_only (cs : List Char) : accepts [.any] cs = true := by
  simp

/-- Characters that stand for themselves ask for a text that begins with them. -/
theorem accepts_chars (literal : List Char) (ts : List Token) (cs : List Char) :
    accepts (literal.map .char ++ ts) cs = true ↔
      ∃ rest, cs = literal ++ rest ∧ accepts ts rest = true := by
  induction literal generalizing cs with
  | nil => simp
  | cons c literal ih =>
      cases cs with
      | nil => simp [accepts]
      | cons d cs =>
          simp only [List.map_cons, List.cons_append, accepts, Bool.and_eq_true, beq_iff_eq, ih,
            List.cons.injEq]
          constructor
          · rintro ⟨rfl, rest, rfl, accepted⟩
            exact ⟨rest, ⟨rfl, rfl⟩, accepted⟩
          · rintro ⟨rest, ⟨rfl, rfl⟩, accepted⟩
            exact ⟨rfl, rest, rfl, accepted⟩

/-! ### Escaped characters -/

/-- An escaped character stands for itself. -/
theorem tokens?_escaped (c : Char) (rest : List Char) :
    tokens? ((if isMeta c then ['\\', c] else [c]) ++ rest) =
      (tokens? rest).map (.char c :: ·) := by
  cases special : isMeta c with
  | true => simp [tokens?, tokensAfter]
  | false =>
      simp only [isMeta, Bool.or_eq_false_iff, beq_eq_false_iff_ne] at special
      obtain ⟨⟨backslash, percent⟩, underscore⟩ := special
      simp [tokens?, tokensAfter, token, backslash, percent, underscore]

/-- Escaped characters stand for themselves, whatever follows them. -/
theorem tokens?_escapeChars (cs rest : List Char) :
    tokens? (escapeChars cs ++ rest) = (tokens? rest).map (cs.map .char ++ ·) := by
  induction cs with
  | nil => simp [escapeChars]
  | cons c cs ih =>
      have parts : escapeChars (c :: cs) ++ rest =
          (if isMeta c then ['\\', c] else [c]) ++ (escapeChars cs ++ rest) := by
        simp [escapeChars]
      rw [parts, tokens?_escaped, ih, Option.map_map]
      rfl

/-- An escaped text matches itself and nothing else. -/
theorem answer_escape (s t : String) : answer (escape s) t = some (decide (t = s)) := by
  have tokens : tokens? (escape s).toList = some (s.toList.map .char) := by
    have read := tokens?_escapeChars s.toList []
    simpa [escape, tokens?, tokensAfter] using read
  have same : accepts (s.toList.map .char) t.toList = true ↔ t = s := by
    have accepted := accepts_chars s.toList [] t.toList
    rw [List.append_nil] at accepted
    simp [accepted, String.toList_inj]
  rw [answer, tokens, Option.map_some, Option.some_inj, Bool.eq_iff_iff, same, decide_eq_true_iff]

/-- The pattern made of a text asks for its characters with any others around them. -/
theorem tokens?_containing (s : String) :
    tokens? (containing s).toList = some (.any :: (s.toList.map .char ++ [.any])) := by
  have last : tokens? ['%'] = some [.any] := rfl
  have read := tokens?_escapeChars s.toList ['%']
  rw [last] at read
  rw [tokens?] at read ⊢
  simp [containing, tokensAfter, token, read]

/-- Characters with any others around them are what a text has in it as they stand. -/
theorem accepts_around (literal cs : List Char) :
    accepts (.any :: (literal.map .char ++ [.any])) cs = true ↔ literal <:+: cs := by
  rw [accepts_any, List.infix_iff_prefix_suffix]
  refine exists_congr fun rest => ?_
  rw [accepts_chars, and_comm]
  simp [accepts_any_only, List.IsPrefix, eq_comm]

/-- The pattern made of a text is a proper one, and a text matches it exactly if it has the given
text in it as it stands. -/
theorem answer_containing (s t : String) :
    answer (containing s) t = some (decide (s.toList <:+: t.toList)) := by
  rw [answer, tokens?_containing, Option.map_some, Option.some_inj, Bool.eq_iff_iff, accepts_around,
    decide_eq_true_iff]

example : answer (containing "5%_\\") "was 15%_\\ off" = some true := by decide +kernel

example : answer (containing "5%_\\") "was 15 off" = some false := by decide +kernel

/-! ### Escaping in passes -/

/-- Characters with a backslash before each occurrence of one of them. -/
def putEscapes (marked : Char) (cs : List Char) : List Char :=
  cs.flatMap fun c => if c = marked then ['\\', c] else [c]

theorem putEscapes_append (marked : Char) (cs ds : List Char) :
    putEscapes marked (cs ++ ds) = putEscapes marked cs ++ putEscapes marked ds := by
  simp [putEscapes]

/-- Metacharacters may be escaped one sort after another. Backslashes are the first, or those that
escape others would be escaped too. -/
theorem escapeChars_eq_putEscapes (cs : List Char) :
    escapeChars cs = putEscapes '_' (putEscapes '%' (putEscapes '\\' cs)) := by
  induction cs with
  | nil => rfl
  | cons c cs ih =>
      have first : escapeChars [c] = putEscapes '_' (putEscapes '%' (putEscapes '\\' [c])) := by
        by_cases backslash : c = '\\'
        · subst backslash
          rfl
        · by_cases percent : c = '%'
          · subst percent
            rfl
          · by_cases underscore : c = '_'
            · subst underscore
              rfl
            · simp [escapeChars, isMeta, putEscapes, backslash, percent, underscore]
      have split : escapeChars (c :: cs) = escapeChars [c] ++ escapeChars cs := by
        simp [escapeChars]
      rw [split, first, ih, ← putEscapes_append, ← putEscapes_append, ← putEscapes_append,
        List.singleton_append]

end Like

end FilterSql
