import FilterSql.Proofs.Sql.RoundTrip

/-!
Constants in the text of conditions.

The constants `1=1` and `1=0` are written for tests against empty lists and for groups without
members. In a condition that is `Predicate.Proper` no group is degenerate, so all constants are
tests against empty lists, listed by `Predicate.emptyLists`. This is said of the text as it is put
together (`Predicate.Proper.constants_fragment`) and, where identifiers are read back as they are,
of the tokens that it is cut into (`Predicate.Proper.constants_render`).
-/

namespace FilterSql

namespace Predicate

/-- A condition without degenerate groups: at any depth a group has two members or more, and a
statement has one condition at most. -/
inductive Proper : Predicate → Prop where
  | and {items : List Predicate} (several : 2 ≤ items.length) (each : ∀ p ∈ items, Proper p) :
    Proper (.and items)
  | or {items : List Predicate} (several : 2 ≤ items.length) (each : ∀ p ∈ items, Proper p) :
    Proper (.or items)
  | compare (column : ColumnRef) (op : Comparison) (value : SqlValue) :
    Proper (.compare column op value)
  | like (column : ColumnRef) (pattern : String) (negated caseInsensitive : Bool) :
    Proper (.like column pattern negated caseInsensitive)
  | inList (column : ColumnRef) (values : List SqlValue) (negated : Bool) :
    Proper (.inList column values negated)
  | between (column : ColumnRef) (low high : SqlValue) (negated : Bool) :
    Proper (.between column low high negated)
  | isNull (column : ColumnRef) (negated : Bool) : Proper (.isNull column negated)
  | inSelect (column : ColumnRef) {s : Select} (single : s.predicates.length ≤ 1)
    (each : ∀ p ∈ s.predicates, Proper p) : Proper (.inSelect column s)

mutual

/-- The tests against empty lists in a condition, in order, those in statements inside it included.
A negated test holds and the other kind fails. -/
def emptyLists : Predicate → List Bool
  | .and items => emptyListsAll items
  | .or items => emptyListsAll items
  | .compare _ _ _ => []
  | .like _ _ _ _ => []
  | .inList _ values negated => if values.isEmpty then [negated] else []
  | .between _ _ _ _ => []
  | .isNull _ _ => []
  | .inSelect _ select => emptyListsOf select

/-- The tests against empty lists in conditions. -/
def emptyListsAll : List Predicate → List Bool
  | [] => []
  | p :: rest => emptyLists p ++ emptyListsAll rest

/-- The tests against empty lists in a statement. -/
def emptyListsOf : SelectOf Predicate → List Bool
  | ⟨_, _, _, predicates, _, _, _⟩ => emptyListsAll predicates

end

theorem emptyListsAll_eq_flatMap (ps : List Predicate) :
    emptyListsAll ps = ps.flatMap emptyLists := by
  induction ps with
  | nil => rfl
  | cons p rest ih => rw [emptyListsAll, List.flatMap_cons, ih]

end Predicate

/-! ### Constants among the pieces of a text -/

/-- The constant that a piece of text is, if it is one. -/
def Piece.constant? : Piece → Option Bool
  | .text s => if s = trueSql then some true else if s = falseSql then some false else none
  | .operand _ => none

namespace Fragment

variable {d : Dialect}

/-- The constants of a text, in order. -/
def constants (f : Fragment) : List Bool := f.filterMap Piece.constant?

@[simp] theorem constants_append (f g : Fragment) :
    constants (f ++ g) = constants f ++ constants g := List.filterMap_append

theorem constants_ofText (b : Bool) :
    constants (ofText (if b then trueSql else falseSql)) = [b] := by
  cases b <;> decide

/-- A text with a blank in it is no constant. -/
theorem constants_text {s : String} (blank : ' ' ∈ s.toList) (f : Fragment) :
    constants (.text s :: f) = constants f := by
  have other (t : String) (solid : ' ' ∉ t.toList) : s ≠ t := by
    rintro rfl
    exact solid blank
  have none : (Piece.text s).constant? = none := by
    rw [Piece.constant?, if_neg (other _ (by decide)), if_neg (other _ (by decide))]
  rw [constants, List.filterMap_cons, none, constants]

theorem constants_ofValue (v : SqlValue) : constants (ofValue d v) = [] := by
  cases v with
  | bool b => cases d <;> cases b <;> decide
  | _ => rfl

theorem constants_joinWith {sep : String} (blank : ' ' ∈ sep.toList) (fs : List Fragment) :
    constants (joinWith sep fs) = fs.flatMap constants := by
  induction fs with
  | nil => rfl
  | cons f rest ih =>
    cases rest with
    | nil => simp [joinWith]
    | cons g rest =>
      rw [List.flatMap_cons, ← ih, ← constants_text blank (joinWith sep (g :: rest)),
        ← constants_append]
      rfl

/-- A group of two members or more is no constant. -/
theorem constants_group (op : Connective) {fs : List Fragment} (several : 2 ≤ fs.length) :
    constants (group op fs) = fs.flatMap constants := by
  match fs, several with
  | f :: g :: rest, _ =>
    have blank : ' ' ∈ (" " ++ op.keyword ++ " ").toList := by cases op <;> decide
    have parentheses : constants (ofText "(") = [] ∧ constants (ofText ")") = [] := by decide
    calc constants (group op (f :: g :: rest))
      _ = constants (ofText "(" ++ joinWith (" " ++ op.keyword ++ " ") (f :: g :: rest)
          ++ ofText ")") := rfl
      _ = (f :: g :: rest).flatMap constants := by
        rw [constants_append, constants_append, parentheses.1, parentheses.2,
          constants_joinWith blank, List.nil_append, List.append_nil]

theorem constants_membership (column : ColumnRef) (values : List SqlValue) (negated : Bool) :
    constants (membership d column values negated) = if values.isEmpty then [negated] else [] := by
  rw [membership]
  split
  · exact constants_ofText negated
  · have silent : (values.map (ofValue d)).flatMap constants = [] := by
      simp [constants_ofValue]
    have closing : constants (ofText ")") = [] := by decide
    have opening : ' ' ∈ (column.sql d ++ " " ++ negation negated ++ "IN (").toList := by simp
    rw [List.cons_append, constants_text opening, constants_append,
      constants_joinWith (by decide), silent, closing, List.append_nil]

/-- The constants of a statement are those of its conditions. -/
theorem constants_select (s : SelectOf Fragment) :
    constants (select d s) = s.predicates.flatMap constants := by
  have head (columns : String) : ' ' ∈
      ("SELECT " ++ columns ++ " FROM " ++ d.quoteIdent s.collection).toList := by simp
  have joins : constants (s.joins.map fun j => Piece.text (" " ++ j.sql d)) = [] := by
    induction s.joins with
    | nil => rfl
    | cons j rest ih => rw [List.map_cons, constants_text (by simp), ih]
  have conditions : constants (if s.predicates.isEmpty then []
      else .text " WHERE " :: joinWith " AND " s.predicates) = s.predicates.flatMap constants := by
    split
    · next none => rw [List.isEmpty_iff.mp none]; rfl
    · rw [constants_text (by decide), constants_joinWith (by decide)]
  have ordering (entries : String) : constants (if s.orderBy.isEmpty then []
      else ofText (" ORDER BY " ++ entries)) = [] := by
    split
    · rfl
    · exact constants_text (by simp) []
  have paging (limit : String) :
      constants (if limit = "" then [] else ofText (" " ++ limit)) = [] := by
    split
    · rfl
    · exact constants_text (by simp) []
  simp only [select, List.cons_append, constants_append, constants_text (head _), joins, conditions,
    ordering, paging, List.nil_append, List.append_nil]

end Fragment

theorem predicateFragments_eq_map (d : Dialect) (ps : List Predicate) :
    predicateFragments d ps = ps.map (·.fragment d) := by
  induction ps with
  | nil => rfl
  | cons p rest ih => rw [predicateFragments, ih, List.map_cons]

namespace Predicate

variable {d : Dialect} {p : Predicate}

/-- Conditions are rendered with the constants of each. -/
theorem flatMap_constants {ps : List Predicate}
    (each : ∀ p ∈ ps, (p.fragment d).constants = p.emptyLists) :
    (predicateFragments d ps).flatMap Fragment.constants = emptyListsAll ps := by
  rw [predicateFragments_eq_map, emptyListsAll_eq_flatMap, List.flatMap_map]
  exact List.flatMap_congr each

/-- The constants of a proper condition are its tests against empty lists. -/
theorem Proper.constants_fragment (proper : p.Proper) (d : Dialect) :
    (p.fragment d).constants = p.emptyLists := by
  induction proper with
  | and several each ih =>
    exact (Fragment.constants_group .and (by simpa [predicateFragments_eq_map] using several)).trans
      (flatMap_constants ih)
  | or several each ih =>
    exact (Fragment.constants_group .or (by simpa [predicateFragments_eq_map] using several)).trans
      (flatMap_constants ih)
  | compare column op value =>
    exact (Fragment.constants_text (by simp) _).trans (Fragment.constants_ofValue value)
  | like column pattern negated caseInsensitive =>
    have escape : (Fragment.ofText d.likeEscape).constants = [] := by cases d <;> decide
    exact (Fragment.constants_text (by simp) _).trans escape
  | inList column values negated => exact Fragment.constants_membership column values negated
  | between column low high negated =>
    have bounds : (Fragment.ofValue d low ++ .text " AND " :: Fragment.ofValue d high).constants =
        [] := by
      rw [Fragment.constants_append, Fragment.constants_text (by decide),
        Fragment.constants_ofValue, Fragment.constants_ofValue, List.append_nil]
    exact (Fragment.constants_text (by simp) _).trans bounds
  | isNull column negated => exact Fragment.constants_text (by simp) []
  | @inSelect column s single each ih =>
    have closing : (Fragment.ofText ")").constants = [] := by decide
    obtain ⟨collection, columns, joins, predicates, orderBy, limit, offset⟩ := s
    have conditions : (predicateFragments d predicates).flatMap Fragment.constants =
        emptyListsAll predicates := flatMap_constants ih
    rw [fragment, List.cons_append, Fragment.constants_text (by simp), Fragment.constants_append,
      closing, List.append_nil]
    exact (Fragment.constants_select
      ⟨collection, columns, joins, predicateFragments d predicates, orderBy, limit, offset⟩).trans
      conditions

end Predicate

/-! ### Constants among the tokens of a text -/

namespace Token

variable {d : Dialect} {ts us : List Token} {bs cs : List Bool}

/-- The equations of two numbers among tokens, in order, as true or false. -/
def constants : List Token → List Bool
  | .number m :: .comparison .eq :: .number n :: ts => decide (m = n) :: constants ts
  | _ :: ts => constants ts
  | [] => []

/-- Tokens that do not begin with a comparison, so that they make no equation of a number in front
of them. -/
def Unrelated (ts : List Token) : Prop := ∀ op, ts.head? ≠ some (.comparison op)

/-- Tokens with given constants, in front of any tokens that make no equation of their last one. -/
def Yields (ts : List Token) (bs : List Bool) : Prop :=
  ∀ rest, Unrelated rest → constants (ts ++ rest) = bs ++ constants rest

theorem Unrelated.append (first : Unrelated ts) (second : Unrelated us) : Unrelated (ts ++ us) := by
  cases ts with
  | nil => exact second
  | cons t ts => exact first

theorem constants_cons {t : Token} (other : ∀ n, t ≠ .number n) (ts : List Token) :
    constants (t :: ts) = constants ts := by
  rw [constants]
  rintro m n us rfl
  exact absurd rfl (other m)

theorem yields_nil : Yields [] [] := fun _ _ => rfl

theorem Yields.append (first : Yields ts bs) (second : Yields us cs) (unrelated : Unrelated us) :
    Yields (ts ++ us) (bs ++ cs) := by
  intro rest separate
  rw [List.append_assoc, first _ (unrelated.append separate), second rest separate,
    List.append_assoc]

/-- A token in front that is no number. -/
theorem Yields.cons {t : Token} (later : Yields ts bs) (other : ∀ n, t ≠ .number n) :
    Yields (t :: ts) bs := by
  intro rest separate
  rw [List.cons_append, constants_cons other, later rest separate]

/-- Tokens in front that are no numbers. -/
theorem Yields.after (later : Yields us bs) (other : ∀ t ∈ ts, ∀ n, t ≠ .number n) :
    Yields (ts ++ us) bs := by
  induction ts with
  | nil => exact later
  | cons t ts ih =>
    obtain ⟨first, rest⟩ := List.forall_mem_cons.mp other
    exact (ih rest).cons first

theorem yields_of_ne_number (other : ∀ t ∈ ts, ∀ n, t ≠ .number n) : Yields ts [] := by
  simpa using yields_nil.after other

theorem yields_number (n : Nat) : Yields [.number n] [] := by
  intro rest separate
  match rest with
  | [] => rfl
  | t :: ts =>
    have apart : t ≠ .comparison .eq := fun same => separate .eq (by rw [same]; rfl)
    simp [constants, apart]

theorem yields_ofValue (v : SqlValue) : Yields [ofValue d v] [] := by
  cases v with
  | bool b =>
    by_cases digits : d = .sqlite
    · simpa [ofValue, bool, digits] using yields_number _
    · simpa [ofValue, bool, digits] using yields_nil.cons (by simp)
  | _ => exact yields_nil.cons fun _ => nofun

theorem yields_truth (b : Bool) : Yields (truth b) [b] := by
  intro rest _
  cases b <;> rfl

/-- A separator that is neither a number nor a comparison. -/
theorem yields_separated {α : Type} {t : Token} {tokens : α → List Token} {listed : α → List Bool}
    {xs : List α} (number : ∀ n, t ≠ .number n) (comparison : ∀ op, t ≠ .comparison op)
    (each : ∀ x ∈ xs, Yields (tokens x) (listed x)) :
    Yields (separated t (xs.map tokens)) (xs.flatMap listed) := by
  induction xs with
  | nil => exact yields_nil
  | cons x rest ih =>
    obtain ⟨first, later⟩ := List.forall_mem_cons.mp each
    cases rest with
    | nil => simpa [separated] using first
    | cons y rest =>
      refine first.append ((ih later).cons number) fun op same => ?_
      exact comparison op (Option.some.inj same)

theorem Yields.closing (first : Yields ts bs) : Yields (ts ++ [.rightParen]) bs := by
  have whole := first.append (yields_nil.cons (t := .rightParen) fun _ => nofun)
    fun _ => by simp
  rwa [List.append_nil] at whole

theorem yields_column (c : ColumnRef) (later : Yields ts bs) : Yields (c.tokens ++ ts) bs :=
  later.after (by simp [ColumnRef.tokens])

theorem yields_group (op : Connective) {α : Type} {tokens : α → List Token} {listed : α → List Bool}
    {xs : List α} (several : 2 ≤ xs.length) (each : ∀ x ∈ xs, Yields (tokens x) (listed x)) :
    Yields (group op (xs.map tokens)) (xs.flatMap listed) := by
  have inner := yields_separated (t := connective op) (fun _ => nofun) (fun _ => nofun) each
  match xs, several with
  | x :: y :: rest, _ => exact (inner.cons (t := .leftParen) fun _ => nofun).closing

theorem yields_negated (negated : Bool) (later : Yields ts bs) :
    Yields (negation negated ++ ts) bs :=
  later.after (by cases negated <;> simp [negation])

theorem yields_membership (column : ColumnRef) (values : List SqlValue) (negated : Bool) :
    Yields (membership d column values negated) (if values.isEmpty then [negated] else []) := by
  rw [membership]
  split
  · exact yields_truth negated
  · have listed : Yields (separated .comma (values.map fun v => [ofValue d v])) [] := by
      have each : Yields (separated .comma (values.map fun v => [ofValue d v]))
          (values.flatMap fun _ => []) :=
        yields_separated (fun _ => nofun) (fun _ => nofun) fun v _ => yields_ofValue v
      rwa [List.flatMap_eq_nil_iff.mpr fun _ _ => rfl] at each
    have opened : Yields ([.word "IN", .leftParen] ++ separated .comma
        (values.map fun v => [ofValue d v])) [] := listed.after (by simp)
    have tested := yields_column column (yields_negated negated opened)
    simpa only [List.append_assoc] using tested.closing

theorem yields_limitOffset (limit offset : Option Nat) :
    Yields (limitOffset d limit offset) [] := by
  have number (n : Nat) (word : String) : Yields [.word word, .number n] [] :=
    (yields_number n).cons fun _ => nofun
  match limit, offset with
  | some limit, some offset =>
    exact (number limit "LIMIT").append (number offset "OFFSET") fun _ => by simp
  | some limit, none => exact number limit "LIMIT"
  | none, some offset =>
    by_cases limited : d = .sqlite
    · have all : Yields ([.word "LIMIT", .minus] ++ [.number 1]) [] :=
        (yields_number 1).after (by simp)
      simpa [limitOffset, limited] using all.append (number offset "OFFSET") fun _ => by simp
    · simpa [limitOffset, limited] using number offset "OFFSET"
  | none, none => exact yields_nil

theorem mem_separated {t u : Token} {tss : List (List Token)} (mem : u ∈ separated t tss) :
    u = t ∨ ∃ ts ∈ tss, u ∈ ts := by
  induction tss with
  | nil => cases mem
  | cons ts rest ih =>
    cases rest with
    | nil => exact .inr ⟨ts, by simp, mem⟩
    | cons us rest =>
      rw [separated, List.mem_append, List.mem_cons] at mem
      · rcases mem with first | same | later
        · exact .inr ⟨ts, by simp, first⟩
        · exact .inl same
        · rcases ih later with same | ⟨vs, among, inside⟩
          · exact .inl same
          · exact .inr ⟨vs, .tail _ among, inside⟩
      · simp

theorem columnList_ne_number (table : String) (columns : List String) :
    ∀ t ∈ columnList table columns, ∀ n, t ≠ .number n := by
  rintro t mem n rfl
  cases columns with
  | nil => simp [columnList] at mem
  | cons c rest =>
    rcases mem_separated mem with same | ⟨ts, among, inside⟩
    · cases same
    · obtain ⟨c, -, rfl⟩ := List.mem_map.mp among
      simp [ColumnRef.tokens] at inside

theorem orderClause_ne_number (orderBy : List OrderEntry) :
    ∀ t ∈ orderClause orderBy, ∀ n, t ≠ .number n := by
  rintro t mem n rfl
  rw [orderClause] at mem
  split at mem
  · cases mem
  · rcases List.mem_append.mp mem with head | entries
    · simp at head
    · rcases mem_separated entries with same | ⟨ts, among, inside⟩
      · cases same
      · obtain ⟨o, -, rfl⟩ := List.mem_map.mp among
        simp [OrderEntry.tokens, ColumnRef.tokens] at inside

theorem joins_ne_number (joins : List Join) :
    ∀ t ∈ joins.flatMap Join.tokens, ∀ n, t ≠ .number n := by
  rintro t mem n rfl
  obtain ⟨j, -, inside⟩ := List.mem_flatMap.mp mem
  simp [Join.tokens, ColumnRef.tokens] at inside

theorem unrelated_limitOffset (limit offset : Option Nat) :
    Unrelated (limitOffset d limit offset) := by
  intro op
  cases limit <;> cases offset <;> cases d <;> simp [limitOffset]

theorem unrelated_orderClause (orderBy : List OrderEntry) : Unrelated (orderClause orderBy) := by
  intro op
  rw [orderClause]
  split <;> simp

/-- The constants of a statement are those of its conditions. -/
theorem yields_select {collection : String} {columns : List String} {joins : List Join}
    {orderBy : List OrderEntry} {limit offset : Option Nat} {α : Type} {tokens : α → List Token}
    {listed : α → List Bool} {xs : List α} (each : ∀ x ∈ xs, Yields (tokens x) (listed x)) :
    Yields (select d ⟨collection, columns, joins, xs.map tokens, orderBy, limit, offset⟩)
      (xs.flatMap listed) := by
  have conditions : Yields (whereClause (xs.map tokens)) (xs.flatMap listed) := by
    have inner := yields_separated (t := connective .and) (fun _ => nofun) (fun _ => nofun) each
    cases xs with
    | nil => exact yields_nil
    | cons x rest => exact inner.cons fun _ => nofun
  have paging : Yields (orderClause orderBy ++ limitOffset d limit offset) [] :=
    (yields_limitOffset limit offset).after (orderClause_ne_number orderBy)
  have behind := conditions.append paging
    ((unrelated_orderClause orderBy).append (unrelated_limitOffset limit offset))
  rw [List.append_nil] at behind
  have named : Yields ([.word "FROM", .name collection] ++ (joins.flatMap Join.tokens ++
      (whereClause (xs.map tokens) ++ (orderClause orderBy ++ limitOffset d limit offset))))
      (xs.flatMap listed) := (behind.after (joins_ne_number joins)).after (by simp)
  have whole := (named.after (columnList_ne_number collection columns)).cons
    (t := .word "SELECT") fun _ => nofun
  simpa only [select, List.append_assoc, List.cons_append] using whole

/-- Placeholders make no equation. -/
theorem exists_of_withPlaceholders_eq {bound n : Nat} {op : Comparison}
    (same : withPlaceholders d bound ts = .comparison op :: .number n :: us) :
    ∃ us', ts = .comparison op :: .number n :: us' := by
  match ts with
  | [] => cases same
  | t :: [] => cases t <;> simp [withPlaceholders] at same
  | t :: t' :: ts =>
    cases t <;> simp only [withPlaceholders, List.cons.injEq, reduceCtorEq, false_and,
      Token.comparison.injEq] at same
    obtain ⟨rfl, same⟩ := same
    cases t' <;> simp only [withPlaceholders, List.cons.injEq, reduceCtorEq, false_and,
      Token.number.injEq] at same
    obtain ⟨rfl, -⟩ := same
    exact ⟨ts, rfl⟩

/-- What is no number stays none. -/
theorem withPlaceholders_cons (d : Dialect) {t : Token} (other : ∀ n, t ≠ .number n) (bound : Nat)
    (ts : List Token) :
    ∃ t' bound', withPlaceholders d bound (t :: ts) = t' :: withPlaceholders d bound' ts ∧
      ∀ n, t' ≠ .number n := by
  cases t with
  | placeholder _ | operand _ => exact ⟨_, bound + 1, rfl, fun _ => nofun⟩
  | _ => exact ⟨_, bound, rfl, other⟩

/-- Placeholders make no constant and hide none. -/
theorem constants_withPlaceholders (d : Dialect) (bound : Nat) (ts : List Token) :
    constants (withPlaceholders d bound ts) = constants ts := by
  fun_induction constants ts generalizing bound with
  | case1 m n ts ih => simp [withPlaceholders, constants, ih]
  | case2 t ts apart ih =>
    by_cases number : ∃ m, t = .number m
    · obtain ⟨m, rfl⟩ := number
      rw [withPlaceholders, constants, ih]
      · intro _ n us _ equation
        obtain ⟨us', rfl⟩ := exists_of_withPlaceholders_eq equation
        exact apart m n us' rfl rfl
      all_goals simp
    · obtain ⟨t', bound', step, other⟩ :=
        withPlaceholders_cons d (not_exists.mp number) bound ts
      rw [step, constants_cons other, ih]
  | case3 => rfl

end Token

namespace Predicate

variable {d : Dialect} {p : Predicate}

/-- The constants in the wording of a proper condition are its tests against empty lists. -/
theorem Proper.yields_tokens (proper : p.Proper) (d : Dialect) :
    Token.Yields (p.tokens d) p.emptyLists := by
  induction proper with
  | and several each ih =>
    rw [tokens, tokensAll_eq_map, emptyLists, emptyListsAll_eq_flatMap]
    exact Token.yields_group .and several ih
  | or several each ih =>
    rw [tokens, tokensAll_eq_map, emptyLists, emptyListsAll_eq_flatMap]
    exact Token.yields_group .or several ih
  | compare column op value =>
    rw [tokens, List.append_assoc]
    exact Token.yields_column column ((Token.yields_ofValue value).cons (by simp))
  | like column pattern negated caseInsensitive =>
    refine Token.yields_of_ne_number ?_
    cases negated <;> cases caseInsensitive <;> cases d <;>
      simp [tokens, Token.tested, Token.negation, Token.likeEscape, ColumnRef.tokens]
  | inList column values negated => exact Token.yields_membership column values negated
  | between column low high negated =>
    have above : Token.Yields [.word "AND", Token.ofValue d high] [] :=
      (Token.yields_ofValue high).cons (by simp)
    have bounds := (Token.yields_ofValue (d := d) low).append above fun _ => by simp
    have worded := bounds.cons (t := .word "BETWEEN") (by simp)
    simpa [tokens, emptyLists] using
      Token.yields_column column (Token.yields_negated negated worded)
  | isNull column negated =>
    refine Token.yields_of_ne_number ?_
    cases negated <;> simp [tokens, Token.negation, ColumnRef.tokens]
  | @inSelect column s single each ih =>
    obtain ⟨collection, columns, joins, predicates, orderBy, limit, offset⟩ := s
    have select : Token.Yields (tokensOf d
        ⟨collection, columns, joins, predicates, orderBy, limit, offset⟩)
        (emptyListsAll predicates) := by
      rw [tokensOf, tokensAll_eq_map, emptyListsAll_eq_flatMap]
      exact Token.yields_select ih
    have opened : Token.Yields ([.word "IN", .leftParen] ++ tokensOf d
        ⟨collection, columns, joins, predicates, orderBy, limit, offset⟩)
        (emptyListsAll predicates) := select.after (by simp)
    simpa only [tokens, List.append_assoc, emptyLists, emptyListsOf] using
      (Token.yields_column column opened).closing

/-- Where identifiers are read back as they are, the text of a proper condition is cut into tokens
whose equations of numbers are the tests of the condition against empty lists. -/
theorem Proper.constants_render (proper : p.Proper) (d : Dialect)
    (plain : d.Delimits p.identifiers) (params : List SqlValue) :
    (lex d (p.render d params).1.toList).map Token.constants = some p.emptyLists := by
  have whole := (p.fragment_lexes plain).2 params.length [] (by simp [Lexer.Breaks])
  have none : lex d [] = some [] := rfl
  have listed := proper.yields_tokens d [] (by simp [Token.Unrelated])
  rw [List.append_nil, none, Token.before_some, List.append_nil] at whole
  rw [List.append_nil] at listed
  rw [render, Fragment.render, whole, Option.map_some, Token.constants_withPlaceholders, listed]
  exact congrArg some (List.append_nil _)

end Predicate

end FilterSql
