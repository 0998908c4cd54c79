import FilterSql.Proofs.Sql.Grammar

/-!
A rendered statement reads back as the statement itself.

A text shows the conditions of a statement as one condition, their conjunction. It does not show a
group of one member, which is that member, nor a test against no values at all, which is written as
a truth or a falsehood like the group without members. `normal` makes these identifications and no
others. The main statement is `Select.read_render`: the text and the parameters of a statement are
read as its normal form, in clickhouse if no identifier has a backslash.

The wording of a condition is read as its normal form whatever follows it: tests take their part
from the front, and groups of several members stand in parentheses. Only the conditions of a
statement are joined without parentheses, and behind them there is no connective.
-/

namespace FilterSql

namespace Predicate

/-- The conditions of a statement as a single one, if there are any. -/
def conjunction : List Predicate → List Predicate
  | [] => []
  | ps => [group .and ps]

mutual

/-- A condition without the differences that its text does not show: a group of one member is that
member, and a test against no values at all is the empty group that holds like it. -/
def normal : Predicate → Predicate
  | .and items => group .and (normalAll items)
  | .or items => group .or (normalAll items)
  | .inList _ [] negated => if negated then .and [] else .or []
  | .inSelect column select => .inSelect column (normalOf select)
  | .inList column (v :: vs) negated => .inList column (v :: vs) negated
  | .compare column op value => .compare column op value
  | .like column pattern negated caseInsensitive => .like column pattern negated caseInsensitive
  | .between column low high negated => .between column low high negated
  | .isNull column negated => .isNull column negated

/-- Conditions without the differences that their texts do not show. -/
def normalAll : List Predicate → List Predicate
  | [] => []
  | p :: rest => normal p :: normalAll rest

/-- A statement with one condition, the conjunction of its conditions, if it has any. -/
def normalOf : SelectOf Predicate → Select
  | ⟨collection, columns, joins, predicates, orderBy, limit, offset⟩ =>
    ⟨collection, columns, joins, conjunction (normalAll predicates), orderBy, limit, offset⟩

end

end Predicate

namespace Grammar

variable {d : Dialect}

/-! ### Values and lists -/

@[simp] theorem expect_cons (t : Token) (ts : List Token) : expect t (t :: ts) = some ts := by
  simp [expect]

theorem expect_eq_none {t : Token} {ts : List Token} (other : ∀ t' ∈ ts.head?, t' ≠ t) :
    expect t ts = none := by
  cases ts with
  | nil => rfl
  | cons t' ts => simp [expect, other t' rfl]

/-- Things with a token between neighbours are read one by one, if each of them is read in front of
that token and of what follows them all. -/
theorem sepBy_separated {α β : Type} {sep : Token} {item : Rule α} {tokens : β → List Token}
    {result : β → α} {xs : List β} (nonempty : xs ≠ []) {n : Nat} (enough : xs.length ≤ n)
    {rest : List Token} (ends : ∀ t ∈ rest.head?, t ≠ sep)
    (each : ∀ x ∈ xs, ∀ rest', rest' = rest ∨ (∃ ts, rest' = sep :: ts) →
      item (tokens x ++ rest') = some (result x, rest')) :
    sepBy sep item n (Token.separated sep (xs.map tokens) ++ rest)
      = some (xs.map result, rest) := by
  induction xs generalizing n with
  | nil => exact absurd rfl nonempty
  | cons x xs ih =>
    obtain ⟨n, rfl⟩ : ∃ m, n = m + 1 := ⟨n - 1, by simp at enough; omega⟩
    cases xs with
    | nil =>
      have first := each x (by simp) rest (.inl rfl)
      simp [Token.separated, sepBy, first, expect_eq_none ends]
    | cons y ys =>
      have first := fun ts => each x (by simp) (sep :: ts) (.inr ⟨ts, rfl⟩)
      have later := ih (by simp) (by simpa using enough) fun z hz => each z (by simp [hz])
      simp only [List.map_cons] at later
      simp [Token.separated, sepBy, first, later]

theorem value_ofValue (v : SqlValue) (rest : List Token) :
    value d (Token.ofValue d v :: rest) = some (v, rest) := by
  cases v with
  | bool b => cases d <;> cases b <;> rfl
  | _ => rfl

theorem pattern_likeEscape (p : String) (rest : List Token) :
    pattern d (.operand (.text p) :: Token.likeEscape d ++ rest) = some (p, rest) := by
  cases d <;> rfl

/-! ### Tests of a column -/

section Tests

variable {n : Nat} {rest : List Token} {c : ColumnRef}

theorem condition_column (c : ColumnRef) (ts : List Token) :
    condition d (n + 1) (c.tokens ++ ts)
      = test d n (select d (condition d n) n) c ts := rfl

theorem condition_truth (b : Bool) :
    condition d (n + 1) (Token.truth b ++ rest) = some (if b then .and [] else .or [], rest) := by
  cases b <;> rfl

theorem condition_compare (op : Comparison) (v : SqlValue) :
    condition d (n + 1) ((Predicate.compare c op v).tokens d ++ rest)
      = some (.compare c op v, rest) := by
  simp only [Predicate.tokens, List.append_assoc, condition_column]
  simp [test, value_ofValue]

theorem condition_isNull (negated : Bool) :
    condition d (n + 1) ((Predicate.isNull c negated).tokens d ++ rest)
      = some (.isNull c negated, rest) := by
  cases negated <;> rfl

theorem condition_like (p : String) (negated caseInsensitive : Bool) :
    condition d (n + 1) ((Predicate.like c p negated caseInsensitive).tokens d ++ rest)
      = some (.like c p negated caseInsensitive, rest) := by
  have tested : condition d (n + 1) ((Predicate.like c p negated caseInsensitive).tokens d ++ rest)
      = (pattern d (.operand (.text p) :: Token.likeEscape d ++ rest)).bind
          fun read => some (.like c read.1 negated caseInsensitive, read.2) := by
    cases negated <;> cases caseInsensitive <;> rfl
  rw [tested, pattern_likeEscape]
  rfl

theorem condition_between (low high : SqlValue) (negated : Bool) :
    condition d (n + 1) ((Predicate.between c low high negated).tokens d ++ rest)
      = some (.between c low high negated, rest) := by
  have tested : condition d (n + 1) ((Predicate.between c low high negated).tokens d ++ rest)
      = negatable d n c negated (.word "BETWEEN" :: Token.ofValue d low :: .word "AND"
          :: Token.ofValue d high :: rest) := by
    cases negated <;> rfl
  rw [tested]
  simp [negatable, value_ofValue]

/-- A list of values is not taken for a statement. -/
theorem test_in (sel : Rule Select) (v : SqlValue) (ts : List Token) :
    test d n sel c (.word "IN" :: .leftParen :: Token.ofValue d v :: ts)
      = negatable d n c false (.word "IN" :: .leftParen :: Token.ofValue d v :: ts) := by
  cases v with
  | bool b => cases d <;> cases b <;> rfl
  | _ => rfl

theorem exists_cons_separated {α : Type} (t : Token) (first : α → Token) (x : α) (xs : List α) :
    ∃ ts, Token.separated t ((x :: xs).map fun y => [first y]) = first x :: ts := by
  cases xs with
  | nil => exact ⟨[], rfl⟩
  | cons y ys => exact ⟨_, rfl⟩

theorem condition_inList (v : SqlValue) (vs : List SqlValue) (negated : Bool)
    (enough : (v :: vs).length ≤ n) :
    condition d (n + 1) ((Predicate.inList c (v :: vs) negated).tokens d ++ rest)
      = some (.inList c (v :: vs) negated, rest) := by
  have items : sepBy .comma (value d) n
      (Token.separated .comma ((v :: vs).map fun v => [Token.ofValue d v]) ++ .rightParen :: rest)
        = some ((v :: vs).map id, .rightParen :: rest) :=
    sepBy_separated (by simp) enough (by simp) fun v _ rest' _ => value_ofValue v rest'
  obtain ⟨ts, list⟩ := exists_cons_separated .comma (Token.ofValue d) v vs
  have tested : condition d (n + 1) ((Predicate.inList c (v :: vs) negated).tokens d ++ rest)
      = negatable d n c negated
          (.word "IN" :: .leftParen :: Token.ofValue d v :: (ts ++ .rightParen :: rest)) := by
    rw [Predicate.tokens, Token.membership, if_neg (by simp), list]
    simp only [List.append_assoc, condition_column]
    cases negated with
    | true => rfl
    | false => exact test_in _ v _
  rw [list] at items
  rw [tested, negatable]
  simp only [List.cons_append] at items
  simp [items]

theorem condition_inSelect {s : Select} {ts : List Token}
    (opening : ∃ us, ts = .word "SELECT" :: us)
    (read : select d (condition d n) n (ts ++ .rightParen :: rest)
      = some (s, .rightParen :: rest)) :
    condition d (n + 1)
        (c.tokens ++ [.word "IN", .leftParen] ++ ts ++ [.rightParen] ++ rest)
      = some (.inSelect c s, rest) := by
  obtain ⟨us, rfl⟩ := opening
  simp only [List.append_assoc, List.cons_append, List.nil_append, condition_column] at read ⊢
  simp [test, read]

end Tests

/-! ### Expressions -/

section Expressions

variable {item : Rule Predicate} {n : Nat} {ts rest : List Token} {p : Predicate}

/-- A single condition is read under either connective. -/
theorem joined_single (op : Connective) (positive : 0 < n) (read : item ts = some (p, rest))
    (ends : ∀ t ∈ rest.head?, t ≠ .connective op) : joined op item n ts = some (p, rest) := by
  obtain ⟨n, rfl⟩ : ∃ m, n = m + 1 := ⟨n - 1, by omega⟩
  simp [joined, sepBy, read, expect_eq_none ends]

theorem joined_separated (op : Connective) {ps : List Predicate} {tokens : Predicate → List Token}
    {result : Predicate → Predicate} (nonempty : ps ≠ []) (enough : ps.length ≤ n)
    (ends : ∀ t ∈ rest.head?, t ≠ .connective op)
    (each : ∀ p ∈ ps, ∀ rest', rest' = rest ∨ (∃ ts, rest' = .connective op :: ts) →
      item (tokens p ++ rest') = some (result p, rest')) :
    joined op item n (Token.separated (.connective op) (ps.map tokens) ++ rest)
      = some (Predicate.group op (ps.map result), rest) := by
  simp [joined, sepBy_separated nonempty enough ends each]

/-- Conditions that are joined by one connective are read as the group of them. -/
theorem expression_separated (op : Connective) {ps : List Predicate}
    {tokens : Predicate → List Token} {result : Predicate → Predicate} (nonempty : ps ≠ [])
    (enough : ps.length ≤ n) (ends : ∀ t ∈ rest.head?, ∀ op, t ≠ .connective op)
    (each : ∀ p ∈ ps, ∀ rest', item (tokens p ++ rest') = some (result p, rest')) :
    expression item n (Token.separated (.connective op) (ps.map tokens) ++ rest)
      = some (Predicate.group op (ps.map result), rest) := by
  have positive : 0 < n := Nat.lt_of_lt_of_le (List.length_pos_iff.mpr nonempty) enough
  cases op with
  | and =>
    exact joined_single .or positive
      (joined_separated .and nonempty enough (fun t h => ends t h .and) fun p hp rest' _ =>
        each p hp rest')
      fun t h => ends t h .or
  | or =>
    refine joined_separated .or nonempty enough (fun t h => ends t h .or) fun p hp rest' next => ?_
    refine joined_single .and positive (each p hp rest') fun t ht => ?_
    obtain rfl | ⟨ts, rfl⟩ := next
    · exact ends t ht .and
    · cases ht
      simp [Token.connective, Connective.keyword]

theorem condition_group (op : Connective) {ps : List Predicate}
    {result : Predicate → Predicate} (p q : Predicate)
    (enough : (p :: q :: ps).length ≤ n)
    (each : ∀ r ∈ p :: q :: ps, ∀ rest',
      condition d n (r.tokens d ++ rest') = some (result r, rest')) :
    condition d (n + 1) (Token.group op ((p :: q :: ps).map (·.tokens d)) ++ rest)
      = some (Predicate.group op ((p :: q :: ps).map result), rest) := by
  have inner : expression (condition d n) n
      (Token.separated (.connective op) ((p :: q :: ps).map (·.tokens d)) ++ .rightParen :: rest)
        = some (Predicate.group op ((p :: q :: ps).map result), .rightParen :: rest) :=
    expression_separated op (by simp) enough (by simp [Token.connective]) each
  simp only [List.map_cons] at inner
  simp [Token.group, condition, inner]

end Expressions

/-! ### Statements -/

/-- Tokens that begin with one of the given ones, if there are any. -/
def Opens (allowed : List Token) (ts : List Token) : Prop := ∀ t ∈ ts.head?, t ∈ allowed

section Statements

variable {n : Nat} {rest : List Token}

/-- In front of tokens stands a clause that begins with a token of its own or is empty. -/
theorem Opens.clause {allowed : List Token} {t : Token} {ts : List Token}
    (after : Opens allowed rest) (opening : ts ≠ [] → ts.head? = some t) :
    Opens (t :: allowed) (ts ++ rest) := by
  cases ts with
  | nil => exact fun t' h => List.mem_cons_of_mem _ (after t' h)
  | cons t' ts =>
    intro u hu
    cases hu
    cases opening (by simp)
    simp

theorem Opens.ne {allowed : List Token} (h : Opens allowed rest) {u : Token} (other : u ∉ allowed) :
    ∀ t ∈ rest.head?, t ≠ u := by
  rintro t ht rfl
  exact other (h t ht)

/-- The table that the selected columns are qualified by, as often as it stands there. -/
def tablesOf (table : String) (columns : List String) : List String :=
  if columns.isEmpty then [table] else columns.map fun _ => table

theorem selection_columnList (table : String) (columns : List String) (enough : columns.length ≤ n)
    (ends : ∀ t ∈ rest.head?, t ≠ .comma) :
    selection n (Token.columnList table columns ++ rest)
      = some ((tablesOf table columns, columns), rest) := by
  cases columns with
  | nil => rfl
  | cons c cs =>
    have items : sepBy .comma column n (Token.columnList table (c :: cs) ++ rest)
        = some ((c :: cs).map (ColumnRef.mk table), rest) :=
      sepBy_separated (by simp) enough ends fun _ _ _ _ => rfl
    have taken : selection n (Token.columnList table (c :: cs) ++ rest)
        = (sepBy .comma column n (Token.columnList table (c :: cs) ++ rest)).bind
            fun read => some ((read.1.map (·.table), read.1.map (·.column)), read.2) := by
      cases cs <;> rfl
    rw [taken, items]
    simp [tablesOf, Function.comp_def]

theorem joins_tokens (js : List Join) (enough : js.length ≤ n)
    (ends : ∀ t ∈ rest.head?, t ≠ .word "LEFT") :
    joins n (js.flatMap Join.tokens ++ rest) = some (js, rest) := by
  induction js generalizing n with
  | nil =>
    rw [List.flatMap_nil, List.nil_append]
    unfold joins
    split
    · exact absurd rfl (ends _ rfl)
    · rfl
  | cons j js ih =>
    obtain ⟨n, rfl⟩ : ∃ m, n = m + 1 := ⟨n - 1, by simp at enough; omega⟩
    have later := ih (by simpa using enough)
    rw [List.flatMap_cons, List.append_assoc]
    change (joins n (js.flatMap Join.tokens ++ rest)).bind
      (fun read => some (j :: read.1, read.2)) = _
    rw [later]
    rfl

theorem orderClause_tokens (orderBy : List OrderEntry) (enough : orderBy.length ≤ n)
    (ends : ∀ t ∈ rest.head?, t ≠ .word "ORDER" ∧ t ≠ .comma) :
    orderClause n (Token.orderClause orderBy ++ rest) = some (orderBy, rest) := by
  cases orderBy with
  | nil =>
    change orderClause n rest = _
    unfold orderClause
    split
    · exact absurd rfl (ends _ rfl).1
    · rfl
  | cons o os =>
    have entry (o : OrderEntry) (rest' : List Token) :
        orderEntry (o.tokens ++ rest') = some (o, rest') := by
      obtain ⟨c, descending⟩ := o
      cases descending <;> rfl
    have entries : orderClause n (Token.orderClause (o :: os) ++ rest)
        = some ((o :: os).map id, rest) :=
      sepBy_separated (by simp) enough (fun t h => (ends t h).2) fun o _ rest' _ => entry o rest'
    rwa [List.map_id] at entries

theorem paging_tokens (limit offset : Option Nat) (after : Opens [.rightParen] rest) :
    paging d (Token.limitOffset d limit offset ++ rest) = some ((limit, offset), rest) := by
  have ends : rest = [] ∨ ∃ ts, rest = .rightParen :: ts := by
    cases rest with
    | nil => exact .inl rfl
    | cons t ts => exact .inr ⟨ts, by rw [List.mem_singleton.mp (after t rfl)]⟩
  obtain rfl | ⟨ts, rfl⟩ := ends <;> cases limit <;> cases offset <;> cases d <;> rfl

theorem opens_limitOffset (limit offset : Option Nat) (after : Opens [.rightParen] rest) :
    Opens [.word "LIMIT", .word "OFFSET", .rightParen]
      (Token.limitOffset d limit offset ++ rest) := by
  intro t ht
  cases limit with
  | some limit => cases offset <;> (cases ht; simp)
  | none =>
    cases offset with
    | none => simp [List.mem_singleton.mp (after t ht)]
    | some offset =>
      rw [Token.limitOffset] at ht
      split at ht <;> (cases ht; simp)

theorem whereClause_tokens {item : Rule Predicate} {ps : List Predicate}
    {tokens : Predicate → List Token} {result : Predicate → Predicate} (enough : ps.length ≤ n)
    {allowed : List Token} (after : Opens allowed rest) (noWhere : .word "WHERE" ∉ allowed)
    (noConnective : ∀ op, .connective op ∉ allowed)
    (each : ∀ p ∈ ps, ∀ rest', item (tokens p ++ rest') = some (result p, rest')) :
    whereClause item n (Token.whereClause (ps.map tokens) ++ rest)
      = some (Predicate.conjunction (ps.map result), rest) := by
  cases ps with
  | nil =>
    change whereClause item n rest = _
    unfold whereClause
    split
    · exact absurd rfl (after.ne noWhere _ rfl)
    · rfl
  | cons p ps =>
    have conditions := expression_separated .and (by simp) enough
      (fun t ht op => after.ne (noConnective op) t ht) each
    simp only [List.map_cons] at conditions
    simp [Token.whereClause, whereClause, conditions, Predicate.conjunction]

theorem head?_orderClause (orderBy : List OrderEntry) (nonempty : Token.orderClause orderBy ≠ []) :
    (Token.orderClause orderBy).head? = some (.word "ORDER") := by
  cases orderBy with
  | nil => exact absurd rfl nonempty
  | cons o os => rfl

theorem head?_whereClause (conditions : List (List Token))
    (nonempty : Token.whereClause conditions ≠ []) :
    (Token.whereClause conditions).head? = some (.word "WHERE") := by
  cases conditions with
  | nil => exact absurd rfl nonempty
  | cons ts rest => rfl

theorem select_tokens {item : Rule Predicate} {collection : String} {columns : List String}
    {js : List Join} {ps : List Predicate} {orderBy : List OrderEntry} {limit offset : Option Nat}
    {tokens : Predicate → List Token} {result : Predicate → Predicate}
    (enough : (Token.select d
      ⟨collection, columns, js, ps.map tokens, orderBy, limit, offset⟩).length ≤ n)
    (after : Opens [.rightParen] rest)
    (each : ∀ p ∈ ps, ∀ rest', item (tokens p ++ rest') = some (result p, rest')) :
    select d item n
        (Token.select d ⟨collection, columns, js, ps.map tokens, orderBy, limit, offset⟩ ++ rest)
      = some (⟨collection, columns, js, Predicate.conjunction (ps.map result), orderBy, limit,
          offset⟩, rest) := by
  obtain ⟨columnsFit, joinsFit, conditionsFit, entriesFit⟩ :=
    Token.length_le_select (d := d) ⟨collection, columns, js, ps.map tokens, orderBy, limit, offset⟩
  have pages := opens_limitOffset (d := d) limit offset after
  have orders := pages.clause (head?_orderClause orderBy)
  have conditions := orders.clause (head?_whereClause (ps.map tokens))
  have selected (ts : List Token) :
      selection n (Token.columnList collection columns ++ .word "FROM" :: ts)
        = some ((tablesOf collection columns, columns), .word "FROM" :: ts) :=
    selection_columnList collection columns (Nat.le_trans columnsFit enough) (by simp)
  have joined := joins_tokens js (Nat.le_trans joinsFit enough) (conditions.ne (by simp))
  have filtered := whereClause_tokens (by simpa using Nat.le_trans conditionsFit enough) orders
    (by simp) (fun op => by cases op <;> simp [Token.connective, Connective.keyword]) each
  have ordered := orderClause_tokens orderBy (Nat.le_trans entriesFit enough) fun t ht =>
    ⟨pages.ne (by simp) t ht, pages.ne (by simp) t ht⟩
  have paged := paging_tokens (d := d) limit offset after
  have qualified : (tablesOf collection columns).all (· = collection) = true := by
    rw [tablesOf]
    split <;> simp
  simp only [Token.select, List.append_assoc, List.cons_append, List.nil_append, select, selected,
    Option.bind_eq_bind, Option.bind_some, expect_cons, joined, filtered, ordered, paged, qualified,
    if_true]
  rfl

end Statements

end Grammar

namespace Predicate

theorem tokensAll_eq_map (d : Dialect) (ps : List Predicate) :
    tokensAll d ps = ps.map (·.tokens d) := by
  induction ps with
  | nil => rfl
  | cons p rest ih => rw [tokensAll, ih, List.map_cons]

theorem normalAll_eq_map (ps : List Predicate) : normalAll ps = ps.map normal := by
  induction ps with
  | nil => rfl
  | cons p rest ih => rw [normalAll, ih, List.map_cons]

variable {d : Dialect}

/-- A condition whose tokens are read as its normal form, whatever follows them. -/
def ReadsBack (d : Dialect) (p : Predicate) : Prop :=
  ∀ n rest, (p.tokens d).length ≤ n →
    Grammar.condition d n (p.tokens d ++ rest) = some (p.normal, rest)

theorem ReadsBack.of_succ {p : Predicate} (nonempty : p.tokens d ≠ [])
    (h : ∀ n rest, (p.tokens d).length ≤ n + 1 →
      Grammar.condition d (n + 1) (p.tokens d ++ rest) = some (p.normal, rest)) :
    ReadsBack d p := by
  intro n rest enough
  obtain ⟨n, rfl⟩ : ∃ m, n = m + 1 :=
    ⟨n - 1, by have := List.length_pos_iff.mpr nonempty; omega⟩
  exact h n rest enough

theorem exists_cons_tokensOf (s : SelectOf Predicate) :
    ∃ us, tokensOf d s = .word "SELECT" :: us := by
  obtain ⟨collection, columns, joins, predicates, orderBy, limit, offset⟩ := s
  exact ⟨_, rfl⟩

theorem readsBack_group (op : Connective) {items : List Predicate}
    (each : ∀ p ∈ items, ReadsBack d p) {n : Nat} {rest : List Token}
    (enough : (Token.group op (tokensAll d items)).length ≤ n) :
    Grammar.condition d n (Token.group op (tokensAll d items) ++ rest)
      = some (group op (normalAll items), rest) := by
  rcases items with _ | ⟨p, _ | ⟨q, ps⟩⟩
  · simp only [tokensAll, Token.group, Token.truth, List.length_cons] at enough
    obtain ⟨n, rfl⟩ : ∃ m, n = m + 1 := ⟨n - 1, by omega⟩
    cases op with
    | and => exact Grammar.condition_truth true
    | or => exact Grammar.condition_truth false
  · rw [normalAll, normalAll, group_singleton]
    exact each p (by simp) n rest enough
  · rw [tokensAll_eq_map] at enough ⊢
    rw [normalAll_eq_map]
    simp only [List.map_cons, Token.group, List.length_cons, List.length_append] at enough
    obtain ⟨n, rfl⟩ : ∃ m, n = m + 1 := ⟨n - 1, by omega⟩
    refine Grammar.condition_group op p q ?_ fun r member rest' => each r member n rest' ?_
    · have count := Token.length_le_separated (.connective op) ((p :: q :: ps).map (·.tokens d))
      simp only [List.map_cons, List.length_cons, List.length_map] at count ⊢
      omega
    · have part := Token.length_le_separated_of_mem (t := .connective op)
        (List.mem_map_of_mem (f := (·.tokens d)) member)
      simp only [List.map_cons] at part
      omega

mutual

/-- The wording of a condition reads back as the condition. -/
theorem readsBack (p : Predicate) : ReadsBack d p := by
  match p with
  | .and items => exact fun n rest enough => readsBack_group .and (readsBack_of_mem items) enough
  | .or items => exact fun n rest enough => readsBack_group .or (readsBack_of_mem items) enough
  | .compare column op value =>
    exact .of_succ (by simp [tokens]) fun n rest _ => Grammar.condition_compare op value
  | .like column pattern negated caseInsensitive =>
    exact .of_succ (by simp [tokens]) fun n rest _ =>
      Grammar.condition_like pattern negated caseInsensitive
  | .inList column [] negated =>
    exact .of_succ (by simp [tokens, Token.membership, Token.truth]) fun n rest _ =>
      Grammar.condition_truth negated
  | .inList column (v :: vs) negated =>
    refine .of_succ ?_ fun n rest enough => Grammar.condition_inList v vs negated ?_
    · simp [tokens, Token.membership]
    · have count := Token.length_le_separated .comma ((v :: vs).map fun v => [Token.ofValue d v])
      simp only [tokens, Token.membership, List.isEmpty_cons, Bool.false_eq_true, if_false,
        List.length_append, List.length_cons, List.length_map] at enough count ⊢
      omega
  | .between column low high negated =>
    exact .of_succ (by simp [tokens]) fun n rest _ => Grammar.condition_between low high negated
  | .isNull column negated =>
    exact .of_succ (by simp [tokens]) fun n rest _ => Grammar.condition_isNull negated
  | .inSelect column select =>
    refine .of_succ (by simp [tokens]) fun n rest enough => ?_
    have fits : (tokensOf d select).length ≤ n := by
      simp only [tokens, List.length_append, List.length_cons] at enough
      omega
    exact Grammar.condition_inSelect (exists_cons_tokensOf select)
      (select_readsBack select fits (by simp [Grammar.Opens]))

/-- The wordings of conditions read back as the conditions. -/
theorem readsBack_of_mem (ps : List Predicate) : ∀ p ∈ ps, ReadsBack d p := by
  match ps with
  | [] => simp
  | p :: rest =>
    intro q member
    rcases List.mem_cons.mp member with same | member
    · exact same ▸ readsBack p
    · exact readsBack_of_mem rest q member

/-- The wording of a statement reads back as the statement. -/
theorem select_readsBack (s : SelectOf Predicate) {n : Nat} {rest : List Token}
    (enough : (tokensOf d s).length ≤ n) (after : Grammar.Opens [.rightParen] rest) :
    Grammar.select d (Grammar.condition d n) n (tokensOf d s ++ rest)
      = some (normalOf s, rest) := by
  match s with
  | ⟨collection, columns, joins, predicates, orderBy, limit, offset⟩ =>
    rw [tokensOf, tokensAll_eq_map] at enough ⊢
    rw [normalOf, normalAll_eq_map]
    refine Grammar.select_tokens enough after fun p member rest' =>
      readsBack_of_mem predicates p member n rest' ?_
    have part := Token.length_le_select_of_mem (d := d)
      (s := ⟨collection, columns, joins, predicates.map (·.tokens d), orderBy, limit, offset⟩)
      (List.mem_map_of_mem (f := (·.tokens d)) member)
    exact Nat.le_trans part enough

end

end Predicate

namespace Select

/-- A statement as its text shows it: its conditions are one condition. -/
def normal (s : Select) : Select :=
  { s with
    predicates := if s.predicates.isEmpty then [] else [(Predicate.and s.predicates).normal] }

theorem normalOf_eq (s : Select) : Predicate.normalOf s = s.normal := by
  obtain ⟨collection, columns, joins, predicates, orderBy, limit, offset⟩ := s
  cases predicates <;> rfl

/-- The wording of a statement is read as its normal form. -/
theorem wording_readsBack (s : Select) (d : Dialect) :
    Grammar.select d (Grammar.condition d (s.tokens d).length) (s.tokens d).length (s.tokens d)
      = some (s.normal, []) := by
  have nothing : Grammar.Opens [.rightParen] [] := by simp [Grammar.Opens]
  have whole := Predicate.select_readsBack s (Nat.le_refl (s.tokens d).length) nothing
  rwa [List.append_nil, normalOf_eq] at whole

/-- A rendered statement reads back as itself, with its conditions joined to their conjunction. -/
theorem read_render (s : Select) (d : Dialect) (params : List SqlValue)
    (plain : d = .clickhouse → ∀ ident ∈ s.identifiers, '\\' ∉ ident.toList) :
    Select.read d (s.render d params).2 params.length (s.render d params).1 = some s.normal := by
  simp only [read, lex_render params plain, supply_render params plain, Option.bind_eq_bind,
    Option.bind_some, s.wording_readsBack d, if_true]

theorem read_render_overdue :
    (∀ ident ∈ overdue.identifiers, '\\' ∉ ident.toList) ∧
      Select.read .clickhouse [.null, .int 14, .text "Ada"] 1
        (overdue.render .clickhouse [.null]).1 = some overdue.normal := by
  have plain : ∀ ident ∈ overdue.identifiers, '\\' ∉ ident.toList := by decide
  exact ⟨plain, read_render overdue .clickhouse [.null] fun _ => plain⟩

end Select

end FilterSql
