import Mathlib.Data.List.Forall2
import FilterSql.Proofs.Sql.Wording

/-!
Rendered text is cut into the wording of what was rendered.

A part of a text is put together from parts before it that end by themselves and parts behind it that
begin with a character that ends a token. So the tokens of a text are those of its parts. The main
statement is `selectFragment_lexes`: whatever was bound before, the text of a statement is cut into
its wording, with placeholders for its operands.
-/

namespace FilterSql

open Lexer

variable {d : Dialect} {s : String}

/-! ### Parts without operands -/

theorem delimited_blank : Delimited d " " [] := fun _ _ => rfl

theorem delimited_comma : Delimited d ", " [.comma] := fun _ _ => run_whole _

theorem delimited_leftParen : Delimited d "(" [.leftParen] := fun _ _ => run_whole _

theorem delimited_rightParen : Delimited d ")" [.rightParen] := fun _ _ => run_whole _

theorem delimited_connective (op : Connective) :
    Delimited d (" " ++ op.keyword ++ " ") [.connective op] := by
  cases op <;> exact fun _ _ => rfl

theorem delimited_negation (negated : Bool) :
    Delimited d (negation negated) (Token.negation negated) := by
  cases negated <;> exact fun _ _ => rfl

theorem lexes_word (cs : List Char)
    (reaches : ∀ rest, lex d (s.toList ++ rest) = run d (.word cs) rest) :
    Lexes d s [.word (String.ofList cs)] :=
  .of_run [] (ended_word cs) (fun _ => rfl) reaches

theorem lexes_null : Lexes d "NULL" [.word "NULL"] :=
  lexes_word ['N', 'U', 'L', 'L'] fun _ => rfl

theorem lexes_symbol (op : Comparison) : Lexes d op.symbol [.comparison op] := by
  have ended : (State.sign op).Ended d := by cases op <;> simp [State.Ended, State.extend]
  cases op <;> exact .of_run [] ended (fun _ => rfl) fun _ => rfl

theorem ColumnRef.lexes_sql {c : ColumnRef} (plain : d.Delimits c.identifiers) :
    Lexes d (c.sql d) c.tokens := by
  have dot : Delimited d "." [.dot] := .of_run [] fun _ => rfl
  have table := lexes_quoteIdent c.table fun h => plain h _ (by simp [identifiers])
  have column := lexes_quoteIdent c.column fun h => plain h _ (by simp [identifiers])
  exact (table.thenBreak dot rfl).then column

theorem Join.lexes_sql {j : Join} (plain : d.Delimits j.identifiers) :
    Lexes d (j.sql d) j.tokens := by
  have leftJoin : Delimited d "LEFT JOIN " [.word "LEFT", .word "JOIN"] := fun _ _ => rfl
  have as : Delimited d " AS " [.word "AS"] := fun _ _ => rfl
  have on : Delimited d " ON " [.word "ON"] := fun _ _ => rfl
  have equals : Delimited d " = " [.comparison .eq] := fun _ _ => rfl
  have table := lexes_quoteIdent j.table fun h => plain h _ (by simp [identifiers])
  have qualifier := lexes_quoteIdent j.qualifier fun h => plain h _ (by simp [identifiers])
  have left := ColumnRef.lexes_sql plain.left.right
  have right := ColumnRef.lexes_sql plain.right
  have opening := (leftJoin.then table).thenBreak as rfl
  have joined := (opening.then qualifier).thenBreak on rfl
  exact ((joined.then left).thenBreak equals rfl).then right

/-- A test that may be negated. -/
theorem Spells.negatable {t : String} {ts us : List Token} (tested : Lexes d s ts) (negated : Bool)
    (test : Delimited d t us) :
    Delimited d (s ++ " " ++ negation negated ++ t) (ts ++ Token.negation negated ++ us) := by
  have opening := tested.thenBreak delimited_blank rfl
  rw [List.append_nil] at opening
  exact (opening.then (delimited_negation negated)).then test

theorem lexes_lower {ts : List Token} (text : Lexes d s ts) :
    Lexes d (d.lower s) ([.word "LOWER", .leftParen] ++ ts ++ [.rightParen]) := by
  have lowered {f : String} (opening : Delimited d f [.word "LOWER", .leftParen]) :
      Lexes d (f ++ s ++ ")") ([.word "LOWER", .leftParen] ++ ts ++ [.rightParen]) :=
    Delimited.lexes ((opening.then text).thenBreak delimited_rightParen rfl)
  cases d <;> exact lowered (.of_run [.word "LOWER"] fun _ => rfl)

theorem lexes_likeEscape : Lexes d d.likeEscape (Token.likeEscape d) := by
  have ended : (State.closed '\x27' ['\\']).Ended d := ended_closed (by simp) _
  cases d
  case clickhouse => exact fun _ _ => rfl
  all_goals exact .of_run [.word "ESCAPE"] ended (fun _ => rfl) fun _ => rfl

theorem lexes_boolLiteral (b : Bool) : Lexes d (d.boolLiteral b) [Token.bool d b] := by
  cases d <;> cases b
  case sqlite.false => exact lexes_number 0
  case sqlite.true => exact lexes_number 1
  case postgres.false | duckdb.false | clickhouse.false =>
    exact lexes_word ['F', 'A', 'L', 'S', 'E'] fun _ => rfl
  case postgres.true | duckdb.true | clickhouse.true =>
    exact lexes_word ['T', 'R', 'U', 'E'] fun _ => rfl

theorem lexes_truth (b : Bool) : Lexes d (if b then trueSql else falseSql) (Token.truth b) := by
  have ended (n : Nat) : (State.digits false n).Ended d := ended_digits false n
  cases b
  case false => exact .of_run [.number 1, .comparison .eq] (ended 0) (fun _ => rfl) fun _ => rfl
  case true => exact .of_run [.number 1, .comparison .eq] (ended 1) (fun _ => rfl) fun _ => rfl

theorem lexes_join {α : Type} {text : α → String} {tokens : α → List Token} {xs : List α}
    (each : ∀ x ∈ xs, Lexes d (text x) (tokens x)) :
    Lexes d (Text.join ", " (xs.map text)) (Token.separated .comma (xs.map tokens)) := by
  induction xs with
  | nil => exact fun _ _ => rfl
  | cons x rest ih =>
    have later := ih fun y hy => each y (by simp [hy])
    have first := each x (by simp)
    cases rest with
    | nil => exact first
    | cons y rest =>
      have joined := (first.thenBreak delimited_comma rfl).then later
      rwa [List.append_assoc] at joined

theorem lexes_columnList {table : String} {columns : List String}
    (plain : d.Delimits (table :: columns)) :
    Lexes d (Fragment.columnList d table columns) (Token.columnList table columns) := by
  have dotStar : Delimited d ".*" [.dot, .star] := .of_run [.dot] fun _ => rfl
  have quoted := lexes_quoteIdent table fun h => plain h _ (by simp)
  cases columns with
  | nil => exact Delimited.lexes (quoted.thenBreak dotStar rfl)
  | cons c rest =>
    exact lexes_join fun x hx =>
      ColumnRef.lexes_sql (c := ⟨table, x⟩) (plain.mono (by simp_all [ColumnRef.identifiers]))

theorem OrderEntry.lexes_orderBy {o : OrderEntry}
    (plain : d.Delimits o.column.identifiers) :
    Lexes d (d.orderBy (o.column.sql d) o.descending) o.tokens := by
  have ascending : Lexes d " ASC" [.word "ASC"] := lexes_word ['A', 'S', 'C'] fun _ => rfl
  have descending : Lexes d " DESC" [.word "DESC"] := lexes_word ['D', 'E', 'S', 'C'] fun _ => rfl
  have column := ColumnRef.lexes_sql plain
  rw [Dialect.orderBy, OrderEntry.tokens]
  cases o.descending with
  | false => exact column.thenBreak ascending rfl
  | true => exact column.thenBreak descending rfl

theorem lexes_limitOffset (limit offset : Option Nat) :
    Lexes d (d.limitOffset limit offset) (Token.limitOffset d limit offset) := by
  have limiting : Delimited d "LIMIT " [.word "LIMIT"] := fun _ _ => rfl
  have skipping : Delimited d " OFFSET " [.word "OFFSET"] := fun _ _ => rfl
  have skippingFirst : Delimited d "OFFSET " [.word "OFFSET"] := fun _ _ => rfl
  have unlimited : Delimited d "LIMIT -1 " [.word "LIMIT", .minus, .number 1] := fun _ _ => rfl
  cases limit with
  | some limit =>
    have limited := limiting.then (lexes_number limit)
    cases offset with
    | none => exact limited
    | some offset =>
      exact (limited.thenBreak skipping rfl).then (lexes_number offset)
  | none =>
    cases offset with
    | none => exact fun _ _ => rfl
    | some offset =>
      have skipped := skippingFirst.then (lexes_number offset)
      rw [Dialect.limitOffset, Token.limitOffset]
      split
      · rw [String.append_assoc]
        exact unlimited.then skipped
      · rw [String.append_assoc]
        exact skipped

/-! ### Fragments -/

namespace Fragment

/-- A fragment that is read as the given tokens if a break follows, with its operands among them. -/
def Lexes (d : Dialect) (f : Fragment) (ts : List Token) : Prop :=
  Token.slots ts = f.operands.map .operand ∧
    ∀ bound, FilterSql.Lexes d (f.sql d bound) (Token.withPlaceholders d bound ts)

/-- A fragment before which a token ends if it ends before what follows the fragment. -/
def Continues (d : Dialect) (f : Fragment) : Prop :=
  ∀ bound rest, Breaks rest → Breaks ((f.sql d bound).toList ++ rest)

variable {f g : Fragment} {ts us : List Token}

theorem continues_nil : Continues d [] := fun _ _ breaks => breaks

theorem continues_text (breaking : Breaking s) : Continues d (.text s :: f) :=
  fun _ rest _ => (breaking.append _).breaks rest

theorem lexes_nil : Lexes d [] [] := ⟨rfl, fun _ _ _ => rfl⟩

theorem lexes_operand (v : SqlValue) : Lexes d [.operand v] [.operand v] :=
  ⟨rfl, fun bound => by simpa [sql, Token.withPlaceholders] using lexes_placeholder (bound + 1)⟩

theorem lexes_ofText (plain : Token.slots ts = []) (text : FilterSql.Lexes d s ts) :
    Lexes d (ofText s) ts := by
  refine ⟨plain, fun bound => ?_⟩
  rw [Token.withPlaceholders_of_slots_eq_nil plain]
  simpa [ofText, sql] using text

theorem Lexes.append (first : Lexes d f ts) (second : Lexes d g us) (continues : Continues d g) :
    Lexes d (f ++ g) (ts ++ us) := by
  refine ⟨by simp [first.1, second.1], fun bound => ?_⟩
  rw [sql_append, Token.withPlaceholders_append, first.1, List.length_map]
  exact (first.2 bound).append (second.2 _) (continues _)

theorem Lexes.text (plain : Token.slots ts = []) (first : Delimited d s ts)
    (second : Lexes d f us) : Lexes d (.text s :: f) (ts ++ us) := by
  refine ⟨by simp [plain, second.1, operands], fun bound => ?_⟩
  rw [sql, Token.withPlaceholders_append, plain, Token.withPlaceholders_of_slots_eq_nil plain]
  exact first.then (second.2 bound)

theorem lexes_ofValue (v : SqlValue) : Lexes d (ofValue d v) [Token.ofValue d v] := by
  cases v with
  | null => exact lexes_ofText rfl lexes_null
  | bool b =>
    refine lexes_ofText ?_ (lexes_boolLiteral b)
    cases d <;> rfl
  | int n => exact lexes_operand _
  | float x => exact lexes_operand _
  | text s => exact lexes_operand _

theorem lexes_joinWith {sep : String} {t : Token} {fs : List Fragment} {tss : List (List Token)}
    (plain : Token.slots [t] = []) (separates : Delimited d sep [t]) (breaking : Breaking sep)
    (each : List.Forall₂ (Lexes d) fs tss) :
    Lexes d (joinWith sep fs) (Token.separated t tss) := by
  induction each with
  | nil => exact lexes_nil
  | @cons f ts rest tss first later ih =>
    cases later with
    | nil => exact first
    | cons second later =>
      exact first.append (.text plain separates ih) (continues_text breaking)

/-- A fragment in front of a parenthesis that closes. -/
theorem Lexes.closing (first : Lexes d f ts) : Lexes d (f ++ ofText ")") (ts ++ [.rightParen]) :=
  first.append (lexes_ofText rfl (Delimited.lexes delimited_rightParen))
    (continues_text rfl)

theorem lexes_group (op : Connective) {fs : List Fragment} {tss : List (List Token)}
    (each : List.Forall₂ (Lexes d) fs tss) : Lexes d (group op fs) (Token.group op tss) := by
  have breaking : Breaking (" " ++ op.keyword ++ " ") := by cases op <;> rfl
  have inner := lexes_joinWith (t := .connective op) rfl (delimited_connective op) breaking each
  cases each with
  | nil =>
    refine lexes_ofText rfl ?_
    cases op with
    | and => exact lexes_truth true
    | or => exact lexes_truth false
  | cons first later =>
    cases later with
    | nil => exact first
    | cons second later => exact (Lexes.text rfl delimited_leftParen inner).closing

/-! ### Tests of a column -/

section Tests

variable {column : ColumnRef}

theorem lexes_compare (op : Comparison) (value : SqlValue) (plain : d.Delimits column.identifiers) :
    Lexes d ((Predicate.compare column op value).fragment d)
      ((Predicate.compare column op value).tokens d) := by
  have opening := (((ColumnRef.lexes_sql plain).thenBreak delimited_blank rfl).then
    (lexes_symbol op)).thenBreak delimited_blank rfl
  exact .text rfl opening (lexes_ofValue value)

theorem lexes_like (pattern : String) (negated caseInsensitive : Bool)
    (plain : d.Delimits column.identifiers) :
    Lexes d ((Predicate.like column pattern negated caseInsensitive).fragment d)
      ((Predicate.like column pattern negated caseInsensitive).tokens d) := by
  have like : Delimited d "LIKE " [.word "LIKE"] := fun _ _ => rfl
  have plainEscape : Token.slots (Token.likeEscape d) = [] := by cases d <;> rfl
  have escapeContinues : Continues d (ofText d.likeEscape) := by
    cases d
    case clickhouse => exact fun _ _ breaks => breaks
    all_goals exact continues_text rfl
  have pattern := (lexes_operand (d := d) (.text pattern)).append
    (lexes_ofText plainEscape lexes_likeEscape) escapeContinues
  have column := ColumnRef.lexes_sql plain
  cases caseInsensitive with
  | false => exact .text (by cases negated <;> rfl) (column.negatable negated like) pattern
  | true =>
    exact .text (by cases negated <;> rfl) ((lexes_lower column).negatable negated like) pattern

theorem lexes_membership (values : List SqlValue) (negated : Bool)
    (plain : d.Delimits column.identifiers) :
    Lexes d (membership d column values negated) (Token.membership d column values negated) := by
  have opening : Delimited d "IN (" [.word "IN", .leftParen] := .of_run [.word "IN"] fun _ => rfl
  have items : List.Forall₂ (Lexes d) (values.map (ofValue d))
      (values.map fun v => [Token.ofValue d v]) := by
    rw [List.forall₂_map_left_iff, List.forall₂_map_right_iff]
    exact List.forall₂_same.mpr fun v _ => lexes_ofValue v
  have inner := lexes_joinWith rfl delimited_comma rfl items
  rw [membership, Token.membership]
  split
  · exact lexes_ofText rfl (lexes_truth negated)
  · exact (Lexes.text (by cases negated <;> rfl)
      ((ColumnRef.lexes_sql plain).negatable negated opening) inner).closing

theorem lexes_between (low high : SqlValue) (negated : Bool)
    (plain : d.Delimits column.identifiers) :
    Lexes d ((Predicate.between column low high negated).fragment d)
      ((Predicate.between column low high negated).tokens d) := by
  have between : Delimited d "BETWEEN " [.word "BETWEEN"] := fun _ _ => rfl
  have bounds := (lexes_ofValue low).append
    (.text rfl (delimited_connective .and) (lexes_ofValue (d := d) high))
    (continues_text rfl)
  exact .text (by cases negated <;> rfl) ((ColumnRef.lexes_sql plain).negatable negated between)
    bounds

theorem lexes_isNull (negated : Bool) (plain : d.Delimits column.identifiers) :
    Lexes d ((Predicate.isNull column negated).fragment d)
      ((Predicate.isNull column negated).tokens d) := by
  have is : Delimited d " IS " [.word "IS"] := fun _ _ => rfl
  exact lexes_ofText (by cases negated <;> rfl)
    ((((ColumnRef.lexes_sql plain).thenBreak is rfl).then
      (delimited_negation negated)).then lexes_null)

theorem lexes_inSelect {f : Fragment} {ts : List Token} (plain : d.Delimits column.identifiers)
    (select : Lexes d f ts) :
    Lexes d (.text (column.sql d ++ " IN (") :: f ++ ofText ")")
      (column.tokens ++ [.word "IN", .leftParen] ++ ts ++ [.rightParen]) := by
  have opening : Delimited d " IN (" [.word "IN", .leftParen] := .of_run [.word "IN"] fun _ => rfl
  exact (Lexes.text rfl ((ColumnRef.lexes_sql plain).thenBreak opening rfl)
    select).closing

end Tests

/-! ### The clauses of a statement

Each clause begins with a blank or is empty, so that the tokens before it end. -/

theorem joins_clause {joins : List Join} (plain : d.Delimits (joins.flatMap Join.identifiers)) :
    let clause := joins.map fun j => .text (" " ++ j.sql d)
    Lexes d clause (joins.flatMap Join.tokens) ∧ Continues d clause := by
  induction joins with
  | nil => exact ⟨lexes_nil, continues_nil⟩
  | cons j rest ih =>
    obtain ⟨later, continues⟩ := ih plain.right
    have first : Lexes d (ofText (" " ++ j.sql d)) j.tokens :=
      lexes_ofText rfl (delimited_blank.then (Join.lexes_sql plain.left))
    exact ⟨first.append later continues, continues_text (.append (s := " ") rfl _)⟩

theorem where_clause {fs : List Fragment} {tss : List (List Token)}
    (each : List.Forall₂ (Lexes d) fs tss) :
    let clause := if fs.isEmpty then [] else .text " WHERE " :: joinWith " AND " fs
    Lexes d clause (Token.whereClause tss) ∧ Continues d clause := by
  have opening : Delimited d " WHERE " [.word "WHERE"] := fun _ _ => rfl
  have conditions := lexes_joinWith (t := .connective .and) rfl (delimited_connective .and)
    rfl each
  cases each with
  | nil => exact ⟨lexes_nil, continues_nil⟩
  | cons first later =>
    exact ⟨.text rfl opening conditions, continues_text rfl⟩

theorem order_clause {orderBy : List OrderEntry}
    (plain : d.Delimits (orderBy.flatMap fun o => o.column.identifiers)) :
    let clause :=
      if orderBy.isEmpty then []
      else
        ofText (" ORDER BY "
          ++ Text.join ", " (orderBy.map fun o => d.orderBy (o.column.sql d) o.descending))
    Lexes d clause (Token.orderClause orderBy) ∧ Continues d clause := by
  have opening : Delimited d " ORDER BY " [.word "ORDER", .word "BY"] := fun _ _ => rfl
  have entries := lexes_join fun o ho => OrderEntry.lexes_orderBy (plain.of_mem ho)
  cases orderBy with
  | nil => exact ⟨lexes_nil, continues_nil⟩
  | cons o rest =>
    exact ⟨lexes_ofText (Token.slots_orderClause _) (opening.then entries),
      continues_text (.append (s := " ORDER BY ") rfl _)⟩

theorem paging_clause (limit offset : Option Nat) :
    let clause :=
      if d.limitOffset limit offset = "" then [] else ofText (" " ++ d.limitOffset limit offset)
    Lexes d clause (Token.limitOffset d limit offset) ∧ Continues d clause := by
  have paging := lexes_limitOffset (d := d) limit offset
  by_cases empty : d.limitOffset limit offset = ""
  · -- a text that is empty has no tokens
    have nothing := paging [] (by simp [Breaks])
    rw [empty] at nothing
    have none : some [] = some (Token.limitOffset d limit offset ++ []) :=
      nothing.trans (Token.before_some _ [])
    rw [List.append_nil, Option.some.injEq] at none
    simp only [empty, ← none, if_true]
    exact ⟨lexes_nil, continues_nil⟩
  · simp only [empty, if_false]
    exact ⟨lexes_ofText (Token.slots_limitOffset _ _ _) (delimited_blank.then paging),
      continues_text (.append (s := " ") rfl _)⟩

/-- A statement whose conditions are read as given tokens. -/
theorem lexes_select {collection : String} {columns : List String} {joins : List Join}
    {fs : List Fragment} {tss : List (List Token)} {orderBy : List OrderEntry}
    {limit offset : Option Nat} (each : List.Forall₂ (Lexes d) fs tss)
    (table : d.Delimits (collection :: columns))
    (joined : d.Delimits (joins.flatMap Join.identifiers))
    (ordered : d.Delimits (orderBy.flatMap fun o => o.column.identifiers)) :
    Lexes d (select d ⟨collection, columns, joins, fs, orderBy, limit, offset⟩)
      (Token.select d ⟨collection, columns, joins, tss, orderBy, limit, offset⟩) := by
  have selecting : Delimited d "SELECT " [.word "SELECT"] := fun _ _ => rfl
  have naming : Delimited d " FROM " [.word "FROM"] := fun _ _ => rfl
  have name := lexes_quoteIdent collection fun h => table h _ (by simp)
  have head := ((selecting.then (lexes_columnList table)).thenBreak naming
    rfl).then name
  rw [List.append_assoc _ [Token.word "FROM"]] at head
  obtain ⟨joining, joiningContinues⟩ := joins_clause joined
  obtain ⟨conditions, conditionsContinue⟩ := where_clause each
  obtain ⟨ordering, orderingContinues⟩ := order_clause ordered
  obtain ⟨paging, pagingContinues⟩ := paging_clause (d := d) limit offset
  have opening : Lexes d (ofText _) _ := lexes_ofText (by simp [Token.slots]) head
  exact (((opening.append joining joiningContinues).append conditions conditionsContinue).append
    ordering orderingContinues).append paging pagingContinues

end Fragment

mutual

/-- The text of a condition is cut into its wording. -/
theorem Predicate.fragment_lexes (p : Predicate) (plain : d.Delimits p.identifiers) :
    Fragment.Lexes d (p.fragment d) (p.tokens d) := by
  match p with
  | .and items => exact Fragment.lexes_group .and (predicateFragments_lexes items plain)
  | .or items => exact Fragment.lexes_group .or (predicateFragments_lexes items plain)
  | .compare column op value => exact Fragment.lexes_compare op value plain
  | .like column pattern negated caseInsensitive =>
    exact Fragment.lexes_like pattern negated caseInsensitive plain
  | .inList column values negated => exact Fragment.lexes_membership values negated plain
  | .between column low high negated => exact Fragment.lexes_between low high negated plain
  | .isNull column negated => exact Fragment.lexes_isNull negated plain
  | .inSelect column select =>
    exact Fragment.lexes_inSelect plain.left (selectFragment_lexes select plain.right)

/-- The texts of conditions are cut into their wordings. -/
theorem predicateFragments_lexes (ps : List Predicate)
    (plain : d.Delimits (Predicate.identifiersAll ps)) :
    List.Forall₂ (Fragment.Lexes d) (predicateFragments d ps) (Predicate.tokensAll d ps) := by
  match ps with
  | [] => exact .nil
  | p :: rest =>
    exact .cons (p.fragment_lexes plain.left) (predicateFragments_lexes rest plain.right)

/-- The text of a statement is cut into its wording. -/
theorem selectFragment_lexes (s : SelectOf Predicate)
    (plain : d.Delimits (Predicate.identifiersOf s)) :
    Fragment.Lexes d (selectFragment d s) (Predicate.tokensOf d s) := by
  match s with
  | ⟨collection, columns, joins, predicates, orderBy, limit, offset⟩ =>
    exact Fragment.lexes_select (predicateFragments_lexes predicates plain.left.right)
      plain.left.left.left plain.left.left.right plain.right

end

end FilterSql
