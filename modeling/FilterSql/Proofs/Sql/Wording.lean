import FilterSql.Proofs.Sql.Lexer

/-!
The wording of statements: the tokens that a statement consists of, with the values themselves at
the places of its operands.

The wording is read off the structure of a statement and says nothing of blanks, quote marks or the
numbers of placeholders.
-/

namespace FilterSql

namespace Token

/-- The tokens that stand for a parameter. -/
def slots : List Token → List Token
  | [] => []
  | .placeholder n :: ts => .placeholder n :: slots ts
  | .operand v :: ts => .operand v :: slots ts
  | _ :: ts => slots ts

/-- Tokens with a placeholder for each parameter, after `bound` that are bound already. -/
def withPlaceholders (d : Dialect) : Nat → List Token → List Token
  | _, [] => []
  | bound, .placeholder _ :: ts =>
    .placeholder (d.shownNumber (bound + 1)) :: withPlaceholders d (bound + 1) ts
  | bound, .operand _ :: ts =>
    .placeholder (d.shownNumber (bound + 1)) :: withPlaceholders d (bound + 1) ts
  | bound, t :: ts => t :: withPlaceholders d bound ts

@[simp] theorem slots_append (ts us : List Token) : slots (ts ++ us) = slots ts ++ slots us := by
  induction ts with
  | nil => rfl
  | cons t ts ih => cases t <;> simp [slots, ih]

theorem withPlaceholders_append (d : Dialect) (bound : Nat) (ts us : List Token) :
    withPlaceholders d bound (ts ++ us)
      = withPlaceholders d bound ts ++ withPlaceholders d (bound + (slots ts).length) us := by
  induction ts generalizing bound with
  | nil => rfl
  | cons t ts ih =>
    cases t <;> simp [withPlaceholders, slots, ih, Nat.add_assoc, Nat.add_comm 1]

theorem withPlaceholders_of_slots_eq_nil {d : Dialect} {ts : List Token} (plain : slots ts = [])
    (bound : Nat) : withPlaceholders d bound ts = ts := by
  induction ts with
  | nil => rfl
  | cons t ts ih => cases t <;> simp_all [withPlaceholders, slots]

/-- Token lists with a token between neighbours. -/
def separated (t : Token) : List (List Token) → List Token
  | [] => []
  | [ts] => ts
  | ts :: rest => ts ++ t :: separated t rest

theorem slots_separated {t : Token} (plain : slots [t] = []) (tss : List (List Token)) :
    slots (separated t tss) = tss.flatMap slots := by
  induction tss with
  | nil => rfl
  | cons ts rest ih =>
    cases rest with
    | nil => simp [separated]
    | cons us rest =>
      rw [separated, ← List.singleton_append, slots_append, slots_append, plain, ih]
      · rfl
      · simp

theorem length_le_separated (t : Token) (tss : List (List Token)) :
    tss.length ≤ (separated t tss).length + 1 := by
  induction tss with
  | nil => simp
  | cons ts rest ih =>
    cases rest with
    | nil => simp
    | cons us rest =>
      simp only [separated, List.length_append, List.length_cons] at ih ⊢
      omega

theorem length_le_separated_of_mem {t : Token} {ts : List Token} {tss : List (List Token)}
    (member : ts ∈ tss) : ts.length ≤ (separated t tss).length := by
  induction tss with
  | nil => cases member
  | cons us rest ih =>
    cases rest with
    | nil => simp_all [separated]
    | cons vs rest =>
      simp only [separated, List.length_append, List.length_cons] at ih ⊢
      rcases List.mem_cons.mp member with rfl | later
      · omega
      · have := ih later
        omega

/-- An equality of numbers that is true or false. -/
def truth (b : Bool) : List Token := [.number 1, .comparison .eq, .number (if b then 1 else 0)]

/-- Conditions under a connective. -/
def group (op : Connective) : List (List Token) → List Token
  | [] => truth (op = .and)
  | [ts] => ts
  | tss => .leftParen :: separated (connective op) tss ++ [.rightParen]

/-- The word before a negated test. -/
def negation (negated : Bool) : List Token := if negated then [.word "NOT"] else []

/-- A boolean literal. -/
def bool (d : Dialect) (b : Bool) : Token :=
  if d = .sqlite then .number (if b then 1 else 0) else .word (if b then "TRUE" else "FALSE")

/-- A value as it stands in a text. -/
def ofValue (d : Dialect) : SqlValue → Token
  | .null => .word "NULL"
  | .bool b => bool d b
  | v => .operand v

end Token

/-- The tokens of a qualified column. -/
def ColumnRef.tokens (c : ColumnRef) : List Token := [.name c.table, .dot, .name c.column]

/-- The identifiers of a qualified column. -/
def ColumnRef.identifiers (c : ColumnRef) : List String := [c.table, c.column]

/-- The tokens of a join clause. -/
def Join.tokens (j : Join) : List Token :=
  [.word "LEFT", .word "JOIN", .name j.table, .word "AS", .name j.qualifier, .word "ON"]
    ++ j.left.tokens ++ .comparison .eq :: j.right.tokens

/-- The identifiers in a join clause. -/
def Join.identifiers (j : Join) : List String :=
  [j.table, j.qualifier] ++ j.left.identifiers ++ j.right.identifiers

/-- The tokens of an entry of an ordering. -/
def OrderEntry.tokens (o : OrderEntry) : List Token :=
  o.column.tokens ++ [.word (if o.descending then "DESC" else "ASC")]

namespace Token

/-- A column, in lower case if asked for. -/
def tested (column : ColumnRef) (caseInsensitive : Bool) : List Token :=
  if caseInsensitive then [.word "LOWER", .leftParen] ++ column.tokens ++ [.rightParen]
  else column.tokens

/-- What follows a pattern whose metacharacters are escaped by backslashes. -/
def likeEscape (d : Dialect) : List Token :=
  if d = .clickhouse then [] else [.word "ESCAPE", .literal "\\"]

/-- A test of a column against a list of values. -/
def membership (d : Dialect) (column : ColumnRef) (values : List SqlValue) (negated : Bool) :
    List Token :=
  if values.isEmpty then truth negated
  else
    column.tokens ++ negation negated ++ [.word "IN", .leftParen]
      ++ separated .comma (values.map fun v => [ofValue d v]) ++ [.rightParen]

/-- The selected columns of a table. -/
def columnList (table : String) : List String → List Token
  | [] => [.name table, .dot, .star]
  | columns => separated .comma (columns.map fun c => ColumnRef.tokens ⟨table, c⟩)

/-- The paging clause. -/
def limitOffset (d : Dialect) : Option Nat → Option Nat → List Token
  | some limit, some offset => [.word "LIMIT", .number limit, .word "OFFSET", .number offset]
  | some limit, none => [.word "LIMIT", .number limit]
  | none, some offset =>
    (if d = .sqlite then [.word "LIMIT", .minus, .number 1] else [])
      ++ [.word "OFFSET", .number offset]
  | none, none => []

/-- The clause of the conditions. -/
def whereClause (conditions : List (List Token)) : List Token :=
  if conditions.isEmpty then [] else .word "WHERE" :: separated (connective .and) conditions

/-- The clause of the ordering. -/
def orderClause (orderBy : List OrderEntry) : List Token :=
  if orderBy.isEmpty then []
  else [.word "ORDER", .word "BY"] ++ separated .comma (orderBy.map OrderEntry.tokens)

/-- A statement whose conditions are given as tokens. -/
def select (d : Dialect) (s : SelectOf (List Token)) : List Token :=
  .word "SELECT" :: columnList s.collection s.columns ++ [.word "FROM", .name s.collection]
    ++ s.joins.flatMap Join.tokens ++ whereClause s.predicates ++ orderClause s.orderBy
    ++ limitOffset d s.limit s.offset

@[simp] theorem slots_columnList (table : String) (columns : List String) :
    slots (columnList table columns) = [] := by
  cases columns with
  | nil => rfl
  | cons c rest =>
    rw [columnList, slots_separated rfl]
    · simp [ColumnRef.tokens, slots]
    · simp

@[simp] theorem slots_orderClause (orderBy : List OrderEntry) :
    slots (orderClause orderBy) = [] := by
  cases orderBy with
  | nil => rfl
  | cons o rest =>
    rw [orderClause, if_neg (by simp), slots_append, slots_separated rfl]
    simp [OrderEntry.tokens, ColumnRef.tokens, slots]

@[simp] theorem slots_limitOffset (d : Dialect) (limit offset : Option Nat) :
    slots (limitOffset d limit offset) = [] := by
  cases limit <;> cases offset <;> cases d <;> rfl

/-- A clause has at least as many tokens as entries. -/
theorem length_le_select (d : Dialect) (s : SelectOf (List Token)) :
    s.columns.length ≤ (select d s).length ∧ s.joins.length ≤ (select d s).length ∧
      s.predicates.length ≤ (select d s).length ∧
      s.orderBy.length ≤ (select d s).length := by
  have columns : s.columns.length ≤ (columnList s.collection s.columns).length + 1 := by
    rw [columnList.eq_def]
    split
    · next none => simp [none]
    · simpa using length_le_separated .comma
        (s.columns.map fun c => (ColumnRef.mk s.collection c).tokens)
  have joins : s.joins.length ≤ (s.joins.flatMap Join.tokens).length := by
    induction s.joins with
    | nil => simp
    | cons j rest ih =>
      simp only [List.flatMap_cons, List.length_append, List.length_cons, Join.tokens] at ih ⊢
      omega
  have predicates : s.predicates.length ≤ (whereClause s.predicates).length := by
    rw [whereClause]
    split
    · next empty => simp [List.isEmpty_iff.mp empty]
    · simpa using length_le_separated (.connective .and) s.predicates
  have orderBy : s.orderBy.length ≤ (orderClause s.orderBy).length := by
    have entries := length_le_separated .comma (s.orderBy.map OrderEntry.tokens)
    rw [orderClause]
    split
    · next empty => simp [List.isEmpty_iff.mp empty]
    · simp at entries ⊢
      omega
  simp only [select, List.length_append, List.length_cons]
  omega

theorem length_le_select_of_mem {d : Dialect} {s : SelectOf (List Token)} {ts : List Token}
    (member : ts ∈ s.predicates) : ts.length ≤ (select d s).length := by
  have part := length_le_separated_of_mem (t := .connective .and) member
  have clause : (separated (.connective .and) s.predicates).length
      ≤ (whereClause s.predicates).length := by
    rw [whereClause, if_neg (by simpa using List.ne_nil_of_mem member)]
    simp
  simp only [select, List.length_append, List.length_cons]
  omega

end Token

namespace Predicate

mutual

/-- The tokens of a condition. -/
def tokens (d : Dialect) : Predicate → List Token
  | .and items => Token.group .and (tokensAll d items)
  | .or items => Token.group .or (tokensAll d items)
  | .compare column op value => column.tokens ++ [.comparison op] ++ [Token.ofValue d value]
  | .like column pattern negated caseInsensitive =>
    Token.tested column caseInsensitive ++ Token.negation negated ++ [.word "LIKE"]
      ++ ([.operand (.text pattern)] ++ Token.likeEscape d)
  | .inList column values negated => Token.membership d column values negated
  | .between column low high negated =>
    column.tokens ++ Token.negation negated ++ [.word "BETWEEN"]
      ++ [Token.ofValue d low, .word "AND", Token.ofValue d high]
  | .isNull column negated =>
    column.tokens ++ [.word "IS"] ++ Token.negation negated ++ [.word "NULL"]
  | .inSelect column select =>
    column.tokens ++ [.word "IN", .leftParen] ++ tokensOf d select ++ [.rightParen]

/-- The tokens of conditions. -/
def tokensAll (d : Dialect) : List Predicate → List (List Token)
  | [] => []
  | p :: rest => tokens d p :: tokensAll d rest

/-- The tokens of a statement. -/
def tokensOf (d : Dialect) : SelectOf Predicate → List Token
  | ⟨collection, columns, joins, predicates, orderBy, limit, offset⟩ =>
    Token.select d ⟨collection, columns, joins, tokensAll d predicates, orderBy, limit, offset⟩

end

mutual

/-- The identifiers in a condition, with those in the statements inside it. -/
def identifiers : Predicate → List String
  | .and items => identifiersAll items
  | .or items => identifiersAll items
  | .compare column _ _ => column.identifiers
  | .like column _ _ _ => column.identifiers
  | .inList column _ _ => column.identifiers
  | .between column _ _ _ => column.identifiers
  | .isNull column _ => column.identifiers
  | .inSelect column select => column.identifiers ++ identifiersOf select

/-- The identifiers in conditions. -/
def identifiersAll : List Predicate → List String
  | [] => []
  | p :: rest => identifiers p ++ identifiersAll rest

/-- The identifiers in a statement. -/
def identifiersOf : SelectOf Predicate → List String
  | ⟨collection, columns, joins, predicates, orderBy, _, _⟩ =>
    collection :: columns ++ joins.flatMap Join.identifiers ++ identifiersAll predicates
      ++ orderBy.flatMap fun o => o.column.identifiers

end

end Predicate

namespace Select

/-- The tokens of a statement, with its values at the places of its operands. -/
def tokens (s : Select) (d : Dialect) : List Token := Predicate.tokensOf d s

/-- The identifiers in a statement and in those inside it. -/
def identifiers (s : Select) : List String := Predicate.identifiersOf s

end Select

/-- Identifiers that are read back as they are from between the quote marks of a dialect. -/
def Dialect.Delimits (d : Dialect) (idents : List String) : Prop :=
  d = .clickhouse → ∀ ident ∈ idents, '\\' ∉ ident.toList

namespace Dialect.Delimits

variable {d : Dialect} {idents idents' : List String}

theorem mono (h : d.Delimits idents) (subset : idents' ⊆ idents) : d.Delimits idents' :=
  fun isClickhouse ident member => h isClickhouse ident (subset member)

theorem left (h : d.Delimits (idents ++ idents')) : d.Delimits idents := h.mono (by simp)

theorem right (h : d.Delimits (idents ++ idents')) : d.Delimits idents' := h.mono (by simp)

theorem of_mem {α : Type} {xs : List α} {f : α → List String} (h : d.Delimits (xs.flatMap f))
    {x : α} (member : x ∈ xs) : d.Delimits (f x) :=
  h.mono fun _ mem => List.mem_flatMap.mpr ⟨x, member, mem⟩

end Dialect.Delimits

end FilterSql
