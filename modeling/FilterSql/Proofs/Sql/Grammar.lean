import FilterSql.Proofs.Sql.Placeholders

/-!
The grammar of select statements, as readers of token lists.

An expression is a disjunction of conjunctions of conditions; a condition is an expression in
parentheses, an equality of numbers or a test of a column. The `AND` between the bounds of `BETWEEN`
is taken by the test. A reader takes its part from the front of the tokens and leaves the rest; it
fails where the grammar does not allow the tokens. The depth to which conditions are read is bounded
by the number of tokens.
-/

namespace FilterSql

namespace Grammar

/-- A rule of the grammar: a reader of the front of a token list. -/
abbrev Rule (α : Type) := List Token → Option (α × List Token)

/-- The tokens behind an expected one. -/
def expect (t : Token) : List Token → Option (List Token)
  | [] => none
  | t' :: ts => if t' = t then some ts else none

/-- At most `n` things, and at least one, with a token between neighbours. -/
def sepBy {α : Type} (sep : Token) (item : Rule α) : Nat → Rule (List α)
  | 0, _ => none
  | n + 1, ts => do
    let (x, ts) ← item ts
    match expect sep ts with
    | none => return ([x], ts)
    | some ts =>
      let (xs, ts) ← sepBy sep item n ts
      return (x :: xs, ts)

/-! ### Tests of a column -/

/-- A value. -/
def value (d : Dialect) : Rule SqlValue
  | .operand v :: ts => some (v, ts)
  | .word "NULL" :: ts => some (.null, ts)
  | .word "TRUE" :: ts => some (.bool true, ts)
  | .word "FALSE" :: ts => some (.bool false, ts)
  | .number 1 :: ts => if d = .sqlite then some (.bool true, ts) else none
  | .number 0 :: ts => if d = .sqlite then some (.bool false, ts) else none
  | _ => none

/-- A pattern whose metacharacters are escaped by backslashes. In clickhouse they always are. -/
def pattern (d : Dialect) : Rule String
  | .operand (.text p) :: ts =>
    if d = .clickhouse then some (p, ts)
    else do
      let ts ← expect (.word "ESCAPE") ts
      let ts ← expect (.literal "\\") ts
      return (p, ts)
  | _ => none

/-- What stands behind a column, or behind a column and `NOT`. -/
def negatable (d : Dialect) (fuel : Nat) (column : ColumnRef) (negated : Bool) : Rule Predicate
  | .word "LIKE" :: ts => do
    let (p, ts) ← pattern d ts
    return (.like column p negated false, ts)
  | .word "IN" :: .leftParen :: ts => do
    let (values, ts) ← sepBy .comma (value d) fuel ts
    let ts ← expect .rightParen ts
    return (.inList column values negated, ts)
  | .word "BETWEEN" :: ts => do
    let (low, ts) ← value d ts
    let ts ← expect (.word "AND") ts
    let (high, ts) ← value d ts
    return (.between column low high negated, ts)
  | _ => none

/-- What stands behind a column in lower case. -/
def lowered (d : Dialect) (column : ColumnRef) : Rule Predicate
  | .word "LIKE" :: ts => do
    let (p, ts) ← pattern d ts
    return (.like column p false true, ts)
  | .word "NOT" :: .word "LIKE" :: ts => do
    let (p, ts) ← pattern d ts
    return (.like column p true true, ts)
  | _ => none

/-- What stands behind a column. -/
def test (d : Dialect) (fuel : Nat) (select : Rule Select) (column : ColumnRef) : Rule Predicate
  | .comparison op :: ts => do
    let (v, ts) ← value d ts
    return (.compare column op v, ts)
  | .word "IS" :: .word "NULL" :: ts => some (.isNull column false, ts)
  | .word "IS" :: .word "NOT" :: .word "NULL" :: ts => some (.isNull column true, ts)
  | .word "IN" :: .leftParen :: .word "SELECT" :: ts => do
    let (s, ts) ← select (.word "SELECT" :: ts)
    let ts ← expect .rightParen ts
    return (.inSelect column s, ts)
  | .word "NOT" :: ts => negatable d fuel column true ts
  | ts => negatable d fuel column false ts

/-! ### Expressions -/

/-- Conditions under a connective. -/
def joined (op : Connective) (item : Rule Predicate) (fuel : Nat) : Rule Predicate :=
  fun ts => do
    let (ps, ts) ← sepBy (.connective op) item fuel ts
    return (Predicate.group op ps, ts)

/-- An expression: `AND` binds tighter than `OR`. -/
def expression (condition : Rule Predicate) (fuel : Nat) : Rule Predicate :=
  joined .or (joined .and condition fuel) fuel

/-! ### Statements -/

/-- A qualified column. -/
def column : Rule ColumnRef
  | .name table :: .dot :: .name c :: ts => some (⟨table, c⟩, ts)
  | _ => none

/-- The selected columns: the tables that they are qualified by, and their names. -/
def selection (fuel : Nat) : Rule (List String × List String)
  | .name table :: .dot :: .star :: ts => some (([table], []), ts)
  | ts => do
    let (columns, ts) ← sepBy .comma column fuel ts
    return ((columns.map (·.table), columns.map (·.column)), ts)

/-- At most `n` join clauses. -/
def joins : Nat → Rule (List Join)
  | n + 1, .word "LEFT" :: .word "JOIN" :: .name table :: .word "AS" :: .name qualifier
      :: .word "ON" :: .name t :: .dot :: .name c :: .comparison .eq :: .name t' :: .dot :: .name c'
      :: ts => do
    let (js, ts) ← joins n ts
    return (⟨table, qualifier, ⟨t, c⟩, ⟨t', c'⟩⟩ :: js, ts)
  | _, ts => some ([], ts)

/-- The clause of the conditions, if there is one. -/
def whereClause (condition : Rule Predicate) (fuel : Nat) : Rule (List Predicate)
  | .word "WHERE" :: ts => do
    let (p, ts) ← expression condition fuel ts
    return ([p], ts)
  | ts => some ([], ts)

/-- An entry of an ordering. -/
def orderEntry : Rule OrderEntry
  | .name table :: .dot :: .name c :: .word "ASC" :: ts => some (⟨⟨table, c⟩, false⟩, ts)
  | .name table :: .dot :: .name c :: .word "DESC" :: ts => some (⟨⟨table, c⟩, true⟩, ts)
  | _ => none

/-- The clause of the ordering, if there is one. -/
def orderClause (fuel : Nat) : Rule (List OrderEntry)
  | .word "ORDER" :: .word "BY" :: ts => sepBy .comma orderEntry fuel ts
  | ts => some ([], ts)

/-- The paging clause, if there is one. In sqlite a limit of `-1` is none. -/
def paging (d : Dialect) : Rule (Option Nat × Option Nat)
  | .word "LIMIT" :: .number limit :: .word "OFFSET" :: .number offset :: ts =>
    some ((some limit, some offset), ts)
  | .word "LIMIT" :: .number limit :: ts => some ((some limit, none), ts)
  | .word "LIMIT" :: .minus :: .number 1 :: .word "OFFSET" :: .number offset :: ts =>
    if d = .sqlite then some ((none, some offset), ts) else none
  | .word "OFFSET" :: .number offset :: ts => some ((none, some offset), ts)
  | ts => some ((none, none), ts)

/-- A statement. Its columns are qualified by its collection. -/
def select (d : Dialect) (condition : Rule Predicate) (fuel : Nat) : Rule Select
  | .word "SELECT" :: ts => do
    let ((tables, columns), ts) ← selection fuel ts
    let ts ← expect (.word "FROM") ts
    match ts with
    | .name collection :: ts =>
      let (joins, ts) ← joins fuel ts
      let (predicates, ts) ← whereClause condition fuel ts
      let (orderBy, ts) ← orderClause fuel ts
      let ((limit, offset), ts) ← paging d ts
      if tables.all (· = collection) then
        return (⟨collection, columns, joins, predicates, orderBy, limit, offset⟩, ts)
      else none
    | _ => none
  | _ => none

/-- A condition: an expression in parentheses, an equality of numbers or a test of a column. -/
def condition (d : Dialect) : Nat → Rule Predicate
  | 0, _ => none
  | fuel + 1, .leftParen :: ts => do
    let (p, ts) ← expression (condition d fuel) fuel ts
    let ts ← expect .rightParen ts
    return (p, ts)
  | _ + 1, .number m :: .comparison .eq :: .number n :: ts =>
    some (if m = n then .and [] else .or [], ts)
  | _ + 1, .word "LOWER" :: .leftParen :: .name table :: .dot :: .name c :: .rightParen :: ts =>
    lowered d ⟨table, c⟩ ts
  | fuel + 1, .name table :: .dot :: .name c :: ts =>
    test d fuel (select d (condition d fuel) fuel) ⟨table, c⟩ ts
  | _ + 1, _ => none

end Grammar

/-- The statement that a text stands for, with the parameters in the places of its placeholders. -/
def Select.read (d : Dialect) (params : List SqlValue) (position : Nat) (text : String) :
    Option Select := do
  let tokens ← lex d text.toList
  let tokens ← Token.supply params position tokens
  let (s, rest) ← Grammar.select d (Grammar.condition d tokens.length) tokens.length tokens
  if rest = [] then some s else none

example :
    Select.read .postgres [.int 1] 0
        "SELECT \"t\".* FROM \"t\" WHERE \"t\".\"a\" = $1 OR \"t\".\"b\" IS NULL AND \"t\".\"c\" IS NULL"
      = some { Select.ofCollection "t" with
        predicates := [
          .or [.compare ⟨"t", "a"⟩ .eq (.int 1),
            .and [.isNull ⟨"t", "b"⟩ false, .isNull ⟨"t", "c"⟩ false]]] } := by
  rfl

end FilterSql
