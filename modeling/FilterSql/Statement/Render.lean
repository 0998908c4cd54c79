import FilterSql.Sql.Fragment
import FilterSql.Statement.Basic
import FilterSql.Text.Split

/-!
The SQL text of statements and predicates, with their operands in the order of the text.
-/

namespace FilterSql

/-- The text that is always true. -/
def trueSql : String := "1=1"

/-- The text that is always false. -/
def falseSql : String := "1=0"

/-- A qualified column. -/
def ColumnRef.sql (d : Dialect) (c : ColumnRef) : String := d.qualify c.table c.column

/-- A join clause. -/
def Join.sql (d : Dialect) (j : Join) : String :=
  "LEFT JOIN " ++ d.quoteIdent j.table ++ " AS " ++ d.quoteIdent j.qualifier ++ " ON " ++ j.left.sql d
    ++ " = " ++ j.right.sql d

/-- The word before a negated test. -/
def negation (negated : Bool) : String := if negated then "NOT " else ""

namespace Fragment

/-- Conditions under a connective: none of them is the connective's neutral element, one stands for
itself, several are put in parentheses. -/
def group (op : Connective) : List Fragment → Fragment
  | [] => ofText (if op = .and then trueSql else falseSql)
  | [f] => f
  | fs => .text "(" :: joinWith (" " ++ op.keyword ++ " ") fs ++ ofText ")"

/-- A test of a column against a list of values. The empty list needs no column. -/
def membership (d : Dialect) (column : ColumnRef) (values : List SqlValue) (negated : Bool) :
    Fragment :=
  if values.isEmpty then ofText (if negated then trueSql else falseSql)
  else
    .text (column.sql d ++ " " ++ negation negated ++ "IN (")
      :: joinWith ", " (values.map (ofValue d)) ++ ofText ")"

/-- The selected columns of a table. -/
def columnList (d : Dialect) (table : String) : List String → String
  | [] => d.quoteIdent table ++ ".*"
  | columns => Text.join ", " (columns.map (d.qualify table))

/-- A statement whose conditions are rendered already. -/
def select (d : Dialect) (s : SelectOf Fragment) : Fragment :=
  let head := "SELECT " ++ columnList d s.collection s.columns ++ " FROM "
    ++ d.quoteIdent s.collection
  let joins := s.joins.map fun j => Piece.text (" " ++ j.sql d)
  let conditions :=
    if s.predicates.isEmpty then [] else .text " WHERE " :: joinWith " AND " s.predicates
  let ordering :=
    if s.orderBy.isEmpty then []
    else
      ofText (" ORDER BY "
        ++ Text.join ", " (s.orderBy.map fun o => d.orderBy (o.column.sql d) o.descending))
  let limit := d.limitOffset s.limit s.offset
  let paging := if limit = "" then [] else ofText (" " ++ limit)
  .text head :: joins ++ conditions ++ ordering ++ paging

end Fragment

mutual

/-- The text of a condition. -/
def Predicate.fragment (d : Dialect) : Predicate → Fragment
  | .and items => Fragment.group .and (predicateFragments d items)
  | .or items => Fragment.group .or (predicateFragments d items)
  | .compare column op value =>
    .text (column.sql d ++ " " ++ op.symbol ++ " ") :: Fragment.ofValue d value
  | .like column pattern negated caseInsensitive =>
    let tested := if caseInsensitive then d.lower (column.sql d) else column.sql d
    .text (tested ++ " " ++ negation negated ++ "LIKE ")
      :: .operand (.text pattern) :: Fragment.ofText d.likeEscape
  | .inList column values negated => Fragment.membership d column values negated
  | .between column low high negated =>
    .text (column.sql d ++ " " ++ negation negated ++ "BETWEEN ")
      :: Fragment.ofValue d low ++ .text " AND " :: Fragment.ofValue d high
  | .isNull column negated =>
    Fragment.ofText (column.sql d ++ " IS " ++ negation negated ++ "NULL")
  | .inSelect column select =>
    .text (column.sql d ++ " IN (") :: selectFragment d select ++ Fragment.ofText ")"

/-- The texts of conditions. -/
def predicateFragments (d : Dialect) : List Predicate → List Fragment
  | [] => []
  | p :: rest => Predicate.fragment d p :: predicateFragments d rest

/-- The text of a statement. -/
def selectFragment (d : Dialect) : SelectOf Predicate → Fragment
  | ⟨collection, columns, joins, predicates, orderBy, limit, offset⟩ =>
    Fragment.select d
      ⟨collection, columns, joins, predicateFragments d predicates, orderBy, limit, offset⟩

end

namespace Predicate

/-- The SQL text of a condition, and the parameters with its operands after those already bound. -/
def render (p : Predicate) (d : Dialect) (params : List SqlValue) : String × List SqlValue :=
  (p.fragment d).render d params

end Predicate

/-- A statement ready to be run: its SQL text and its parameters. -/
structure RenderedQuery where
  sql : String
  params : List SqlValue
  deriving DecidableEq, Repr

namespace RenderedQuery

/-- The JSON document of a rendered statement. -/
def toJson (q : RenderedQuery) : Json :=
  .object [("sql", .string q.sql), ("params", .array (q.params.map SqlValue.toJson))]

end RenderedQuery

namespace Select

/-- The SQL text of a statement, and the parameters with its operands after those already bound. -/
def render (s : Select) (d : Dialect) (params : List SqlValue) : String × List SqlValue :=
  (selectFragment d s).render d params

/-- The statement with parameters of its own. -/
def toSql (s : Select) (d : Dialect) : RenderedQuery :=
  let (sql, params) := s.render d []
  ⟨sql, params⟩

end Select

end FilterSql
