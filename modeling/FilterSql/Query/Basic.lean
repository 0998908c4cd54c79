import FilterSql.Json.Decode

/-!
Queries: a filter, a search term, an ordering and paging, as a JSON document.

All fields may be left out, and the document may be an array with the fields in order. A sort key is
written with a leading hyphen when it is descending. Writing a query gives all fields.
-/

namespace FilterSql

/-- A column to sort by. -/
structure SortKey where
  column : String
  descending : Bool
  deriving DecidableEq, Repr

namespace SortKey

/-- The sort key of a text: one leading hyphen is taken off and means descending. -/
def ofText (s : String) : SortKey :=
  match s.toList with
  | '-' :: rest => ⟨String.ofList rest, true⟩
  | _ => ⟨s, false⟩

/-- The text of a sort key. -/
def toText (k : SortKey) : String := if k.descending then "-" ++ k.column else k.column

end SortKey

/-- A query on a collection. Limit, offset and page fit sixty-four bits. -/
structure Query where
  filter : Option Json := none
  search : Option String := none
  sort : List SortKey := []
  limit : Option Nat := none
  offset : Option Nat := none
  page : Option Nat := none
  single : Bool := false
  deriving DecidableEq, Repr, Inhabited

namespace Query

open Json (Shape Reader)

/-- A query that is being read; each field tells whether it was given. -/
structure Entry where
  filter : Option (Option Json)
  search : Option (Option String)
  sort : Option (List SortKey)
  limit : Option (Option Nat)
  offset : Option (Option Nat)
  page : Option (Option Nat)
  single : Option Bool

/-- A count that may be null. -/
def readCount : Reader (Option Nat) := Reader.optional (Reader.natural "u64")

/-- A list of sort keys. -/
def readSort : Reader (List SortKey) := fun x => do
  let texts ← Reader.list Reader.text x
  return texts.map SortKey.ofText

/-- A filter, which stands one level inside the query. -/
def readFilter : Reader (Option Json) := Reader.optional (Reader.document (Json.depthLimit - 1))

/-- How a query is read. -/
def shape : Shape Entry Query where
  name := "struct Query"
  fields :=
    [ ⟨"filter", false, (·.filter.isSome),
        fun q x => do return { q with filter := some (← readFilter x) }⟩,
      ⟨"search", false, (·.search.isSome),
        fun q x => do return { q with search := some (← Reader.optional Reader.text x) }⟩,
      ⟨"sort", false, (·.sort.isSome),
        fun q x => do return { q with sort := some (← readSort x) }⟩,
      ⟨"limit", false, (·.limit.isSome),
        fun q x => do return { q with limit := some (← readCount x) }⟩,
      ⟨"offset", false, (·.offset.isSome),
        fun q x => do return { q with offset := some (← readCount x) }⟩,
      ⟨"page", false, (·.page.isSome),
        fun q x => do return { q with page := some (← readCount x) }⟩,
      ⟨"single", false, (·.single.isSome),
        fun q x => do return { q with single := some (← Reader.flag x) }⟩ ]
  start := ⟨none, none, none, none, none, none, none⟩
  finish := fun q => .ok
    { filter := q.filter.getD none
      search := q.search.getD none
      sort := q.sort.getD []
      limit := q.limit.getD none
      offset := q.offset.getD none
      page := q.page.getD none
      single := q.single.getD false }
  positional := true
  passes := Json.Source.isWellFormed

/-- The query of a JSON text. -/
def ofText (text : String) : Except Json.Fault Query := Json.readText shape.reader text

/-- An optional value, null where there is none. -/
def orNull {α : Type} (f : α → Json) : Option α → Json
  | none => .null
  | some a => f a

/-- A count as a number. -/
def countToJson (n : Nat) : Json := .ofInt n

/-- The document of a query. -/
def toJson (q : Query) : Json :=
  .object
    [ ("filter", orNull id q.filter),
      ("search", orNull .string q.search),
      ("sort", .array (q.sort.map fun k => .string k.toText)),
      ("limit", orNull countToJson q.limit),
      ("offset", orNull countToJson q.offset),
      ("page", orNull countToJson q.page),
      ("single", .bool q.single) ]

end Query

end FilterSql
