import FilterSql.Compile.Filter
import FilterSql.Filter.Document
import FilterSql.Query.Basic
import FilterSql.Search
import FilterSql.Statement.Render

/-!
Applying a query to a statement.

Sorting and paging are attached first, then the joins and the predicate of the filter, then the
search. What was attached before is kept, so several queries may be applied to one statement. A
failure leaves the statement with what was attached up to it.
-/

namespace FilterSql

namespace Query

/-- The greatest count. -/
def maxCount : Nat := Word64.count - 1

/-- The offset that a query asks for: a page counted from one goes before an offset if there is a
limit to count pages by, and zero asks for nothing. -/
def pageOffset (q : Query) : Option Nat :=
  match q.page, q.limit with
  | some (page + 1), some limit => some (min (limit * page) maxCount)
  | _, _ => q.offset.filter (0 < ·)

/-- The statement with the ordering and paging of a query. -/
def attachPaging (q : Query) (collection : String) (s : Select) : Select :=
  { s with
    orderBy := s.orderBy ++ q.sort.map fun k => ⟨⟨collection, k.column⟩, k.descending⟩
    limit := if q.single then some 1 else q.limit <|> s.limit
    offset := q.pageOffset <|> s.offset }

/-- The statement with joins and a predicate. -/
def attachFilter (compiled : CompiledFilter) (s : Select) : Select :=
  { s with
    joins := s.joins ++ compiled.joins
    predicates := s.predicates ++ compiled.predicate.toList }

/-- Compiles a filter document, with aliases of its own. -/
def compileFilter (cat : Catalog) (options : CompileOptions) (draws : Nat → Nat)
    (collection : String) (document : Json) : Except CompileError CompiledFilter := do
  let filter ← Filter.ofJson options document
  (filter.compile cat options.unresolvedPaths false collection
    (AliasTable.fresh options.aliases draws cat.names)).1

/-- Attaches the filter of a query, if it has one. -/
def applyFilter (q : Query) (cat : Catalog) (options : CompileOptions) (draws : Nat → Nat)
    (collection : String) : Step Select Unit :=
  match q.filter with
  | none => pure ()
  | some document => do
    let compiled ← Step.ofExcept (compileFilter cat options draws collection document)
    Step.modify (attachFilter compiled)

/-- Attaches the search of a query, unless the term is blank. -/
def applySearch (q : Query) (cat : Catalog) (collection : String) : Step Select Unit :=
  match q.search with
  | none => pure ()
  | some term =>
    if Text.isAllBlank term then pure ()
    else do
      let p ← Step.ofExcept (Search.predicate cat collection term)
      Step.modify fun s => { s with predicates := s.predicates ++ [p] }

/-- Applies a query on a collection to a statement. -/
def apply (q : Query) (cat : Catalog) (options : CompileOptions) (draws : Nat → Nat)
    (collection : String) : Step Select Unit := do
  let _ ← Step.ofExcept (cat.requireCollection collection)
  Step.modify (q.attachPaging collection)
  q.applyFilter cat options draws collection
  q.applySearch cat collection

/-- The statement of a query on a collection. -/
def compile (q : Query) (cat : Catalog) (options : CompileOptions) (draws : Nat → Nat)
    (collection : String) : Except CompileError Select :=
  match q.apply cat options draws collection (Select.ofCollection collection) with
  | (.ok (), s) => .ok s
  | (.error e, _) => .error e

end Query

end FilterSql
