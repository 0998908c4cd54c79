import FilterSql.Compile.Leaf
import FilterSql.Compile.Path
import FilterSql.Filter.Basic
import FilterSql.Step

/-!
Compiling a filter against a collection.

A filter is walked twice. The first walk finds all joins; the second one makes a predicate of each
entry, over the aliases that the first walk gave out. A reverse hop outside a sub-select asks whether
the primary key is among the results of a sub-select on the many side, where the rest of the path
and what stands at its end is compiled. Inside a sub-select reverse hops are joined, so sub-selects
never hold sub-selects.

A disjunction with an empty filter in it holds, and both walks pass it over.
-/

namespace FilterSql

/-- What a filter is compiled to. Without a predicate it constrains nothing. -/
structure CompiledFilter where
  joins : List Join
  predicate : Option Predicate
  deriving Repr

namespace Compile

/-- What stays the same while one filter is compiled. -/
structure Frame where
  catalog : Catalog
  policy : PathPolicy
  scope : Scope

/-- Makes a predicate of a filter behind a reverse hop from an anchor. -/
abbrev Delegate := Anchor → Relation → Filter → Step AliasTable Predicate

/-- Follows hops from an anchor. -/
def Frame.follow (f : Frame) (here : Anchor) (hops : List String) (w : Walk) : Resolution × Walk :=
  w.follow f.catalog f.scope 0 here hops

mutual

/-- Makes the joins of a filter. -/
def discover (f : Frame) (here : Anchor) : List Entry → Walk → Walk
  | [], w => w
  | e :: rest, w => discover f here rest (discoverEntry f here e w)

/-- Makes the joins of an entry. The last segment of a comparison is a column and no hop. -/
def discoverEntry (f : Frame) (here : Anchor) : Entry → Walk → Walk
  | .group op children, w =>
    if Entry.shortCircuits op children then w else discoverAll f here children w
  | .leaf path _ _, w => (f.follow here path.dropLast w).2
  | .nested path body, w =>
    match f.follow here path w with
    | (.reached there, w) => discover f there body w
    | (_, w) => w

/-- Makes the joins of combined filters. -/
def discoverAll (f : Frame) (here : Anchor) : List (List Entry) → Walk → Walk
  | [], w => w
  | child :: rest, w => discoverAll f here rest (discover f here child w)

end

/-- Whether the catalog knows a collection and not the column. -/
def Frame.lacksColumn (f : Frame) (collection column : String) : Bool :=
  match f.catalog.collection? collection with
  | some c => !c.hasColumn column
  | none => false

/-- The predicates of a comparison whose hops are joined, with the collection that its path starts
from. -/
def Frame.emitLeaf (f : Frame) (start : String) (there : Anchor) (path : List String)
    (operator : Operator) (operand : Json) : Except CompileError (List Predicate) :=
  match path.getLast? with
  | none => .ok []
  | some column =>
    match f.catalog.relationFor there.collection column with
    | some (_, .reverse) =>
      .error (.invalidOperand operator (Text.join "." path) .needsNestedFilter)
    | _ =>
      if f.lacksColumn there.collection column && f.policy == .reject then
        .error (.malformedPath start path column)
      else
        (Leaf.predicate (there.column column) (f.catalog.localType there.collection column) operator
          operand).map ([·])

/-- The predicates of an entry with a segment that is no relation: none, or an error. -/
def Frame.emitUnresolved (f : Frame) (start : String) (path : List String) (segment : String) :
    Except CompileError (List Predicate) :=
  match f.policy with
  | .ignore => .ok []
  | .reject => .error (.malformedPath start path segment)

/-- The predicates of a filter behind a reverse hop. A walk that joins reverse hops meets none. -/
def delegated (delegate : Option Delegate) (there : Anchor) (r : Relation) (child : Filter) :
    Step Walk (List Predicate) :=
  match delegate with
  | none => pure []
  | some d => do
    let p ← Step.within Walk.aliases (fun aliases w => { w with aliases := aliases })
      (d there r child)
    return [p]

mutual

/-- The predicates of a filter, all of which must hold. -/
def emit (f : Frame) (delegate : Option Delegate) (here : Anchor) :
    List Entry → Step Walk (List Predicate)
  | [] => pure []
  | e :: rest => do
    let ps ← emitEntry f delegate here e
    let qs ← emit f delegate here rest
    return ps ++ qs

/-- The predicates of an entry. -/
def emitEntry (f : Frame) (delegate : Option Delegate) (here : Anchor) :
    Entry → Step Walk (List Predicate)
  | .group op children =>
    if Entry.shortCircuits op children then pure []
    else do
      let items ← emitAll f delegate here children
      return if items.isEmpty then [] else [Predicate.group op items]
  | .leaf path operator operand => do
    match ← Step.ofTotal (f.follow here path.dropLast) with
    | .reached there =>
      Step.ofExcept (f.emitLeaf here.collection there path operator operand)
    | .deferred there r consumed =>
      delegated delegate there r [.leaf (path.drop consumed) operator operand]
    | .unresolved _ segment => Step.ofExcept (f.emitUnresolved here.collection path segment)
  | .nested path body => do
    match ← Step.ofTotal (f.follow here path) with
    | .reached there => emit f delegate there body
    | .deferred there r consumed =>
      let rest := path.drop consumed
      delegated delegate there r (if rest.isEmpty then body else [.nested rest body])
    | .unresolved _ segment => Step.ofExcept (f.emitUnresolved here.collection path segment)

/-- One predicate for each of the combined filters that constrains anything. -/
def emitAll (f : Frame) (delegate : Option Delegate) (here : Anchor) :
    List (List Entry) → Step Walk (List Predicate)
  | [] => pure []
  | child :: rest => do
    let ps ← emit f delegate here child
    let items ← emitAll f delegate here rest
    return if ps.isEmpty then items else Predicate.group .and ps :: items

end

/-- The predicate that all of the given ones hold, if there are any. -/
def conjunction (ps : List Predicate) : Option Predicate :=
  if ps.isEmpty then none else some (Predicate.group .and ps)

/-- Compiles a filter in a scope. -/
def inScope (f : Frame) (delegate : Option Delegate) (collection : String) (filter : Filter) :
    Step AliasTable CompiledFilter := fun aliases =>
  let here := Anchor.root collection
  match emit f delegate here filter (discover f here filter ⟨aliases, []⟩) with
  | (.ok ps, w) => (.ok ⟨w.joins, conjunction ps⟩, w.aliases)
  | (.error e, w) => (.error e, w.aliases)

end Compile

namespace Filter

/-- Compiles a filter for a sub-select, in a scope of its own. -/
def compileInner (cat : Catalog) (policy : PathPolicy) (collection : String) (filter : Filter) :
    Step AliasTable CompiledFilter := do
  let _ ← Step.ofExcept (cat.requireCollection collection)
  let id ← Step.ofTotal AliasTable.newScope
  Compile.inScope ⟨cat, policy, ⟨id, true⟩⟩ none collection filter

/-- The statement for the many side of a relation: the referring field of the rows that a filter
matches. -/
def subselect (cat : Catalog) (policy : PathPolicy) (r : Relation) (filter : Filter) :
    Step AliasTable Select := do
  let compiled ← compileInner cat policy r.manyCollection filter
  return { Select.ofCollection r.manyCollection with
    columns := [r.manyField]
    joins := compiled.joins
    predicates := compiled.predicate.toList }

/-- The predicate that the primary key at an anchor is among the results of a sub-select. -/
def membership (cat : Catalog) (policy : PathPolicy) (there : Anchor) (r : Relation)
    (filter : Filter) : Step AliasTable Predicate := do
  let select ← subselect cat policy r filter
  return .inSelect (there.column r.onePrimary) select

/-- Compiles a filter for a whole statement. -/
def compileOuter (cat : Catalog) (policy : PathPolicy) (collection : String) (filter : Filter) :
    Step AliasTable CompiledFilter := do
  let _ ← Step.ofExcept (cat.requireCollection collection)
  Compile.inScope ⟨cat, policy, Scope.root⟩ (some (membership cat policy)) collection filter

/-- Compiles a filter against a collection, for a whole statement or for a sub-select. -/
def compile (cat : Catalog) (policy : PathPolicy) (subQuery : Bool) (collection : String)
    (filter : Filter) : Step AliasTable CompiledFilter :=
  if subQuery then compileInner cat policy collection filter
  else compileOuter cat policy collection filter

end Filter

end FilterSql
