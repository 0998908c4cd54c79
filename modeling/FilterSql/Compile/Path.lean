import FilterSql.Compile.Alias
import FilterSql.Schema.Catalog
import FilterSql.Statement.Basic

/-!
Following the relations of a field path.

Each hop joins the table on the other end of a relation, under an alias that belongs to the place
where the hop starts and the field it follows, so that paths with the same beginning share their
joins. A reverse hop may match many rows. It is joined inside a sub-select only; elsewhere the walk
stops in front of it.
-/

namespace FilterSql

/-- Where a path stands: a collection, and the name that qualifies its columns. -/
structure Anchor where
  collection : String
  qualifier : String
  deriving DecidableEq, Repr

namespace Anchor

/-- The beginning of a path, where the collection qualifies its own columns. -/
def root (collection : String) : Anchor := ⟨collection, collection⟩

/-- A column of the collection. -/
def column (a : Anchor) (name : String) : ColumnRef := ⟨a.qualifier, name⟩

end Anchor

/-- What a walk along a path ends in. -/
inductive Resolution where
  /-- every hop is joined -/
  | reached (anchor : Anchor)
  /-- the walk stops in front of a reverse hop; `consumed` counts the hops up to it, itself
  included -/
  | deferred (anchor : Anchor) (relation : Relation) (consumed : Nat)
  /-- a segment is no relation -/
  | unresolved (anchor : Anchor) (segment : String)
  deriving DecidableEq, Repr

/-- The part of a statement whose paths share their aliases. -/
structure Scope where
  id : Nat
  /-- whether reverse hops are joined, as they are in a sub-select -/
  joinsReverse : Bool
  deriving DecidableEq, Repr

/-- The scope of a whole statement. -/
def Scope.root : Scope := ⟨0, false⟩

/-- The state of walking paths: the aliases given out and the joins made so far. -/
structure Walk where
  aliases : AliasTable
  joins : List Join

namespace Walk

/-- Joins a table on the equality of two columns, unless the alias shows that it is joined
already. -/
def hop (scope : Scope) (here : Anchor) (field table leftColumn rightColumn : String) (w : Walk) :
    Anchor × Walk :=
  let ((name, created), aliases) := w.aliases.aliasFor ⟨scope.id, here.qualifier, field⟩
  let join : Join :=
    { table := table
      qualifier := name
      left := here.column leftColumn
      right := ⟨name, rightColumn⟩ }
  (⟨table, name⟩, ⟨aliases, if created then w.joins ++ [join] else w.joins⟩)

/-- Follows hops from an anchor; `consumed` counts the hops already followed. -/
def follow (cat : Catalog) (scope : Scope) (consumed : Nat) (here : Anchor) :
    List String → Walk → Resolution × Walk
  | [], w => (.reached here, w)
  | field :: rest, w =>
    match cat.relationFor here.collection field with
    | none => (.unresolved here field, w)
    | some (r, .forward) =>
      let (there, w) := w.hop scope here field r.oneCollection r.manyField r.onePrimary
      follow cat scope (consumed + 1) there rest w
    | some (r, .reverse) =>
      if scope.joinsReverse then
        let (there, w) := w.hop scope here field r.manyCollection r.onePrimary r.manyField
        follow cat scope (consumed + 1) there rest w
      else (.deferred here r (consumed + 1), w)

end Walk

end FilterSql
