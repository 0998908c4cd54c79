import FilterSql.Json.Decode
import FilterSql.Schema.System

/-!
Reading a catalog from a JSON document.

The document has a table of collections, each with a primary key and a table of fields with their
storage types, and a list of relations. Primary keys are `id` unless said otherwise.
-/

namespace FilterSql

namespace SchemaDocument

open Json (Field Shape Reader)

/-- The primary key of collections and relations that name none. -/
def defaultPrimary : String := "id"

/-- A collection as it is declared. -/
structure CollectionEntry where
  primary : Option String
  fields : Option (List (String × String))

/-- How a collection is read. -/
def collectionShape : Shape CollectionEntry CollectionEntry where
  name := "struct CollectionDocument"
  fields :=
    [ ⟨"primary", false, (·.primary.isSome),
        fun c x => do return { c with primary := some (← Reader.text x) }⟩,
      ⟨"fields", false, (·.fields.isSome),
        fun c x => do return { c with fields := some (← Reader.table Reader.text x) }⟩ ]
  start := ⟨none, none⟩
  finish := .ok
  positional := true
  passes := Json.Source.isWellFormed

/-- A relation as it is declared. -/
structure RelationEntry where
  manyCollection : Option String
  manyField : Option String
  oneCollection : Option String
  onePrimary : Option String
  oneField : Option (Option String)

/-- How a relation is read. -/
def relationShape : Shape RelationEntry Relation where
  name := "struct Relation"
  fields :=
    [ ⟨"many_collection", true, (·.manyCollection.isSome),
        fun r x => do return { r with manyCollection := some (← Reader.text x) }⟩,
      ⟨"many_field", true, (·.manyField.isSome),
        fun r x => do return { r with manyField := some (← Reader.text x) }⟩,
      ⟨"one_collection", true, (·.oneCollection.isSome),
        fun r x => do return { r with oneCollection := some (← Reader.text x) }⟩,
      ⟨"one_primary", false, (·.onePrimary.isSome),
        fun r x => do return { r with onePrimary := some (← Reader.text x) }⟩,
      ⟨"one_field", false, (·.oneField.isSome),
        fun r x => do return { r with oneField := some (← Reader.optional Reader.text x) }⟩ ]
  start := ⟨none, none, none, none, none⟩
  finish := fun r => do
    return { manyCollection := ← Json.requireField "many_collection" r.manyCollection
             manyField := ← Json.requireField "many_field" r.manyField
             oneCollection := ← Json.requireField "one_collection" r.oneCollection
             onePrimary := r.onePrimary.getD defaultPrimary
             oneField := r.oneField.getD none }
  positional := true
  passes := Json.Source.isWellFormed

/-- A catalog as it is declared. -/
structure CatalogEntry where
  collections : Option (List (String × CollectionEntry))
  relations : Option (List Relation)

/-- How a catalog is read. -/
def catalogShape : Shape CatalogEntry CatalogEntry where
  name := "struct SchemaDocument"
  fields :=
    [ ⟨"collections", false, (·.collections.isSome),
        fun c x => do
          return { c with collections := some (← Reader.table collectionShape.reader x) }⟩,
      ⟨"relations", false, (·.relations.isSome),
        fun c x => do return { c with relations := some (← Reader.list relationShape.reader x) }⟩ ]
  start := ⟨none, none⟩
  finish := .ok
  positional := true
  passes := Json.Source.isWellFormed

/-- The collection that an entry declares under a name. -/
def CollectionEntry.toCollection (entry : CollectionEntry) (name : String) : Collection :=
  .ofFields name (entry.primary.getD defaultPrimary) (entry.fields.getD [])

end SchemaDocument

namespace Catalog

/-- The catalog of a JSON text. -/
def ofText (text : String) : Except CompileError Catalog :=
  match Json.readText SchemaDocument.catalogShape.reader text with
  | .error fault => .error (.schemaIntegrity (.unreadable fault))
  | .ok entry =>
    build ((entry.collections.getD []).map fun (name, c) => c.toCollection name)
      (entry.relations.getD [])

end Catalog

end FilterSql
