import FilterSql.Error
import FilterSql.Schema.LocalType

/-!
Catalogs: collections with their columns, and the relations between them.

A relation is *exposed* on both of its ends, on the many side under the field that refers to the one
side, and on the one side under a field of its own if it has one. A catalog is built only from
collections with different names whose primary keys are columns, and relations whose ends exist.
-/

namespace FilterSql

/-- A column of a collection. -/
structure Column where
  name : String
  collection : String
  storageType : String
  localType : LocalType
  deriving DecidableEq, Repr

/-- A table with its columns in order. -/
structure Collection where
  name : String
  primary : String
  columns : List Column
  deriving DecidableEq, Repr

namespace Collection

/-- The collection with the given fields and their storage types. A field given twice keeps its first
place and its last type. -/
def ofFields (name primary : String) (fields : List (String × String)) : Collection where
  name := name
  primary := primary
  columns := (Json.distinctMembers fields).map fun (field, storageType) =>
    { name := field
      collection := name
      storageType := storageType
      localType := .ofStorageType storageType }

/-- The column of a name. -/
def column? (c : Collection) (name : String) : Option Column := c.columns.find? (·.name == name)

/-- Whether a name is a column. -/
def hasColumn (c : Collection) (name : String) : Bool := (c.column? name).isSome

end Collection

/-- A many-to-one relation: `manyField` of the many side holds a value of `onePrimary` of the one
side, where the relation may be exposed as `oneField`. -/
structure Relation where
  manyCollection : String
  manyField : String
  oneCollection : String
  onePrimary : String
  oneField : Option String
  deriving DecidableEq, Repr, Inhabited

/-- The way a relation is followed. -/
inductive Direction where
  /-- from the many side to the one side -/
  | forward
  /-- from the one side to the many side -/
  | reverse
  deriving DecidableEq, Repr

/-- The name of a direction. -/
def Direction.name : Direction → String
  | .forward => "forward"
  | .reverse => "reverse"

namespace Relation

/-- The direction in which a relation is followed from a field of a collection, if it is exposed
there. The many side comes first. -/
def exposedAs (r : Relation) (collection field : String) : Option Direction :=
  if r.manyCollection = collection ∧ r.manyField = field then some .forward
  else if r.oneCollection = collection ∧ r.oneField = some field then some .reverse
  else none

end Relation

/-- Collections and relations, in order. -/
structure Catalog where
  collections : List Collection
  relations : List Relation
  deriving DecidableEq, Repr

namespace Catalog

/-- The collection of a name. -/
def collection? (cat : Catalog) (name : String) : Option Collection :=
  cat.collections.find? (·.name == name)

/-- The collection of a name, which must be there. -/
def requireCollection (cat : Catalog) (name : String) : Except CompileError Collection :=
  match cat.collection? name with
  | some c => .ok c
  | none => .error (.unknownCollection name)

/-- The names of all collections in order. -/
def names (cat : Catalog) : List String := cat.collections.map (·.name)

/-- The local type of a column, unknown where there is no such column. -/
def localType (cat : Catalog) (collection column : String) : LocalType :=
  match (cat.collection? collection).bind (·.column? column) with
  | some c => c.localType
  | none => .unknown

/-- The first relation exposed on a collection under a field, with its direction. -/
def relationFor (cat : Catalog) (collection field : String) : Option (Relation × Direction) :=
  cat.relations.findSome? fun r => (r.exposedAs collection field).map (r, ·)

/-- The first name that a list holds twice, at its second place. -/
def firstRepeated (seen : List String) : List String → Option String
  | [] => none
  | name :: rest => if name ∈ seen then some name else firstRepeated (name :: seen) rest

/-- The first collection whose primary key is no column. -/
def checkPrimaries : List Collection → Except SchemaFault Unit
  | [] => .ok ()
  | c :: rest =>
    if c.hasColumn c.primary then checkPrimaries rest
    else .error (.primaryNotAColumn c.name c.primary)

/-- Fails unless a column exists. -/
def checkColumn (cat : Catalog) (collection column : String) : Except SchemaFault Unit :=
  match cat.collection? collection with
  | none => .error (.missingCollection collection)
  | some c => if c.hasColumn column then .ok () else .error (.missingColumn collection column)

/-- Fails at the first relation one of whose ends does not exist. -/
def checkRelations (cat : Catalog) : List Relation → Except SchemaFault Unit
  | [] => .ok ()
  | r :: rest => do
    cat.checkColumn r.manyCollection r.manyField
    cat.checkColumn r.oneCollection r.onePrimary
    cat.checkRelations rest

/-- Fails unless names are different, primary keys are columns and relations have their ends. -/
def check (cat : Catalog) : Except SchemaFault Unit :=
  match firstRepeated [] cat.names with
  | some name => .error (.repeatedCollection name)
  | none => do
    checkPrimaries cat.collections
    cat.checkRelations cat.relations

end Catalog

end FilterSql
