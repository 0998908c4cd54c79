import FilterSql.Schema.Catalog

/-!
The collections and relations that every catalog has, after those given to it.
-/

namespace FilterSql

/-- Collections that every catalog has. -/
def systemCollections : List Collection :=
  [ .ofFields "system_roles" "id"
      [("id", "uuid"), ("name", "varchar(100)"), ("description", "text"),
        ("admin_access", "boolean")],
    .ofFields "system_users" "id"
      [("id", "uuid"), ("first_name", "varchar(50)"), ("last_name", "varchar(50)"),
        ("email", "varchar(128)"), ("status", "varchar(16)"), ("role", "uuid"),
        ("last_access", "timestamp")],
    .ofFields "system_files" "id"
      [("id", "uuid"), ("filename_disk", "varchar(255)"), ("title", "varchar(255)"),
        ("type", "varchar(255)"), ("filesize", "bigint"), ("uploaded_by", "uuid"),
        ("uploaded_on", "timestamp")],
    .ofFields "system_activity" "id"
      [("id", "integer"), ("action", "varchar(45)"), ("user", "uuid"), ("timestamp", "timestamp"),
        ("collection", "varchar(64)"), ("item", "varchar(255)")],
    .ofFields "system_revisions" "id"
      [("id", "integer"), ("activity", "integer"), ("collection", "varchar(64)"),
        ("item", "varchar(255)"), ("data", "json")] ]

/-- Relations that every catalog has. -/
def systemRelations : List Relation :=
  [ ⟨"system_users", "role", "system_roles", "id", some "users"⟩,
    ⟨"system_files", "uploaded_by", "system_users", "id", none⟩,
    ⟨"system_activity", "user", "system_users", "id", none⟩,
    ⟨"system_revisions", "activity", "system_activity", "id", some "revisions"⟩ ]

/-- Whether a name is one of a collection that every catalog has. -/
def isSystemCollection (name : String) : Bool := systemCollections.any (·.name == name)

namespace Catalog

/-- The catalog of the given collections and relations and those of every catalog; user relations
come first, so that they win where both are exposed. -/
def build (collections : List Collection) (relations : List Relation) :
    Except CompileError Catalog :=
  let cat : Catalog := ⟨collections ++ systemCollections, relations ++ systemRelations⟩
  match cat.check with
  | .ok () => .ok cat
  | .error fault => .error (.schemaIntegrity fault)

end Catalog

end FilterSql
