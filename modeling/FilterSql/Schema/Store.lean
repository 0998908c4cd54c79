import FilterSql.Schema.Catalog

/-!
A store holds the current catalog. Snapshots of it are values and do not change when the store is
given another catalog.
-/

namespace FilterSql

/-- The holder of the current catalog. -/
structure SchemaStore where
  current : Catalog
  deriving DecidableEq, Repr

namespace SchemaStore

/-- The catalog as it is now. -/
def snapshot (store : SchemaStore) : Catalog := store.current

/-- The store with another catalog. -/
def reload (_ : SchemaStore) (catalog : Catalog) : SchemaStore := ⟨catalog⟩

@[simp] theorem snapshot_reload (store : SchemaStore) (catalog : Catalog) :
    (store.reload catalog).snapshot = catalog := rfl

end SchemaStore

end FilterSql
