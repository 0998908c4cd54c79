import FilterSql.Proofs.Existence
import FilterSql.Proofs.Json.Members

/-!
Which catalogs are accepted, and what is found in them.

A catalog is built from declarations of collections and from relations. It is accepted exactly if
they are `Consistent`: collections have names of their own, which are not those of the collections
that every catalog has; primary keys are declared fields; and the ends of each relation are fields,
declared or of a collection that every catalog has. An accepted catalog `Represents` what it was
built from: it lists the declared collections and relations in order, before those of every catalog,
and finds each of them under its name. `Catalog.build_consistent` says both.
-/

namespace FilterSql

/-- Of things with pairwise different keys, one is found under its key. -/
theorem find?_key_eq_some {α : Type} {key : α → String} {xs : List α} (nodup : (xs.map key).Nodup)
    {k : String} {x : α} : xs.find? (key · == k) = some x ↔ x ∈ xs ∧ key x = k := by
  induction xs with
  | nil => simp
  | cons y ys ih =>
      rw [List.map_cons, List.nodup_cons] at nodup
      rw [List.find?_cons, List.mem_cons]
      by_cases first : key y = k
      · simp only [first, beq_self_eq_true, Option.some_inj]
        constructor
        · rintro rfl
          exact ⟨.inl rfl, first⟩
        · rintro ⟨rfl | later, same⟩
          · rfl
          · exact absurd (first ▸ same ▸ List.mem_map_of_mem later) nodup.1
      · simp only [beq_eq_false_iff_ne.mpr first, ih nodup.2]
        constructor
        · rintro ⟨later, same⟩
          exact ⟨.inr later, same⟩
        · rintro ⟨rfl | later, same⟩
          · exact absurd same first
          · exact ⟨later, same⟩

/-! ### Declared collections -/

/-- A collection as it is declared, with the storage types of its fields. -/
structure Declaration where
  name : String
  primary : String
  fields : List (String × String)

/-- The declared collection. -/
def Declaration.collection (d : Declaration) : Collection := .ofFields d.name d.primary d.fields

namespace Collection

/-- The names of the columns. -/
def fieldNames (c : Collection) : List String := c.columns.map (·.name)

theorem hasColumn_iff {c : Collection} {field : String} :
    c.hasColumn field = true ↔ field ∈ c.fieldNames := by
  simp [hasColumn, column?, fieldNames]

/-- What every collection that is made from fields is like: its columns have names of their own and
belong to it. -/
structure Regular (c : Collection) : Prop where
  distinct : c.fieldNames.Nodup
  owned : ∀ column ∈ c.columns, column.collection = c.name

/-- A column is found under its name. -/
theorem Regular.column?_eq_some {c : Collection} (regular : c.Regular) {field : String}
    {column : Column} :
    c.column? field = some column ↔
      column ∈ c.columns ∧ column.name = field ∧ column.collection = c.name := by
  rw [column?, find?_key_eq_some regular.distinct]
  constructor
  · rintro ⟨mem, name⟩
    exact ⟨mem, name, regular.owned column mem⟩
  · rintro ⟨mem, name, -⟩
    exact ⟨mem, name⟩

end Collection

namespace Declaration

variable (d : Declaration)

theorem fieldNames_collection :
    d.collection.fieldNames = (Json.distinctMembers d.fields).map Prod.fst := by
  simp [Collection.fieldNames, collection, Collection.ofFields, Function.comp_def]

theorem regular_collection : d.collection.Regular where
  distinct := by
    rw [fieldNames_collection]
    exact Json.nodup_distinctMembers d.fields
  owned := by
    intro column mem
    obtain ⟨m, -, rfl⟩ := List.mem_map.mp mem
    rfl

/-- A declared field is found as the column with the type that was given last. -/
theorem column?_collection (field : String) :
    d.collection.column? field = (d.fields.reverse.lookup field).map fun storageType =>
      ⟨field, d.name, storageType, .ofStorageType storageType⟩ := by
  rw [← Json.lookup_distinctMembers]
  simp only [Collection.column?, collection, Collection.ofFields]
  induction Json.distinctMembers d.fields with
  | nil => rfl
  | cons m rest ih =>
      obtain ⟨k, v⟩ := m
      by_cases first : k = field
      · simp [first]
      · simp [List.lookup_cons, beq_false_of_ne first, beq_false_of_ne (Ne.symm first), ih]

/-- The columns of a declared collection are its fields. -/
theorem hasColumn_collection {field : String} :
    d.collection.hasColumn field = true ↔ field ∈ d.fields.map Prod.fst := by
  rw [Collection.hasColumn, column?_collection, Option.isSome_map, Option.isSome_iff_ne_none,
    ne_eq, List.lookup_eq_none_iff]
  simp

end Declaration

/-! ### Collections that every catalog has -/

theorem regular_of_mem_systemCollections : ∀ c ∈ systemCollections, c.Regular := by
  have declared : ∀ c ∈ systemCollections, ∃ d : Declaration, d.collection = c := by
    simp only [systemCollections, List.forall_mem_cons]
    exact ⟨⟨⟨_, _, _⟩, rfl⟩, ⟨⟨_, _, _⟩, rfl⟩, ⟨⟨_, _, _⟩, rfl⟩, ⟨⟨_, _, _⟩, rfl⟩,
      ⟨⟨_, _, _⟩, rfl⟩, nofun⟩
  intro c mem
  obtain ⟨d, rfl⟩ := declared c mem
  exact d.regular_collection

theorem nodup_systemCollections : (systemCollections.map (·.name)).Nodup := by decide

theorem hasColumn_primary_systemCollections :
    ∀ c ∈ systemCollections, c.hasColumn c.primary = true := by decide

theorem isSystemCollection_eq_false {name : String} :
    isSystemCollection name = false ↔ name ∉ systemCollections.map (·.name) := by
  simp [isSystemCollection]

/-! ### What is checked -/

namespace Catalog

variable {cat : Catalog}

theorem firstRepeated_eq_none {seen names : List String} :
    firstRepeated seen names = none ↔ names.Nodup ∧ ∀ name ∈ names, name ∉ seen := by
  induction names generalizing seen with
  | nil => simp [firstRepeated]
  | cons name rest ih =>
      rw [firstRepeated]
      by_cases again : name ∈ seen
      · simp [again]
      · rw [if_neg again, ih, List.nodup_cons, List.forall_mem_cons]
        simp only [List.mem_cons, not_or]
        constructor
        · rintro ⟨nodup, apart⟩
          exact ⟨⟨fun mem => (apart name mem).1 rfl, nodup⟩, again, fun n mem => (apart n mem).2⟩
        · rintro ⟨⟨first, nodup⟩, -, apart⟩
          exact ⟨nodup, fun n mem => ⟨fun same => first (same ▸ mem), apart n mem⟩⟩

theorem checkPrimaries_eq_ok {collections : List Collection} :
    checkPrimaries collections = .ok () ↔ ∀ c ∈ collections, c.hasColumn c.primary = true := by
  induction collections with
  | nil => simp [checkPrimaries]
  | cons c rest ih =>
      rw [checkPrimaries, List.forall_mem_cons]
      split
      · next has => simp [has, ih]
      · next lacks => simp [lacks]

theorem checkColumn_eq_ok {collection column : String} :
    cat.checkColumn collection column = .ok () ↔ cat.Has collection column := by
  constructor
  · exact has_of_checkColumn
  · rintro ⟨c, found, has⟩
    simp [checkColumn, found, has]

theorem checkRelations_of_has {relations : List Relation}
    (ends : ∀ r ∈ relations, cat.Has r.manyCollection r.manyField ∧
      cat.Has r.oneCollection r.onePrimary) : cat.checkRelations relations = .ok () := by
  induction relations with
  | nil => rfl
  | cons r rest ih =>
      obtain ⟨⟨many, one⟩, later⟩ := List.forall_mem_cons.mp ends
      rw [checkRelations, checkColumn_eq_ok.mpr many, checkColumn_eq_ok.mpr one, ih later]
      rfl

/-- A catalog passes the check if names are different, primary keys are columns and relations have
their ends. -/
theorem check_eq_ok :
    cat.check = .ok () ↔
      cat.names.Nodup ∧ (∀ c ∈ cat.collections, c.hasColumn c.primary = true) ∧ cat.Linked := by
  unfold check
  cases repeated : firstRepeated [] cat.names with
  | some name =>
      have twice : ¬ cat.names.Nodup := by
        intro nodup
        have none := firstRepeated_eq_none.mpr ⟨nodup, fun _ _ => List.not_mem_nil⟩
        rw [none] at repeated
        cases repeated
      simp [twice]
  | none =>
      have nodup := (firstRepeated_eq_none.mp repeated).1
      constructor
      · intro checked
        obtain ⟨_, primaries, relations⟩ := Filter.bind_eq_ok checked
        exact ⟨nodup, checkPrimaries_eq_ok.mp primaries, checkRelations_eq_ok relations⟩
      · rintro ⟨-, primaries, linked⟩
        change (checkPrimaries cat.collections >>= fun _ => cat.checkRelations cat.relations) = _
        rw [checkPrimaries_eq_ok.mpr primaries, checkRelations_of_has linked]
        rfl

/-- In a catalog without repeated names, a collection is found under its name. -/
theorem collection?_eq_some (distinct : cat.names.Nodup) {name : String} {c : Collection} :
    cat.collection? name = some c ↔ c ∈ cat.collections ∧ c.name = name :=
  find?_key_eq_some distinct

theorem has_iff (distinct : cat.names.Nodup) {collection field : String} :
    cat.Has collection field ↔
      ∃ c ∈ cat.collections, c.name = collection ∧ c.hasColumn field = true := by
  simp only [Has, collection?_eq_some distinct, and_assoc]

/-! ### Consistent declarations -/

variable {declared : List Declaration} {relations : List Relation}

/-- A collection that is declared, or that every catalog has, has a field. -/
inductive Present (declared : List Declaration) : String → String → Prop where
  | declared {d : Declaration} {field : String} (mem : d ∈ declared)
      (has : field ∈ d.fields.map Prod.fst) : Present declared d.name field
  | system {c : Collection} {field : String} (mem : c ∈ systemCollections)
      (has : field ∈ c.fieldNames) : Present declared c.name field

/-- When declarations and relations make a catalog. -/
structure Consistent (declared : List Declaration) (relations : List Relation) : Prop where
  distinct : (declared.map (·.name)).Nodup
  unreserved : ∀ d ∈ declared, isSystemCollection d.name = false
  keyed : ∀ d ∈ declared, d.primary ∈ d.fields.map Prod.fst
  linked : ∀ r ∈ relations, Present declared r.manyCollection r.manyField ∧
    Present declared r.oneCollection r.onePrimary

/-- The catalog of declarations and relations, whether it is accepted or not. -/
def ofDeclared (declared : List Declaration) (relations : List Relation) : Catalog :=
  ⟨declared.map (·.collection) ++ systemCollections, relations ++ systemRelations⟩

theorem names_ofDeclared :
    (ofDeclared declared relations).names =
      declared.map (·.name) ++ systemCollections.map (·.name) := by
  simp [ofDeclared, names, Declaration.collection, Collection.ofFields]

theorem nodup_names_ofDeclared :
    (ofDeclared declared relations).names.Nodup ↔
      (declared.map (·.name)).Nodup ∧ ∀ d ∈ declared, isSystemCollection d.name = false := by
  rw [names_ofDeclared, List.nodup_append']
  simp [nodup_systemCollections, isSystemCollection_eq_false, List.disjoint_left]

theorem present_iff {collection field : String} :
    Present declared collection field ↔
      ∃ c ∈ (ofDeclared declared relations).collections,
        c.name = collection ∧ c.hasColumn field = true := by
  constructor
  · rintro (⟨mem, has⟩ | ⟨mem, has⟩)
    · exact ⟨_, List.mem_append_left _ (List.mem_map_of_mem mem), rfl,
        (Declaration.hasColumn_collection _).mpr has⟩
    · exact ⟨_, List.mem_append_right _ mem, rfl, Collection.hasColumn_iff.mpr has⟩
  · rintro ⟨c, mem, rfl, has⟩
    rcases List.mem_append.mp mem with mem | mem
    · obtain ⟨d, given, rfl⟩ := List.mem_map.mp mem
      exact .declared given (d.hasColumn_collection.mp has)
    · exact .system mem (Collection.hasColumn_iff.mp has)

/-- The relations that every catalog has are between collections that every catalog has. -/
theorem present_systemRelations :
    ∀ r ∈ systemRelations, Present declared r.manyCollection r.manyField ∧
      Present declared r.oneCollection r.onePrimary := by
  have ends : ∀ r ∈ systemRelations,
      (∃ c ∈ systemCollections, c.name = r.manyCollection ∧ r.manyField ∈ c.fieldNames) ∧
      ∃ c ∈ systemCollections, c.name = r.oneCollection ∧ r.onePrimary ∈ c.fieldNames := by
    decide
  intro r mem
  obtain ⟨⟨c, many, name, field⟩, ⟨c', one, name', primary⟩⟩ := ends r mem
  exact ⟨name ▸ .system many field, name' ▸ .system one primary⟩

/-- Consistent declarations and relations are those whose catalog passes the check. -/
theorem check_ofDeclared :
    (ofDeclared declared relations).check = .ok () ↔ Consistent declared relations := by
  rw [check_eq_ok, nodup_names_ofDeclared]
  constructor
  · rintro ⟨⟨distinct, unreserved⟩, primaries, linked⟩
    have nodup : (ofDeclared declared relations).names.Nodup :=
      nodup_names_ofDeclared.mpr ⟨distinct, unreserved⟩
    refine ⟨distinct, unreserved, fun d mem => ?_, fun r mem => ?_⟩
    · have has := primaries d.collection (List.mem_append_left _ (List.mem_map_of_mem mem))
      exact d.hasColumn_collection.mp has
    · have ends := linked r (List.mem_append_left _ mem)
      rwa [has_iff nodup, has_iff nodup, ← present_iff, ← present_iff] at ends
  · intro consistent
    have nodup : (ofDeclared declared relations).names.Nodup :=
      nodup_names_ofDeclared.mpr ⟨consistent.distinct, consistent.unreserved⟩
    refine ⟨⟨consistent.distinct, consistent.unreserved⟩, fun c mem => ?_, fun r mem => ?_⟩
    · rcases List.mem_append.mp mem with mem | mem
      · obtain ⟨d, given, rfl⟩ := List.mem_map.mp mem
        exact d.hasColumn_collection.mpr (consistent.keyed d given)
      · exact hasColumn_primary_systemCollections c mem
    · rw [has_iff nodup, has_iff nodup, ← present_iff, ← present_iff]
      rcases List.mem_append.mp mem with mem | mem
      · exact consistent.linked r mem
      · exact present_systemRelations r mem

end Catalog

/-! ### What is found -/

/-- A relation is exposed on a collection under a field, on the end that it is followed from. -/
inductive Relation.ExposedOn (r : Relation) (collection field : String) : Direction → Prop where
  | forward (many : r.manyCollection = collection) (named : r.manyField = field) :
      ExposedOn r collection field .forward
  | reverse (one : r.oneCollection = collection) (named : r.oneField = some field) :
      ExposedOn r collection field .reverse

/-- A relation is followed from an end that is exposed, and from the many side where both are. -/
theorem Relation.exposedAs_eq_some {r : Relation} {collection field : String}
    {direction : Direction} :
    r.exposedAs collection field = some direction ↔
      r.ExposedOn collection field direction ∧
        (direction = .reverse → ¬ r.ExposedOn collection field .forward) := by
  unfold exposedAs
  split
  · next here =>
      have onMany : r.ExposedOn collection field .forward := .forward here.1 here.2
      cases direction <;> simp [onMany]
  · next elsewhere =>
      have notMany : ¬ r.ExposedOn collection field .forward :=
        fun (.forward many named) => elsewhere ⟨many, named⟩
      split
      · next here =>
          have onOne : r.ExposedOn collection field .reverse := .reverse here.1 here.2
          cases direction <;> simp [notMany, onOne]
      · next nowhere =>
          have notOne : ¬ r.ExposedOn collection field .reverse :=
            fun (.reverse one named) => nowhere ⟨one, named⟩
          cases direction <;> simp [notMany, notOne]

theorem Relation.exposedAs_eq_none {r : Relation} {collection field : String} :
    r.exposedAs collection field = none ↔
      ∀ direction, ¬ r.ExposedOn collection field direction := by
  rw [Option.eq_none_iff_forall_ne_some]
  simp only [ne_eq, exposedAs_eq_some]
  constructor
  · intro none direction exposed
    refine none direction ⟨exposed, fun _ forward => ?_⟩
    exact none .forward ⟨forward, nofun⟩
  · rintro none direction ⟨exposed, -⟩
    exact none direction exposed

namespace Catalog

variable {declared : List Declaration} {relations : List Relation}

/-- What an accepted catalog has, and how it finds it. -/
structure Represents (cat : Catalog) (declared : List Declaration)
    (relations : List Relation) : Prop where
  collections : cat.collections = declared.map (·.collection) ++ systemCollections
  relations : cat.relations = relations ++ systemRelations
  collection : ∀ name c, cat.collection? name = some c ↔ c ∈ cat.collections ∧ c.name = name
  column : ∀ c ∈ cat.collections, ∀ field column, c.column? field = some column ↔
    column ∈ c.columns ∧ column.name = field ∧ column.collection = c.name
  /-- the columns of a declared collection are its fields, each with the type that was given last -/
  field : ∀ d ∈ declared, cat.collection? d.name = some d.collection ∧
    ∀ field, d.collection.column? field =
      (d.fields.reverse.lookup field).map fun storageType =>
        ⟨field, d.name, storageType, .ofStorageType storageType⟩
  /-- the first relation that is exposed is found, from the many side where both ends are -/
  exposed : ∀ collection field r direction, cat.relationFor collection field = some (r, direction) ↔
    ∃ before after, cat.relations = before ++ r :: after ∧
      (∀ earlier ∈ before, ∀ way, ¬ earlier.ExposedOn collection field way) ∧
      r.ExposedOn collection field direction ∧
      (direction = .reverse → ¬ r.ExposedOn collection field .forward)

theorem relationFor_eq_some {cat : Catalog} {collection field : String} {r : Relation}
    {direction : Direction} :
    cat.relationFor collection field = some (r, direction) ↔
      ∃ before after, cat.relations = before ++ r :: after ∧
        (∀ earlier ∈ before, ∀ way, ¬ earlier.ExposedOn collection field way) ∧
        r.ExposedOn collection field direction ∧
        (direction = .reverse → ¬ r.ExposedOn collection field .forward) := by
  simp only [relationFor, List.findSome?_eq_some_iff, Option.map_eq_some_iff,
    Option.map_eq_none_iff, Prod.mk.injEq, Relation.exposedAs_eq_some, Relation.exposedAs_eq_none]
  constructor
  · rintro ⟨before, _, after, list, ⟨_, exposed, rfl, rfl⟩, first⟩
    exact ⟨before, after, list, first, exposed⟩
  · rintro ⟨before, after, list, first, exposed⟩
    exact ⟨before, r, after, list, ⟨direction, exposed, rfl, rfl⟩, first⟩

/-- The collections of a catalog of declarations are regular. -/
theorem regular_of_mem {c : Collection} (mem : c ∈ (ofDeclared declared relations).collections) :
    c.Regular := by
  rcases List.mem_append.mp mem with mem | mem
  · obtain ⟨d, -, rfl⟩ := List.mem_map.mp mem
    exact d.regular_collection
  · exact regular_of_mem_systemCollections c mem

theorem represents_ofDeclared (consistent : Consistent declared relations) :
    (ofDeclared declared relations).Represents declared relations := by
  have nodup : (ofDeclared declared relations).names.Nodup :=
    nodup_names_ofDeclared.mpr ⟨consistent.distinct, consistent.unreserved⟩
  constructor
  case collections => rfl
  case relations => rfl
  case collection => exact fun _ _ => collection?_eq_some nodup
  case column => exact fun c mem _ _ => (regular_of_mem mem).column?_eq_some
  case field =>
    intro d mem
    have listed : d.collection ∈ (ofDeclared declared relations).collections :=
      List.mem_append_left _ (List.mem_map_of_mem mem)
    exact ⟨(collection?_eq_some nodup).mpr ⟨listed, rfl⟩, d.column?_collection⟩
  case exposed => exact fun _ _ _ _ => relationFor_eq_some

theorem build_of_check_ok (passed : (ofDeclared declared relations).check = .ok ()) :
    build (declared.map (·.collection)) relations = .ok (ofDeclared declared relations) := by
  rw [ofDeclared] at passed
  simp only [build, passed, ofDeclared]

theorem build_of_check_error {fault : SchemaFault}
    (failed : (ofDeclared declared relations).check = .error fault) :
    build (declared.map (·.collection)) relations = .error (.schemaIntegrity fault) := by
  rw [ofDeclared] at failed
  simp only [build, failed]

/-- Declarations and relations are accepted exactly if they are consistent, and refused for the
catalog's sake otherwise. The catalog lists what is declared and what every catalog has, in order,
and finds collections, columns and relations by their names. -/
theorem build_consistent (declared : List Declaration) (relations : List Relation) :
    ((∃ cat, build (declared.map (·.collection)) relations = .ok cat) ↔
      Consistent declared relations) ∧
    (¬ Consistent declared relations →
      ∃ fault, build (declared.map (·.collection)) relations = .error (.schemaIntegrity fault)) ∧
    ∀ cat, build (declared.map (·.collection)) relations = .ok cat →
      cat.Represents declared relations := by
  rw [← check_ofDeclared]
  cases checked : (ofDeclared declared relations).check with
  | ok _ =>
      rw [build_of_check_ok checked]
      refine ⟨⟨fun _ => rfl, fun _ => ⟨_, rfl⟩⟩, fun refused => absurd rfl refused, ?_⟩
      rintro cat ⟨⟩
      exact represents_ofDeclared (check_ofDeclared.mp checked)
  | error fault =>
      rw [build_of_check_error checked]
      refine ⟨⟨?_, ?_⟩, fun _ => ⟨fault, rfl⟩, ?_⟩
      · rintro ⟨_, ⟨⟩⟩
      · rintro ⟨⟩
      · rintro _ ⟨⟩

/-- Books and authors are accepted as the library, and without the relation's field they are not. -/
theorem build_consistent_library :
    Consistent
      [⟨"books", "id", [("id", "integer"), ("title", "text"), ("author", "integer")]⟩,
        ⟨"authors", "id", [("id", "integer"), ("name", "text")]⟩]
      [⟨"books", "author", "authors", "id", some "books"⟩] ∧
    library.relationFor "authors" "books" =
      some (⟨"books", "author", "authors", "id", some "books"⟩, .reverse) ∧
    ∃ fault, build [.ofFields "books" "id" [("id", "integer"), ("title", "text")],
        .ofFields "authors" "id" [("id", "integer"), ("name", "text")]]
      [⟨"books", "author", "authors", "id", some "books"⟩] = .error (.schemaIntegrity fault) := by
  have accepted := build_consistent
    [⟨"books", "id", [("id", "integer"), ("title", "text"), ("author", "integer")]⟩,
      ⟨"authors", "id", [("id", "integer"), ("name", "text")]⟩]
    [⟨"books", "author", "authors", "id", some "books"⟩]
  have refused := build_consistent
    [⟨"books", "id", [("id", "integer"), ("title", "text")]⟩,
      ⟨"authors", "id", [("id", "integer"), ("name", "text")]⟩]
    [⟨"books", "author", "authors", "id", some "books"⟩]
  refine ⟨accepted.1.mp ⟨library, build_library⟩, ?_, refused.2.1 fun consistent => ?_⟩
  · have represents := accepted.2.2 library build_library
    rw [represents.exposed]
    refine ⟨[], systemRelations, represents.relations, nofun, .reverse rfl rfl, ?_⟩
    rintro - ⟨many, -⟩
    exact absurd many (by decide)
  · obtain ⟨_, built⟩ := refused.1.mpr consistent
    cases built

end Catalog

end FilterSql
