import FilterSql.Proofs.Conditions
import FilterSql.Proofs.Scoping

/-!
What a compiled statement refers to exists in the catalog.

A qualifier stands for a collection: the statement's own for itself, and the table of a join for its
alias (`Select.standsFor?`). In a statement that is `Grounded` the joins are of tables of the
catalog and compare columns that the two sides have, and the columns that are selected, or tested
for membership in a sub-select, exist. `Query.compile_grounded` says that all statements inside a
compiled one are grounded if the catalog was accepted, and that under strict paths every column that
a condition refers to exists. The collection that an alias stands for is recovered from the hop
sequence that the alias names (`Plan.Valid.standsFor?_name`).
-/

namespace FilterSql

/-! ### Accepted catalogs -/

/-- The collection that a relation is followed from. -/
def Relation.source (r : Relation) : Direction → String
  | .forward => r.manyCollection
  | .reverse => r.oneCollection

namespace Catalog

/-- A collection of the catalog has a column. -/
def Has (cat : Catalog) (collection column : String) : Prop :=
  ∃ c, cat.collection? collection = some c ∧ c.hasColumn column

/-- Both ends of each relation exist. -/
def Linked (cat : Catalog) : Prop :=
  ∀ r ∈ cat.relations, cat.Has r.manyCollection r.manyField ∧ cat.Has r.oneCollection r.onePrimary

variable {cat : Catalog} {joinsReverse : Bool} {collection column field : String}

theorem Has.mem_names (has : cat.Has collection column) : collection ∈ cat.names := by
  obtain ⟨c, found, -⟩ := has
  refine List.mem_map.mpr ⟨c, List.mem_of_find?_eq_some found, ?_⟩
  simpa using List.find?_some found

theorem has_of_checkColumn (checked : cat.checkColumn collection column = .ok ()) :
    cat.Has collection column := by
  unfold checkColumn at checked
  split at checked
  · cases checked
  · next c found =>
      split at checked
      · next has => exact ⟨c, found, has⟩
      · cases checked

theorem checkRelations_eq_ok : ∀ {relations : List Relation},
    cat.checkRelations relations = .ok () →
    ∀ r ∈ relations, cat.Has r.manyCollection r.manyField ∧ cat.Has r.oneCollection r.onePrimary
  | [], _, _, mem => by cases mem
  | r :: rest, checked, r', mem => by
      simp only [checkRelations] at checked
      obtain ⟨_, many, checked⟩ := Filter.bind_eq_ok checked
      obtain ⟨_, one, checked⟩ := Filter.bind_eq_ok checked
      rcases List.mem_cons.mp mem with rfl | later
      · exact ⟨has_of_checkColumn many, has_of_checkColumn one⟩
      · exact checkRelations_eq_ok checked r' later

/-- The ends of the relations of an accepted catalog exist. -/
theorem linked_of_build {collections : List Collection} {relations : List Relation}
    (built : build collections relations = .ok cat) : cat.Linked := by
  simp only [build] at built
  split at built
  · next accepted =>
      cases built
      unfold check at accepted
      split at accepted
      · cases accepted
      · obtain ⟨_, -, checked⟩ := Filter.bind_eq_ok accepted
        exact checkRelations_eq_ok checked
  · cases built

/-- A relation is followed from a collection that it is exposed on. -/
theorem source_of_relationFor {r : Relation} {direction : Direction}
    (known : cat.relationFor collection field = some (r, direction)) :
    r ∈ cat.relations ∧ r.source direction = collection := by
  obtain ⟨r', mem, found⟩ := List.exists_of_findSome?_eq_some known
  obtain ⟨exposed, as, same⟩ := Option.map_eq_some_iff.mp found
  cases same
  refine ⟨mem, ?_⟩
  unfold Relation.exposedAs at as
  split at as
  · next many =>
      cases as
      exact many.1
  · split at as
    · next one =>
        cases as
        exact one.1
    · cases as

/-- The columns that a join compares exist on its two sides. -/
theorem Linked.link (linked : cat.Linked) {link : Link}
    (hop : cat.link? joinsReverse collection field = some link) :
    cat.Has collection link.near ∧ cat.Has link.table link.far := by
  unfold link? at hop
  split at hop
  · next r known =>
      cases hop
      obtain ⟨mem, rfl⟩ := source_of_relationFor known
      exact linked r mem
  · next r known =>
      split at hop <;> cases hop
      obtain ⟨mem, rfl⟩ := source_of_relationFor known
      exact (linked r mem).symm
  · cases hop

/-- The primary key that a reverse hop is followed from exists. -/
theorem Linked.has_primary (linked : cat.Linked) {r : Relation}
    (exposed : cat.relationFor collection field = some (r, .reverse)) :
    cat.Has collection r.onePrimary := by
  obtain ⟨mem, rfl⟩ := source_of_relationFor exposed
  exact (linked r mem).2

/-- Hops lead to collections of the catalog. -/
theorem Linked.arrival (linked : cat.Linked) {table : String} {hops : List String}
    (known : collection ∈ cat.names)
    (arrives : cat.arrival joinsReverse collection hops = some table) : table ∈ cat.names := by
  induction hops generalizing collection with
  | nil =>
      cases arrives
      exact known
  | cons field rest ih =>
      obtain ⟨link, hop, arrives⟩ := Option.bind_eq_some_iff.mp arrives
      exact ih (linked.link hop).2.mem_names arrives

/-- The last of some hops is a link from the collection that the hops before it lead to. -/
theorem lastLink_eq_some {root : String} {path : List String} {link : Link}
    (last : cat.lastLink joinsReverse root path = some link) :
    ∃ here field, cat.arrival joinsReverse root path.dropLast = some here ∧
      cat.link? joinsReverse here field = some link ∧
      cat.arrival joinsReverse root path = some link.table := by
  rcases List.eq_nil_or_concat path with rfl | ⟨before, field, rfl⟩
  · cases last
  · rw [List.concat_eq_append] at last ⊢
    rw [lastLink_snoc] at last
    obtain ⟨here, arrives, hop⟩ := Option.bind_eq_some_iff.mp last
    refine ⟨here, field, by rwa [List.dropLast_concat], hop, ?_⟩
    rw [arrival_append, arrives]
    simp [Catalog.arrival, hop]

end Catalog

/-! ### Statements whose references exist -/

namespace Predicate

mutual

/-- The columns of a condition that are tested for membership in a sub-select. -/
def tested : Predicate → List ColumnRef
  | .and items => testedAll items
  | .or items => testedAll items
  | .inSelect column _ => [column]
  | .compare _ _ _ => []
  | .like _ _ _ _ => []
  | .inList _ _ _ => []
  | .between _ _ _ _ => []
  | .isNull _ _ => []

/-- The columns of several conditions that are tested for membership. -/
def testedAll : List Predicate → List ColumnRef
  | [] => []
  | p :: rest => tested p ++ testedAll rest

end

@[simp] theorem testedAll_append (ps qs : List Predicate) :
    testedAll (ps ++ qs) = testedAll ps ++ testedAll qs := by
  induction ps with
  | nil => rfl
  | cons p rest ih => simp [testedAll, ih]

mutual

/-- Nothing is tested for membership if there is no statement to be in. -/
theorem tested_eq_nil : ∀ {p : Predicate}, p.statements = [] → p.tested = []
  | .and _, free | .or _, free => testedAll_eq_nil free
  | .inSelect _ s, free => by simp [statements, Select.statements] at free
  | .compare _ _ _, _ | .like _ _ _ _, _ | .inList _ _ _, _ | .between _ _ _ _, _
  | .isNull _ _, _ => rfl

theorem testedAll_eq_nil : ∀ {ps : List Predicate}, statementsAll ps = [] → testedAll ps = []
  | [], _ => rfl
  | p :: rest, free => by
      obtain ⟨first, later⟩ := List.append_eq_nil_iff.mp free
      simp [testedAll, tested_eq_nil first, testedAll_eq_nil later]

end

@[simp] theorem tested_group (op : Connective) (items : List Predicate) :
    (Predicate.group op items).tested = testedAll items := by
  cases op <;> rcases items with _ | ⟨p, _ | ⟨q, rest⟩⟩ <;>
    simp [Predicate.group, tested, testedAll]

theorem columnsAll_eq_flatMap (ps : List Predicate) : columnsAll ps = ps.flatMap columns := by
  induction ps with
  | nil => rfl
  | cons p rest ih => simp [columnsAll, ih]

/-- The columns of conditions that are tested for membership. -/
def testedCollector : Collector ColumnRef where
  collect := testedAll
  nil := rfl
  append := testedAll_append
  group op items := by simp [testedAll]

end Predicate

@[simp] theorem Compile.testedAll_conjunction (ps : List Predicate) :
    Predicate.testedAll (conjunction ps).toList = Predicate.testedAll ps := by
  cases ps <;> simp [conjunction, Predicate.testedAll]

namespace Select

/-- The collection that a qualifier stands for in a statement. -/
def standsFor? (s : Select) (qualifier : String) : Option String :=
  if qualifier = s.collection then some s.collection
  else (s.joins.find? (·.qualifier == qualifier)).map (·.table)

/-- A column exists in the collection that its qualifier stands for. -/
def Knows (cat : Catalog) (s : Select) (c : ColumnRef) : Prop :=
  ∃ collection, s.standsFor? c.table = some collection ∧ cat.Has collection c.column

/-- The collections of a statement, the columns it selects, those that its joins compare and those
that it tests for membership exist. Under strict paths all columns of its conditions do. -/
structure Grounded (cat : Catalog) (policy : PathPolicy) (s : Select) : Prop where
  collection : s.collection ∈ cat.names
  selected : ∀ column ∈ s.columns, cat.Has s.collection column
  table : ∀ j ∈ s.joins, j.table ∈ cat.names
  left : ∀ j ∈ s.joins, s.Knows cat j.left
  right : ∀ j ∈ s.joins, cat.Has j.table j.right.column
  tested : ∀ c ∈ Predicate.testedAll s.predicates, s.Knows cat c
  conditions : policy = .reject → ∀ c ∈ Predicate.columnsAll s.predicates, s.Knows cat c

end Select

/-! ### Comparisons -/

namespace Compile

variable {f : Frame} {start : String} {there : Anchor} {path : List String} {operator : Operator}
  {operand : Json} {ps : List Predicate}

/-- Under strict paths a comparison is not made of a column that is missing. -/
theorem lacksColumn_of_emitLeaf (strict : f.policy = .reject) {column : String}
    (ended : path.getLast? = some column)
    (made : f.emitLeaf start there path operator operand = .ok ps) :
    f.lacksColumn there.collection column = false := by
  simp only [Frame.emitLeaf, ended] at made
  split at made
  · cases made
  · split at made
    · cases made
    · next allowed => simpa [strict] using allowed

/-- Under strict paths a comparison refers to a column that exists. -/
theorem has_of_emitLeaf (strict : f.policy = .reject) (known : there.collection ∈ f.catalog.names)
    (made : f.emitLeaf start there path operator operand = .ok ps) :
    ∀ c ∈ Predicate.columnsAll ps,
      c = there.column c.column ∧ f.catalog.Has there.collection c.column := by
  rcases emitLeaf_eq_ok made with ⟨-, rfl⟩ | ⟨column, p, ended, compared, rfl⟩
  · simp [Predicate.columnsAll]
  · obtain ⟨test, isTest, rfl, -⟩ := Leaf.predicate_isTest compared
    intro c mem
    rw [isTest.columns _ c (by simpa [Predicate.columnsAll] using mem)]
    refine ⟨rfl, ?_⟩
    have present := lacksColumn_of_emitLeaf strict ended made
    unfold Frame.lacksColumn at present
    split at present
    · next collection found =>
        exact ⟨collection, found, by simpa [Anchor.column] using present⟩
    · next missing =>
        obtain ⟨collection, mem, named⟩ := List.mem_map.mp known
        exact absurd named (by simpa using List.find?_eq_none.mp missing collection mem)

end Compile

/-! ### Plans -/

namespace Plan

variable {reserved : List String} {f : Compile.Frame} {sub : Relation → Filter → Select → Prop}
  {root : String} {filter : Filter} {plan : Plan} {s : Select}

/-- The name of a hop sequence stands for the collection that the hops lead to. -/
theorem Valid.standsFor?_name (valid : plan.Valid reserved f sub root filter)
    (from_root : s.collection = root)
    (joins_eq : s.joins = (plan.compiled f.catalog f.scope.joinsReverse root).joins)
    {path : List String} {table : String} (stood : path = [] ∨ path ∈ plan.seen)
    (arrives : f.catalog.arrival f.scope.joinsReverse root path = some table) :
    s.standsFor? (plan.names path) = some table := by
  rcases stood with rfl | mem
  · cases arrives
    rw [valid.root_name, Select.standsFor?, if_pos from_root.symm, from_root]
  · have aliased : plan.names path ≠ s.collection := by
      intro same
      rw [from_root, ← valid.root_name] at same
      exact valid.grown.ne_nil mem (valid.apart path [] (.inr mem) (.inl rfl) same)
    rw [Select.standsFor?, if_neg aliased, joins_eq]
    -- the first join with the name is the one of the path
    cases found : (plan.compiled f.catalog f.scope.joinsReverse root).joins.find?
        (·.qualifier == plan.names path) with
    | none =>
        have missing := List.find?_eq_none.mp found _ (List.mem_map_of_mem mem)
        simp [Catalog.joinOf] at missing
    | some j =>
        have named : j.qualifier = plan.names path := by simpa using List.find?_some found
        obtain ⟨path', mem', rfl⟩ := List.mem_map.mp (List.mem_of_find?_eq_some found)
        obtain rfl := valid.apart path' path (.inr mem') (.inr mem) named
        obtain ⟨link, last⟩ := Option.isSome_iff_exists.mp (valid.linked path' mem')
        obtain ⟨_, _, -, -, arrives'⟩ := Catalog.lastLink_eq_some last
        rw [arrives] at arrives'
        simpa [Catalog.joinOf, last] using arrives'.symm

/-- A column at a place that was reached exists if the collection there has it. -/
theorem Valid.knows (valid : plan.Valid reserved f sub root filter)
    (from_root : s.collection = root)
    (joins_eq : s.joins = (plan.compiled f.catalog f.scope.joinsReverse root).joins)
    {there : Place} {column : String}
    (located : f.catalog.Locates f.scope.joinsReverse root there)
    (stood : there.hops = [] ∨ there.hops ∈ plan.seen)
    (has : f.catalog.Has there.collection column) :
    s.Knows f.catalog ((there.anchor plan.names).column column) :=
  ⟨_, valid.standsFor?_name from_root joins_eq stood located, has⟩

/-- The columns that the conditions of a plan test for membership exist. -/
theorem Valid.tested_known (valid : plan.Valid reserved f sub root filter)
    (linked : f.catalog.Linked) (from_root : s.collection = root)
    (joins_eq : s.joins = (plan.compiled f.catalog f.scope.joinsReverse root).joins) :
    ∀ c ∈ Predicate.testedAll plan.predicates, s.Knows f.catalog c := by
  refine valid.emits.forall_mem Predicate.testedCollector ?_ ?_ (Catalog.locates_root root)
  · intro start there path operator operand ps _ _ made c mem
    simp [Predicate.testedCollector,
      Predicate.testedAll_eq_nil (Compile.statementsAll_emitLeaf made)] at mem
  · intro there field r child s' located stood exposed _ c mem
    obtain rfl : c = _ := by
      simpa [Predicate.testedCollector, Predicate.testedAll, Predicate.tested] using mem
    exact valid.knows from_root joins_eq located stood (linked.has_primary exposed)

/-- Under strict paths all columns of the conditions of a plan exist. -/
theorem Valid.columns_known (valid : plan.Valid reserved f sub root filter)
    (linked : f.catalog.Linked) (rooted : root ∈ f.catalog.names) (strict : f.policy = .reject)
    (from_root : s.collection = root)
    (joins_eq : s.joins = (plan.compiled f.catalog f.scope.joinsReverse root).joins) :
    ∀ c ∈ Predicate.columnsAll plan.predicates, s.Knows f.catalog c := by
  refine valid.emits.forall_mem Predicate.columnCollector ?_ ?_ (Catalog.locates_root root)
  · intro start there path operator operand ps located stood made c mem
    have known := linked.arrival rooted located
    obtain ⟨eq, has⟩ := Compile.has_of_emitLeaf strict known made c mem
    rw [eq]
    exact valid.knows from_root joins_eq located stood has
  · intro there field r child s' located stood exposed _ c mem
    obtain rfl : c = _ := by
      simpa [Predicate.columnCollector, Predicate.columnsAll, Predicate.columns] using mem
    exact valid.knows from_root joins_eq located stood (linked.has_primary exposed)

/-- A statement with the joins and predicates of a plan refers to what exists. -/
theorem Valid.grounded (valid : plan.Valid reserved f sub root filter)
    (linked : f.catalog.Linked) (rooted : root ∈ f.catalog.names) (from_root : s.collection = root)
    (joins_eq : s.joins = (plan.compiled f.catalog f.scope.joinsReverse root).joins)
    (selected : ∀ column ∈ s.columns, f.catalog.Has root column)
    (tested : ∀ c ∈ Predicate.testedAll s.predicates, c ∈ Predicate.testedAll plan.predicates)
    (conditions : ∀ c ∈ Predicate.columnsAll s.predicates,
      s.Knows f.catalog c ∨ c ∈ Predicate.columnsAll plan.predicates) :
    s.Grounded f.catalog f.policy := by
  have joins : ∀ j ∈ s.joins, j.table ∈ f.catalog.names ∧ s.Knows f.catalog j.left ∧
      f.catalog.Has j.table j.right.column := by
    intro j mem
    rw [joins_eq] at mem
    obtain ⟨path, seen, rfl⟩ := List.mem_map.mp mem
    obtain ⟨link, last⟩ := Option.isSome_iff_exists.mp (valid.linked path seen)
    obtain ⟨here, field, arrives, hop, -⟩ := Catalog.lastLink_eq_some last
    obtain ⟨near, far⟩ := linked.link hop
    have stood := valid.grown.dropLast_mem seen
    simp only [Catalog.joinOf, last, Option.getD_some]
    exact ⟨far.mem_names,
      ⟨here, valid.standsFor?_name from_root joins_eq stood arrives, near⟩, far⟩
  exact
    { collection := from_root ▸ rooted
      selected := from_root ▸ selected
      table := fun j mem => (joins j mem).1
      left := fun j mem => (joins j mem).2.1
      right := fun j mem => (joins j mem).2.2
      tested := fun c mem => valid.tested_known linked from_root joins_eq c (tested c mem)
      conditions := fun strict c mem => (conditions c mem).elim id
        (valid.columns_known linked rooted strict from_root joins_eq c) }

end Plan

/-- A sub-select and the statements inside it refer to what exists. -/
theorem Filter.SubselectOf.grounded {cat : Catalog} {policy : PathPolicy} {r : Relation}
    {filter : Filter} {s : Select} (made : SubselectOf cat policy r filter s)
    (linked : cat.Linked) (known : r ∈ cat.relations) :
    ∀ t ∈ s.statements, t.Grounded cat policy := by
  obtain ⟨plan, id, valid, rfl⟩ := made
  intro t mem
  rw [Select.statements, List.mem_cons, Plan.compiled, Compile.statementsAll_conjunction] at mem
  rcases mem with rfl | deeper
  · have has := (linked r known).1
    refine Plan.Valid.grounded (f := ⟨cat, policy, ⟨id, true⟩⟩) valid linked has.mem_names rfl rfl
      ?_ ?_ ?_
    · intro column selected
      rwa [List.mem_singleton.mp selected]
    · intro c mem
      simpa [Plan.compiled] using mem
    · intro c mem
      exact .inr (by simpa [Plan.compiled] using mem)
  · obtain ⟨_, _, _, impossible, -⟩ := valid.emits.statements t deeper
    exact impossible.elim

namespace Query

variable {q : Query} {cat : Catalog} {collection : String}

/-- What a query searches is columns of its collection. -/
theorem Finds.has {found : List Predicate} (finds : q.Finds cat collection found) :
    ∀ c ∈ Predicate.columnsAll found, c.table = collection ∧ cat.Has collection c.column := by
  rcases finds with ⟨rfl, -⟩ | ⟨term, p, -, -, made, rfl⟩
  · simp [Predicate.columnsAll]
  · obtain ⟨searched, required, gave⟩ := Filter.bind_eq_ok made
    cases gave
    have named := Catalog.name_of_requireCollection required
    intro c mem
    simp only [Predicate.columnsAll, Predicate.columns, List.append_nil,
      Predicate.columnsAll_eq_flatMap, List.mem_flatMap, List.mem_filterMap] at mem
    obtain ⟨p, ⟨column, present, tested⟩, mem⟩ := mem
    rw [(Search.columnTest_parts tested).1, List.mem_singleton] at mem
    subst mem
    refine ⟨named, searched, ?_, ?_⟩
    · unfold Catalog.requireCollection at required
      split at required <;> cases required
      assumption
    · exact List.find?_isSome.mpr ⟨column, present, by simp⟩

/-- In a compiled statement and in each statement inside it, what is joined, selected and tested for
membership exists, and under strict paths all columns of the conditions exist. -/
theorem compile_grounded {collections : List Collection} {relations : List Relation}
    {options : CompileOptions} {draws : Nat → Nat} {s : Select}
    (built : Catalog.build collections relations = .ok cat)
    (compiled : q.compile cat options draws collection = .ok s) :
    ∀ t ∈ s.statements, t.Grounded cat options.unresolvedPaths := by
  have linked := Catalog.linked_of_build built
  unfold Query.compile at compiled
  split at compiled <;> cases compiled
  next applied =>
  obtain ⟨known, c, found, contributes, finds, from_root, joins, predicates, -, columns⟩ :=
    apply_spec applied
  obtain ⟨filter, plan, valid, rfl, -⟩ := contributes_plan known contributes
  have joins_eq : s.joins = (plan.compiled cat false collection).joins := by
    simp [joins, Select.ofCollection]
  have parts : s.predicates = (Compile.conjunction plan.predicates).toList ++ found := by
    simp [predicates, Plan.compiled, Select.ofCollection]
  intro t mem
  rw [Select.statements, List.mem_cons, parts, Predicate.statementsAll_append, finds.parts.2,
    List.append_nil, Compile.statementsAll_conjunction] at mem
  rcases mem with rfl | deeper
  · refine Plan.Valid.grounded (f := ⟨cat, options.unresolvedPaths, Scope.root⟩) valid linked known
      from_root joins_eq ?_ ?_ ?_
    · simp [columns, Select.ofCollection]
    · intro c mem
      simpa [parts, Predicate.testedAll_eq_nil finds.parts.2] using mem
    · intro c mem
      rw [parts, Predicate.columnsAll_append, Compile.columnsAll_conjunction,
        List.mem_append] at mem
      rcases mem with planned | searched
      · exact .inr planned
      · obtain ⟨own, has⟩ := finds.has c searched
        refine .inl ⟨collection, ?_, has⟩
        simp [Select.standsFor?, own, from_root, Select.ofCollection]
  · revert t
    refine valid.emits.forall_mem Predicate.statementCollector ?_ ?_
      (Catalog.locates_root collection)
    · intro start there path operator operand ps _ _ made t mem
      simp [Predicate.statementCollector, Compile.statementsAll_emitLeaf made] at mem
    · intro there field r child sub _ _ exposed selected t mem
      refine selected.grounded linked (Catalog.source_of_relationFor exposed).1 t ?_
      simpa [Predicate.statementCollector, Predicate.statementsAll, Predicate.statements] using mem

/-- The author of the namesakes is joined through columns of the library. -/
theorem compile_grounded_namesakes :
    Catalog.build (Catalog.library.collections.take 2) (Catalog.library.relations.take 1) =
      .ok .library ∧
    ∃ s, namesakes.compile .library { unresolvedPaths := .reject } (fun _ => 0) "books" = .ok s ∧
      s.aliases = ["aaaaa", "aaaab"] ∧ ∀ t ∈ s.statements, t.Grounded .library .reject := by
  refine ⟨Catalog.build_library, ?_⟩
  have aliases : (namesakes.compile .library { unresolvedPaths := .reject } (fun _ => 0)
      "books").toOption.map Select.aliases = some ["aaaaa", "aaaab"] := by decide +kernel
  cases compiled : namesakes.compile .library { unresolvedPaths := .reject } (fun _ => 0)
      "books" with
  | error e => simp [compiled, Except.toOption] at aliases
  | ok s =>
      exact ⟨s, rfl, by simpa [compiled, Except.toOption] using aliases,
        compile_grounded Catalog.build_library compiled⟩

end Query

end FilterSql
