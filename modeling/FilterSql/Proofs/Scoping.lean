import FilterSql.Proofs.Attachment

/-!
Compiled statements are well scoped.

Each statement refers to the columns of its own collection and of its own joins only, a join refers
to what stands before it and to itself (`Select.Scoped`), and no two joins share a name, whether
they stand in one statement or in statements inside one another (`Query.compile_wellScoped`).
Sub-selects need no names of the statement around them, so they could be run on their own.
-/

namespace FilterSql

/-- A hop sequence stands behind the one it is a hop longer than. -/
theorem Grown.dropLast_before {earlier later : List (List String)} {path : List String}
    (grown : Grown (earlier ++ path :: later)) :
    path.dropLast = [] ∨ path.dropLast ∈ earlier := by
  generalize eq : earlier ++ path :: later = seen at grown
  induction grown generalizing later with
  | nil => simp at eq
  | @snoc seen before field rest reached _ ih =>
      rcases List.eq_nil_or_concat later with rfl | ⟨later, last, rfl⟩
      · obtain ⟨rfl, new⟩ := List.append_inj' eq rfl
        cases new
        rwa [List.dropLast_concat]
      · rw [List.concat_eq_append, ← List.cons_append, ← List.append_assoc] at eq
        exact ih (List.append_inj' eq rfl).1

namespace Select

/-- Columns are qualified by the collection or by a join; the right column of a join is qualified by
the join itself, the left one by the collection or by an earlier join. -/
structure Scoped (s : Select) : Prop where
  columns : ∀ c ∈ s.columnRefs, c.table = s.collection ∨ c.table ∈ s.qualifiers
  right : ∀ j ∈ s.joins, j.right.table = j.qualifier
  left : ∀ {earlier : List Join} {j : Join} {later : List Join}, s.joins = earlier ++ j :: later →
    j.left.table = s.collection ∨ j.left.table ∈ earlier.map (·.qualifier)

end Select

/-- A way to collect things from conditions, for which connectives do not count. -/
structure Predicate.Collector (α : Type) where
  collect : List Predicate → List α
  nil : collect [] = []
  append : ∀ ps qs, collect (ps ++ qs) = collect ps ++ collect qs
  group : ∀ op items, collect [Predicate.group op items] = collect items

namespace Predicate

/-- The columns of conditions. -/
def columnCollector : Collector ColumnRef where
  collect := columnsAll
  nil := rfl
  append := columnsAll_append
  group op items := by simp [columnsAll]

/-- The statements inside conditions. -/
def statementCollector : Collector Select where
  collect := statementsAll
  nil := rfl
  append := statementsAll_append
  group op items := by simp [statementsAll]

end Predicate

namespace Compile

variable {f : Frame} {names : List String → String} {seen : List (List String)}
  {sub : Relation → Filter → Select → Prop} {root : String}

/-- What is collected from the predicates of a filter comes from a comparison at a place that was
reached, or from a test against a statement in front of a reverse hop. -/
theorem Emits.forall_mem {α : Type} (collector : Predicate.Collector α) {P : α → Prop}
    (leaf : ∀ {start : String} {there : Place} {path : List String} {operator : Operator}
      {operand : Json} {ps : List Predicate},
      f.catalog.Locates f.scope.joinsReverse root there → there.hops = [] ∨ there.hops ∈ seen →
      f.emitLeaf start (there.anchor names) path operator operand = .ok ps →
      ∀ x ∈ collector.collect ps, P x)
    (member : ∀ {there : Place} {field : String} {r : Relation} {child : Filter} {s : Select},
      f.catalog.Locates f.scope.joinsReverse root there → there.hops = [] ∨ there.hops ∈ seen →
      f.catalog.relationFor there.collection field = some (r, .reverse) → sub r child s →
      ∀ x ∈ collector.collect [.inSelect ((there.anchor names).column r.onePrimary) s], P x)
    {here : Place} (located : f.catalog.Locates f.scope.joinsReverse root here) {part : Part}
    {ps : List Predicate} (emits : Emits f names seen sub here part ps) :
    ∀ x ∈ collector.collect ps, P x := by
  induction emits with
  | nil | skipped _ | leafUnresolved _ _ | nestedUnresolved _ _ | done => simp [collector.nil]
  | cons _ _ ih₁ ih₂ =>
      intro x mem
      rw [collector.append, List.mem_append] at mem
      exact mem.elim (ih₁ located x) (ih₂ located x)
  | @group _ _ _ items _ _ ih =>
      cases items with
      | nil => simp [collector.nil]
      | cons _ _ =>
          intro x mem
          exact ih located x (by simpa [collector.group] using mem)
  | leaf led stood made => exact leaf (located.course led) stood made
  | leafDeferred led stood selected | nestedDeferred led stood selected =>
      obtain ⟨-, field, exposed⟩ := Catalog.relationFor_of_course_deferred led
      exact member (located.course led) stood exposed selected
  | nested led _ ih => exact ih (located.course led)
  | @child _ _ _ ps items _ _ ih₁ ih₂ =>
      cases ps with
      | nil => simpa using ih₂ located
      | cons p rest =>
          intro x mem
          rw [List.isEmpty_cons, if_neg (by simp), ← List.singleton_append, collector.append,
            collector.group, List.mem_append] at mem
          exact mem.elim (ih₁ located x) (ih₂ located x)

/-- The name of a hop sequence that was reached is that of the root or of a join. -/
theorem name_known {hops : List String} (stood : hops = [] ∨ hops ∈ seen) :
    names hops = names [] ∨ names hops ∈ seen.map names :=
  stood.imp (congrArg names) List.mem_map_of_mem

theorem columns_emitLeaf {start : String} {there : Anchor} {path : List String}
    {operator : Operator} {operand : Json} {ps : List Predicate}
    (made : f.emitLeaf start there path operator operand = .ok ps) :
    ∀ c ∈ Predicate.columnsAll ps, c.table = there.qualifier := by
  rcases emitLeaf_eq_ok made with ⟨-, rfl⟩ | ⟨column, p, -, compared, rfl⟩
  · simp [Predicate.columnsAll]
  · obtain ⟨test, isTest, rfl, -⟩ := Leaf.predicate_isTest compared
    intro c mem
    rw [isTest.columns _ c (by simpa [Predicate.columnsAll] using mem)]
    rfl

/-- Predicates refer to the root and to the hop sequences seen. -/
theorem Emits.columns {part : Part} {ps : List Predicate}
    (emits : Emits f names seen sub (.root root) part ps) :
    ∀ c ∈ Predicate.columnsAll ps, c.table = names [] ∨ c.table ∈ seen.map names := by
  refine emits.forall_mem Predicate.columnCollector ?_ ?_ (Catalog.locates_root root)
  · intro start there path operator operand ps _ stood made c mem
    rw [columns_emitLeaf made c mem]
    exact name_known stood
  · intro there field r child s _ stood _ _ c mem
    obtain rfl : c = _ := by
      simpa [Predicate.columnCollector, Predicate.columnsAll, Predicate.columns] using mem
    exact name_known stood

/-- The statements inside predicates are those of sub-selects and the ones inside them. -/
theorem Emits.statements {part : Part} {ps : List Predicate}
    (emits : Emits f names seen sub (.root root) part ps) :
    ∀ t ∈ Predicate.statementsAll ps, ∃ r filter s, sub r filter s ∧ t ∈ s.statements := by
  refine emits.forall_mem Predicate.statementCollector ?_ ?_ (Catalog.locates_root root)
  · intro start there path operator operand ps _ _ made t mem
    simp [Predicate.statementCollector, statementsAll_emitLeaf made] at mem
  · intro there field r child s _ _ _ selected t mem
    refine ⟨_, _, _, selected, ?_⟩
    simpa [Predicate.statementCollector, Predicate.statementsAll, Predicate.statements] using mem

end Compile

namespace Plan

variable {reserved : List String} {f : Compile.Frame} {sub : Relation → Filter → Select → Prop}
  {root : String} {filter : Filter} {plan : Plan}

/-- The left column of a join of a plan is qualified by the root or by an earlier join. -/
theorem Valid.join_left (valid : plan.Valid reserved f sub root filter)
    {earlier later : List Join} {j : Join}
    (split : (plan.compiled f.catalog f.scope.joinsReverse root).joins = earlier ++ j :: later) :
    j.left.table = root ∨ j.left.table ∈ earlier.map (·.qualifier) := by
  obtain ⟨before, after, seen, rfl, rest⟩ := List.map_eq_append_iff.mp split
  obtain ⟨path, after, rfl, rfl, rfl⟩ := List.map_eq_cons_iff.mp rest
  rcases (seen ▸ valid.grown).dropLast_before with first | earlier
  · exact .inl (by simp [Catalog.joinOf, first, valid.root_name])
  · refine .inr ?_
    simp only [Catalog.joinOf, List.map_map, Function.comp_def]
    exact List.mem_map_of_mem earlier

/-- A statement with the joins and predicates of a plan is well scoped. -/
theorem Valid.scoped (valid : plan.Valid reserved f sub root filter) {s : Select}
    (from_root : s.collection = root)
    (joins_eq : s.joins = (plan.compiled f.catalog f.scope.joinsReverse root).joins)
    (conditions : ∀ c ∈ Predicate.columnsAll s.predicates,
      c.table = root ∨ c ∈ Predicate.columnsAll plan.predicates)
    (ordering : ∀ o ∈ s.orderBy, o.column.table = root) : s.Scoped := by
  have qualified : s.qualifiers = plan.seen.map plan.names := by
    rw [Select.qualifiers, joins_eq, map_qualifier_joins]
  refine ⟨?_, ?_, ?_⟩
  · intro c mem
    rw [Select.columnRefs, List.mem_append, List.mem_append] at mem
    rw [from_root, qualified]
    rcases mem with (joined | condition) | ordered
    · obtain ⟨j, mem, side⟩ := List.mem_flatMap.mp joined
      rw [joins_eq] at mem
      rw [← map_qualifier_joins plan f.catalog f.scope.joinsReverse root]
      rcases List.mem_pair.mp side with rfl | rfl
      · obtain ⟨earlier, later, split⟩ := List.append_of_mem mem
        refine (valid.join_left split).imp_right fun first => ?_
        rw [split, List.map_append]
        exact List.mem_append_left _ first
      · refine .inr (List.mem_map.mpr ⟨j, mem, ?_⟩)
        obtain ⟨path, -, rfl⟩ := List.mem_map.mp mem
        rfl
    · rcases conditions c condition with own | planned
      · exact .inl own
      · exact valid.root_name ▸ valid.emits.columns c planned
    · obtain ⟨o, mem, rfl⟩ := List.mem_map.mp ordered
      exact .inl (ordering o mem)
  · intro j mem
    rw [joins_eq] at mem
    obtain ⟨path, -, rfl⟩ := List.mem_map.mp mem
    rfl
  · intro earlier j later split
    rw [from_root]
    exact valid.join_left (joins_eq ▸ split)

end Plan

/-- A sub-select and the statements inside it are well scoped. -/
theorem Filter.SubselectOf.scoped {cat : Catalog} {policy : PathPolicy} {r : Relation}
    {filter : Filter} {s : Select} (made : SubselectOf cat policy r filter s) :
    ∀ t ∈ s.statements, t.Scoped := by
  obtain ⟨plan, id, valid, rfl⟩ := made
  intro t mem
  rw [Select.statements, List.mem_cons, Plan.compiled, Compile.statementsAll_conjunction] at mem
  rcases mem with rfl | deeper
  · refine valid.scoped rfl rfl ?_ (by simp [Select.ofCollection])
    intro c mem
    exact .inr (by simpa [Plan.compiled] using mem)
  · obtain ⟨_, _, _, impossible, -⟩ := valid.emits.statements t deeper
    exact impossible.elim

/-- In a compiled statement and in each statement inside it all columns are in scope, and the
aliases of all joins are different from one another and from the names of the collections. -/
theorem Query.compile_wellScoped {q : Query} {cat : Catalog} {options : CompileOptions}
    {draws : Nat → Nat} {collection : String} {s : Select}
    (compiled : q.compile cat options draws collection = .ok s) :
    s.aliases.Nodup ∧ (∀ a ∈ s.aliases, a ∉ cat.names) ∧ ∀ t ∈ s.statements, t.Scoped := by
  unfold Query.compile at compiled
  split at compiled <;> cases compiled
  next applied =>
  obtain ⟨known, c, found, contributes, finds, from_root, joins, predicates, orderBy⟩ :=
    apply_spec applied
  obtain ⟨filter, plan, valid, rfl, nodup, unreserved, -⟩ := contributes_plan known contributes
  have inside : Predicate.statementsAll s.predicates =
      Predicate.statementsAll plan.predicates := by
    simp [predicates, Plan.compiled, Select.ofCollection, finds.parts.2]
  have aliases : s.aliases = plan.aliases := by
    rw [Select.aliases_eq, Select.qualifiers, joins, Predicate.aliasesAll, inside]
    simp [Select.ofCollection, Plan.aliases, Predicate.aliasesAll]
  refine ⟨aliases ▸ nodup, aliases ▸ unreserved, ?_⟩
  intro t mem
  rw [Select.statements, List.mem_cons, inside] at mem
  rcases mem with rfl | deeper
  · have joins_eq : t.joins = (plan.compiled cat false collection).joins := by
      simp [joins, Select.ofCollection]
    refine valid.scoped from_root joins_eq ?_ ?_
    · intro c mem
      simp only [predicates, Plan.compiled, Select.ofCollection, List.nil_append,
        Predicate.columnsAll_append, Compile.columnsAll_conjunction, List.mem_append] at mem
      rcases mem with planned | searched
      · exact .inr planned
      · exact .inl (finds.parts.1 c searched)
    · simp [orderBy, Select.ofCollection]
  · obtain ⟨r, child, select, made, mem⟩ := valid.emits.statements t deeper
    exact made.scoped t mem

/-- The books whose author, and an author of a book of that author, has a name. -/
def Query.namesakes : Query where
  filter := some (.object
    [("author", .object
      [ ("name", .object [("_eq", .string "Ann")]),
        ("books", .object [("author", .object [("name", .object [("_eq", .string "Ann")])])]) ])])

/-- The author is joined, and once more in the sub-select for the author's books. -/
theorem Query.compile_wellScoped_namesakes :
    ∃ s, Query.namesakes.compile .library {} (fun _ => 0) "books" = .ok s ∧
      s.aliases = ["aaaaa", "aaaab"] ∧ s.aliases.Nodup ∧
      (∀ a ∈ s.aliases, a ∉ Catalog.library.names) ∧ ∀ t ∈ s.statements, t.Scoped := by
  have aliases : (Query.namesakes.compile .library {} (fun _ => 0) "books").toOption.map
      Select.aliases = some ["aaaaa", "aaaab"] := by decide +kernel
  cases compiled : Query.namesakes.compile .library {} (fun _ => 0) "books" with
  | error e => simp [compiled, Except.toOption] at aliases
  | ok s =>
      exact ⟨s, rfl, by simpa [compiled, Except.toOption] using aliases,
        Query.compile_wellScoped compiled⟩

end FilterSql
