import FilterSql.Proofs.Emission

/-!
What a filter is compiled to, scope by scope.

A scope has a plan: the hop sequences it joins, their names, and its predicates. `Plan.Valid` says
what holds of the plan of a filter, and that the predicates are those of the filter. A filter for a
sub-select and one for a whole statement both compile to a valid plan (`compileInner_spec`,
`compileOuter_spec`); they differ in what becomes of reverse hops, which a sub-select joins and a
whole statement leaves to sub-selects (`SubselectOf`).
-/

namespace FilterSql

/-- The root and the hop sequences listed have different names. -/
def Apart (names : List String → String) (seen : List (List String)) : Prop :=
  ∀ p q, (p = [] ∨ p ∈ seen) → (q = [] ∨ q ∈ seen) → names p = names q → p = q

namespace Apart

variable {names : List String → String} {seen : List (List String)}

theorem init {path : List String} (apart : Apart names (seen ++ [path])) : Apart names seen := by
  intro p q memP memQ same
  have stillP := memP.imp_right (List.mem_append_left [path])
  have stillQ := memQ.imp_right (List.mem_append_left [path])
  exact apart p q stillP stillQ same

/-- A hop sequence that is listed last has a name of its own. -/
theorem ne_last {before : List String} {field : String}
    (apart : Apart names (seen ++ [before ++ [field]])) (new : before ++ [field] ∉ seen) :
    ∀ p, p = [] ∨ p ∈ seen → names p ≠ names (before ++ [field]) := by
  intro p known same
  have eq := apart p _ (known.imp_right (List.mem_append_left _)) (.inr (by simp)) same
  rcases known with start | old
  · simp [eq] at start
  · exact new (eq ▸ old)

end Apart

/-- The joins of a scope, as hop sequences with names, and its predicates. -/
structure Plan where
  seen : List (List String)
  names : List String → String
  predicates : List Predicate

namespace Plan

/-- The compiled filter that a plan stands for. -/
def compiled (plan : Plan) (cat : Catalog) (joinsReverse : Bool) (root : String) :
    CompiledFilter where
  joins := plan.seen.map (cat.joinOf joinsReverse root plan.names)
  predicate := Compile.conjunction plan.predicates

/-- The aliases of a plan, those of the statements inside its predicates last. -/
def aliases (plan : Plan) : List String :=
  plan.seen.map plan.names ++ Predicate.aliasesAll plan.predicates

/-- The joins are qualified by the names of their hop sequences. -/
@[simp] theorem map_qualifier_joins (plan : Plan) (cat : Catalog) (joinsReverse : Bool)
    (root : String) :
    (plan.compiled cat joinsReverse root).joins.map (·.qualifier) = plan.seen.map plan.names := by
  simp [compiled, Catalog.joinOf, Function.comp_def]

/-- A plan of a filter: the hop sequences of the filter are joined in order, under names of their
own that are not reserved, and the predicates are those of the filter. -/
structure Valid (reserved : List String) (f : Compile.Frame)
    (sub : Relation → Filter → Select → Prop) (root : String) (filter : Filter) (plan : Plan) :
    Prop where
  seen_eq : plan.seen = (f.catalog.visits f.scope.joinsReverse (.root root) filter).foldl note []
  grown : Grown plan.seen
  linked : ∀ path ∈ plan.seen, (f.catalog.lastLink f.scope.joinsReverse root path).isSome
  rooted : root ∈ reserved
  root_name : plan.names [] = root
  unreserved : ∀ path ∈ plan.seen, plan.names path ∉ reserved
  apart : Apart plan.names plan.seen
  emits : Compile.Emits f plan.names plan.seen sub (.root root) (.entries filter) plan.predicates

/-- The plan of the empty filter. -/
def empty (root : String) : Plan := ⟨[], fun _ => root, []⟩

theorem valid_empty {reserved : List String} {f : Compile.Frame}
    {sub : Relation → Filter → Select → Prop} {root : String} (rooted : root ∈ reserved) :
    (empty root).Valid reserved f sub root [] where
  seen_eq := rfl
  grown := .nil
  linked := by simp [empty]
  rooted := rooted
  root_name := rfl
  unreserved := by simp [empty]
  apart p q memP memQ _ := by
    rw [memP.resolve_right List.not_mem_nil, memQ.resolve_right List.not_mem_nil]
  emits := .nil

end Plan

@[simp] theorem Compile.statementsAll_conjunction (ps : List Predicate) :
    Predicate.statementsAll (conjunction ps).toList = Predicate.statementsAll ps := by
  cases ps <;> simp [conjunction, Predicate.statementsAll]

@[simp] theorem Compile.columnsAll_conjunction (ps : List Predicate) :
    Predicate.columnsAll (conjunction ps).toList = Predicate.columnsAll ps := by
  cases ps <;> simp [conjunction, Predicate.columnsAll]

/-- Hop sequences seen have different names. -/
theorem Walk.Tracks.apart {cat : Catalog} {reserved : List String} {base : AliasTable}
    {scope : Scope} {root : String} {w : Walk} {seen : List (List String)}
    (tracks : Tracks cat reserved base scope root w seen) :
    Apart (w.aliases.naming scope.id root) seen := by
  intro p q memP memQ same
  refine tracks.sound.name?_injective tracks.rooted (tracks.names p memP) ?_
  rw [same]
  exact tracks.names q memQ

/-- The aliases of a walk that began with a table whose next scope is the walk's own. -/
theorem Walk.Tracks.opens {cat : Catalog} {reserved : List String} {base : AliasTable}
    {scope : Scope} {root : String} {w : Walk} {seen : List (List String)}
    (tracks : Tracks cat reserved base scope root w seen) (own : base.nextScope = scope.id) :
    base.Opens reserved w.aliases (seen.map (w.aliases.naming scope.id root)) where
  sound := tracks.sound
  grows := tracks.grows
  kept k early := tracks.elsewhere k early (by omega)
  nodup := by
    refine List.Nodup.map_on ?_ tracks.grown.nodup
    intro p memP q memQ same
    exact tracks.apart p q (.inr memP) (.inr memQ) same
  fresh a mem := by
    obtain ⟨path, seen, rfl⟩ := List.mem_map.mp mem
    exact tracks.fresh path seen
  taken a mem := by
    obtain ⟨path, seen, rfl⟩ := List.mem_map.mp mem
    obtain ⟨key, issued⟩ :=
      AliasTable.issued_of_name? (tracks.grown.ne_nil seen) (tracks.names path (.inr seen))
    exact tracks.sound.issued_taken issued

namespace Compile

variable {reserved : List String} {f : Frame} {delegate : Option Delegate}
  {sub : Relation → Filter → Select → Prop} {t : AliasTable} {root : String}

/-- A walk that begins in a scope just opened has seen nothing. -/
theorem tracks_start (cat : Catalog) (scope : Scope) (sound : t.Sound reserved)
    (rooted : root ∈ reserved) (own : scope.id = t.nextScope) :
    Walk.Tracks cat reserved t scope root ⟨t.newScope.2, []⟩ [] where
  sound := sound.newScope
  rooted := rooted
  opened := own ▸ Nat.lt_succ_self _
  grows := AliasTable.grows_newScope t
  grown := .nil
  named := by simp
  linked := by simp
  covered issued := absurd (own ▸ sound.opened issued) (Nat.lt_irrefl _)
  joins_eq := rfl
  fresh := by simp
  elsewhere _ _ _ := rfl

/-- A walk that begins in an open scope without aliases has seen nothing. -/
theorem tracks_unused (cat : Catalog) (scope : Scope) (sound : t.Sound reserved)
    (rooted : root ∈ reserved) (opened : scope.id < t.nextScope)
    (unused : ∀ anchor field, t.issued[(⟨scope.id, anchor, field⟩ : AliasKey)]? = none) :
    Walk.Tracks cat reserved t scope root ⟨t, []⟩ [] where
  sound := sound
  rooted := rooted
  opened := opened
  grows := .refl t
  grown := .nil
  named := by simp
  linked := by simp
  covered issued := by simp [unused] at issued
  joins_eq := rfl
  fresh := by simp
  elsewhere _ _ _ := rfl

/-- Both walks of a filter, in a scope where nothing is joined yet: the first one sees the hops of
the filter, and the second one makes the predicates and joins nothing. -/
theorem inScope_walks (serves : Serves reserved f sub delegate) {base : AliasTable}
    (start : Walk.Tracks f.catalog reserved base f.scope root ⟨t, []⟩ []) {filter : Filter}
    {c : CompiledFilter} {t' : AliasTable} (ran : inScope f delegate root filter t = (.ok c, t'))
    {w : Walk} (walk : discover f (.root root) filter ⟨t, []⟩ = w) :
    ∃ (seen : List (List String)) (ps : List Predicate),
      seen = (f.catalog.visits f.scope.joinsReverse (.root root) filter).foldl note [] ∧
      w.Tracks f.catalog reserved base f.scope root seen ∧
      Emits f (w.aliases.naming f.scope.id root) seen sub (.root root) (.entries filter) ps ∧
      c = ⟨w.joins, conjunction ps⟩ ∧
      w.aliases.Opens reserved t' (Predicate.aliasesAll ps) := by
  have stands := Walk.stands_root f.catalog f.scope root ⟨t, []⟩
  obtain ⟨tracks, grows⟩ := discover_tracks f filter start stands
  simp only [inScope] at ran
  rw [walk] at tracks grows ran
  split at ran
  · next ps w' made =>
      cases ran
      have all : f.catalog.visits f.scope.joinsReverse (.root root) filter ⊆
          (f.catalog.visits f.scope.joinsReverse (.root root) filter).foldl note [] := by
        intro path mem
        exact mem_foldl_note mem
      obtain ⟨emits, emitted⟩ :=
        emit_spec serves filter ⟨tracks, rfl⟩ (stands.later grows) all made
      exact ⟨_, ps, rfl, tracks, emits, by rw [emitted.joins_eq], emitted.opens⟩
  · cases ran

/-- Compiling a filter in a scope just opened. -/
theorem inScope_spec (serves : Serves reserved f sub delegate) (sound : t.Sound reserved)
    (rooted : root ∈ reserved) (own : f.scope.id = t.nextScope) {filter : Filter}
    {c : CompiledFilter} {t' : AliasTable}
    (ran : inScope f delegate root filter t.newScope.2 = (.ok c, t')) :
    ∃ plan : Plan, plan.Valid reserved f sub root filter ∧
      c = plan.compiled f.catalog f.scope.joinsReverse root ∧
      t.Opens reserved t' plan.aliases ∧
      ∀ j ∈ c.joins.head?, j.qualifier = t.newScope.2.next.1 := by
  have start := tracks_start f.catalog f.scope sound rooted own
  have head := head_discover f t.newScope.2 (.root root) filter
  obtain ⟨seen, ps, seen_eq, tracks, emits, rfl, opens⟩ := inScope_walks serves start ran rfl
  generalize discover f (.root root) filter ⟨t.newScope.2, []⟩ = w at head tracks emits opens ⊢
  refine ⟨⟨seen, w.aliases.naming f.scope.id root, ps⟩,
    { seen_eq := seen_eq
      grown := tracks.grown
      linked := tracks.linked
      rooted := rooted
      root_name := rfl
      unreserved := by
        intro path mem
        exact tracks.sound.name?_unreserved (tracks.grown.ne_nil mem) (tracks.names path (.inr mem))
      apart := tracks.apart
      emits := emits }, ?_, (tracks.opens own.symm).trans opens, head⟩
  simp only [Plan.compiled, tracks.joins_eq]

end Compile

namespace Catalog

/-- A collection is found under its name. -/
theorem name_of_requireCollection {cat : Catalog} {name : String} {c : Collection}
    (known : cat.requireCollection name = .ok c) : c.name = name := by
  unfold requireCollection collection? at known
  split at known <;> cases known
  next found => simpa using List.find?_some found

/-- A collection of the catalog is one of its names. -/
theorem mem_names_of_requireCollection {cat : Catalog} {name : String} {c : Collection}
    (known : cat.requireCollection name = .ok c) : name ∈ cat.names := by
  refine List.mem_map.mpr ⟨c, ?_, name_of_requireCollection known⟩
  unfold requireCollection collection? at known
  split at known <;> cases known
  next found => exact List.mem_of_find?_eq_some found

/-- A collection of the catalog is there when it is required. -/
theorem requireCollection_of_mem {cat : Catalog} {name : String} (known : name ∈ cat.names) :
    ∃ c, cat.requireCollection name = .ok c := by
  obtain ⟨c, mem, rfl⟩ := List.mem_map.mp known
  unfold requireCollection
  cases found : cat.collection? c.name with
  | some c' => exact ⟨c', rfl⟩
  | none =>
      have other := List.find?_eq_none.mp found c mem
      simp at other

end Catalog

namespace Filter

variable {cat : Catalog} {policy : PathPolicy} {t t' : AliasTable}

/-- The statement of the many side that a sub-select makes of a filter. -/
def SubselectOf (cat : Catalog) (policy : PathPolicy) (r : Relation) (filter : Filter)
    (s : Select) : Prop :=
  ∃ (plan : Plan) (id : Nat),
    plan.Valid cat.names ⟨cat, policy, ⟨id, true⟩⟩ (fun _ _ _ => False) r.manyCollection filter ∧
    s = { Select.ofCollection r.manyCollection with
      columns := [r.manyField]
      joins := (plan.compiled cat true r.manyCollection).joins
      predicates := (plan.compiled cat true r.manyCollection).predicate.toList }

/-- Compiling a filter for a sub-select. -/
theorem compileInner_spec {collection : String} {filter : Filter} {c : CompiledFilter}
    (sound : t.Sound cat.names)
    (ran : compileInner cat policy collection filter t = (.ok c, t')) :
    ∃ (plan : Plan) (id : Nat),
      plan.Valid cat.names ⟨cat, policy, ⟨id, true⟩⟩ (fun _ _ _ => False) collection filter ∧
      c = plan.compiled cat true collection ∧ t.Opens cat.names t' plan.aliases := by
  obtain ⟨_, t₁, required, more⟩ := Step.bind_eq_ok ran
  obtain ⟨known, rfl⟩ := Step.ofExcept_eq_ok required
  obtain ⟨id, t₂, opened, ran⟩ := Step.bind_eq_ok more
  cases opened
  have serves : Compile.Serves cat.names ⟨cat, policy, ⟨t₁.nextScope, true⟩⟩
      (fun _ _ _ => False) none := rfl
  obtain ⟨plan, valid, compiled, opens, -⟩ :=
    Compile.inScope_spec serves sound (Catalog.mem_names_of_requireCollection known) rfl ran
  exact ⟨plan, _, valid, compiled, opens⟩

/-- What becomes of a reverse hop of a whole statement. -/
theorem membership_spec {there : Anchor} {r : Relation} {filter : Filter} {p : Predicate}
    (sound : t.Sound cat.names)
    (ran : membership cat policy there r filter t = (.ok p, t')) :
    ∃ s : Select, p = .inSelect (there.column r.onePrimary) s ∧
      SubselectOf cat policy r filter s ∧ t.Opens cat.names t' s.aliases := by
  obtain ⟨s, t₁, selected, gave⟩ := Step.bind_eq_ok ran
  cases gave
  obtain ⟨c, t₂, inner, gave⟩ := Step.bind_eq_ok selected
  cases gave
  obtain ⟨plan, id, valid, rfl, opens⟩ := compileInner_spec sound inner
  refine ⟨_, rfl, ⟨plan, id, valid, rfl⟩, ?_⟩
  rw [Select.aliases_eq, Select.qualifiers, Plan.map_qualifier_joins]
  simpa [Plan.aliases, Plan.compiled, Predicate.aliasesAll] using opens

/-- Compiling a filter for a whole statement, with aliases of its own. -/
theorem compileOuter_spec {reserved : List String} (reserves : cat.names ⊆ reserved)
    {strategy : AliasStrategy} {draws : Nat → Nat} {collection : String} {filter : Filter}
    {c : CompiledFilter}
    (ran : compileOuter cat policy collection filter
      (AliasTable.fresh strategy draws reserved) = (.ok c, t')) :
    ∃ plan : Plan,
      plan.Valid cat.names ⟨cat, policy, Scope.root⟩ (SubselectOf cat policy) collection filter ∧
      c = plan.compiled cat false collection ∧ plan.aliases.Nodup ∧
      (∀ a ∈ plan.aliases, a ∉ cat.names) ∧
      ∀ j ∈ c.joins.head?, j.qualifier = (AliasTable.fresh strategy draws reserved).next.1 := by
  obtain ⟨_, t₁, required, ran⟩ := Step.bind_eq_ok ran
  obtain ⟨known, rfl⟩ := Step.ofExcept_eq_ok required
  -- The scope of a whole statement is open from the start.
  let unopened : AliasTable := { AliasTable.fresh strategy draws reserved with nextScope := 0 }
  have fresh := (AliasTable.sound_fresh strategy draws reserved).mono reserves
  have sound : unopened.Sound cat.names :=
    ⟨fresh.reserved_taken, fresh.issued_taken, fresh.issued_unreserved, fresh.injective,
      fun issued => by simp [unopened, AliasTable.fresh] at issued⟩
  have serves : Compile.Serves cat.names ⟨cat, policy, Scope.root⟩ (SubselectOf cat policy)
      (some (membership cat policy)) := fun _ _ _ _ _ _ => membership_spec
  obtain ⟨plan, valid, compiled, opens, head⟩ :=
    Compile.inScope_spec (t := unopened) serves sound
      (Catalog.mem_names_of_requireCollection known) rfl ran
  exact ⟨plan, valid, compiled, opens.nodup, opens.unreserved sound, head⟩

end Filter

end FilterSql
