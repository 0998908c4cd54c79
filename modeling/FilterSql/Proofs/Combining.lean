import FilterSql.Proofs.Scoping

/-!
Several queries applied to one statement.

Each application makes up aliases of its own and does not see those of earlier ones, so joins of
two applications may have the same name. `Application.qualifiers_nodup_iff` tells when they have
not: the applications must give out different aliases. Under the sequential strategy every
application begins with the same alias, so at most one of them may join anything; two that do are
ambiguous (`Application.qualifiers_collide`).
-/

namespace FilterSql

/-- One application of a query, with its options and random draws. -/
structure Application where
  query : Query
  options : CompileOptions := {}
  draws : Nat → Nat := fun _ => 0

namespace Application

/-- Applies the query on a collection to a statement. -/
def run (a : Application) (cat : Catalog) (collection : String) : Step Select Unit :=
  a.query.apply cat a.options a.draws collection

/-- Applies queries on a collection one after another. -/
def runAll (cat : Catalog) (collection : String) : List Application → Step Select Unit
  | [] => pure ()
  | a :: rest => do
    a.run cat collection
    runAll cat collection rest

/-- The joins that the filter of the query makes. -/
def joins (a : Application) (cat : Catalog) (collection : String) : List Join :=
  match a.query.filter with
  | none => []
  | some document =>
    match Query.compileFilter cat a.options a.draws collection document with
    | .ok c => c.joins
    | .error _ => []

/-- The aliases of those joins. -/
def aliases (a : Application) (cat : Catalog) (collection : String) : List String :=
  (a.joins cat collection).map (·.qualifier)

variable {cat : Catalog} {collection : String}

theorem joins_of_contributes {a : Application} {c : CompiledFilter}
    (contributes : a.query.Contributes cat a.options a.draws collection c) :
    a.joins cat collection = c.joins := by
  cases asked : a.query.filter with
  | none =>
      simp only [Query.Contributes, asked] at contributes
      simp only [joins, asked, contributes]
  | some document =>
      simp only [Query.Contributes, asked] at contributes
      simp only [joins, asked, contributes]

/-- What applications attach to a statement. -/
structure Attaches (cat : Catalog) (collection : String) (calls : List Application)
    (s s' : Select) : Prop where
  joins_eq : s'.joins = s.joins ++ calls.flatMap (·.joins cat collection)
  /-- one application gives out no alias twice -/
  nodup : ∀ a ∈ calls, (a.aliases cat collection).Nodup
  /-- its first alias is the first one of its own table -/
  first : ∀ a ∈ calls, ∀ j ∈ (a.joins cat collection).head?,
    j.qualifier = (AliasTable.fresh a.options.aliases a.draws cat.names).next.1
  columns : ∀ c ∈ Predicate.columnsAll s'.predicates, c ∈ Predicate.columnsAll s.predicates ∨
    c.table = collection ∨ ∃ a ∈ calls, c.table ∈ a.aliases cat collection

theorem Attaches.nil (s : Select) : Attaches cat collection [] s s where
  joins_eq := by simp
  nodup := by simp
  first := by simp
  columns c mem := .inl mem

theorem Attaches.cons {a : Application} {calls : List Application} {s s' s'' : Select}
    (one : Attaches cat collection [a] s s') (more : Attaches cat collection calls s' s'') :
    Attaches cat collection (a :: calls) s s'' where
  joins_eq := by simp [more.joins_eq, one.joins_eq]
  nodup := List.forall_mem_cons.mpr ⟨one.nodup a (by simp), more.nodup⟩
  first := List.forall_mem_cons.mpr ⟨one.first a (by simp), more.first⟩
  columns c mem := by
    rcases more.columns c mem with old | own | ⟨b, among, known⟩
    · rcases one.columns c old with old | own | ⟨b, among, known⟩
      · exact .inl old
      · exact .inr (.inl own)
      · obtain rfl := List.mem_singleton.mp among
        exact .inr (.inr ⟨b, by simp, known⟩)
    · exact .inr (.inl own)
    · exact .inr (.inr ⟨b, by simp [among], known⟩)

theorem run_attaches {a : Application} {s s' : Select}
    (ran : a.run cat collection s = (.ok (), s')) : Attaches cat collection [a] s s' := by
  obtain ⟨known, c, found, contributes, finds, -, joins, predicates, -⟩ := Query.apply_spec ran
  have made := joins_of_contributes contributes
  obtain ⟨filter, plan, valid, rfl, nodup, -, head⟩ := Query.contributes_plan known contributes
  have named : a.aliases cat collection = plan.seen.map plan.names := by
    rw [aliases, made, Plan.map_qualifier_joins]
  refine ⟨by simp [joins, made], ?_, ?_, ?_⟩
  · simpa [named] using (List.nodup_append.mp nodup).1
  · simpa [made] using head
  · intro c mem
    simp only [predicates, Plan.compiled, Predicate.columnsAll_append,
      Compile.columnsAll_conjunction, List.mem_append] at mem
    rcases mem with (old | planned) | searched
    · exact .inl old
    · rcases valid.emits.columns c planned with root | joined
      · exact .inr (.inl (root.trans valid.root_name))
      · exact .inr (.inr ⟨a, by simp, named ▸ joined⟩)
    · exact .inr (.inl (finds.parts.1 c searched))

theorem runAll_attaches {calls : List Application} {s s' : Select}
    (ran : runAll cat collection calls s = (.ok (), s')) :
    Attaches cat collection calls s s' := by
  induction calls generalizing s with
  | nil =>
      cases ran
      exact .nil _
  | cons a rest ih =>
      obtain ⟨_, s₁, one, more⟩ := Step.bind_eq_ok ran
      exact (run_attaches one).cons (ih more)

/-- Sequential tables for one catalog begin with the same alias. -/
theorem next_fresh_sequential (draws draws' : Nat → Nat) (reserved : List String) :
    (AliasTable.fresh .sequential draws reserved).next.1 =
      (AliasTable.fresh .sequential draws' reserved).next.1 := rfl

/-- The first alias of an application that joins anything. -/
theorem mem_aliases_of_joins {a : Application} {first : String}
    (begins : ∀ j ∈ (a.joins cat collection).head?, j.qualifier = first)
    (some : a.joins cat collection ≠ []) : first ∈ a.aliases cat collection := by
  obtain ⟨j, rest, held⟩ := List.exists_cons_of_ne_nil some
  rw [aliases, held, ← begins j (by simp [held])]
  simp

/-- Where all applications begin with the same alias, their aliases are disjoint if and only if at
most one of them has any. -/
theorem pairwise_disjoint_iff {calls : List Application} (first : String)
    (begins : ∀ a ∈ calls, ∀ j ∈ (a.joins cat collection).head?, j.qualifier = first) :
    (calls.Pairwise fun a b =>
      List.Disjoint (a.aliases cat collection) (b.aliases cat collection)) ↔
      (calls.filter fun a => a.joins cat collection ≠ []).length ≤ 1 := by
  induction calls with
  | nil => simp
  | cons a rest ih =>
      have begins_rest := fun b among => begins b (List.mem_cons_of_mem a among)
      rw [List.pairwise_cons, ih begins_rest]
      by_cases some : a.joins cat collection = []
      · simp [some, aliases]
      · have shared : (∀ b ∈ rest,
            List.Disjoint (a.aliases cat collection) (b.aliases cat collection)) ↔
            ∀ b ∈ rest, b.joins cat collection = [] := by
          constructor
          · intro apart b among
            by_contra other
            have mine := mem_aliases_of_joins (begins a (by simp)) some
            have theirs := mem_aliases_of_joins (begins_rest b among) other
            exact apart b among mine theirs
          · intro none b among
            simp [aliases, none b among]
        rw [shared, List.filter_cons_of_pos (by simpa using some), List.length_cons]
        constructor
        · rintro ⟨none, -⟩
          simpa [List.filter_eq_nil_iff] using none
        · intro bound
          have none : rest.filter (fun b => b.joins cat collection ≠ []) = [] :=
            List.length_eq_zero_iff.mp (by omega)
          refine ⟨?_, by omega⟩
          simpa [List.filter_eq_nil_iff] using none

/-- After queries on a collection are applied to a fresh statement, no two joins share a name if
and only if no two of the applications give out the same alias; under the sequential strategy, if
and only if at most one of the filters joins anything. Then each column of a condition names the
collection or exactly one join. -/
theorem qualifiers_nodup_iff {calls : List Application} {s : Select}
    (ran : runAll cat collection calls (Select.ofCollection collection) = (.ok (), s)) :
    (s.qualifiers.Nodup ↔ calls.Pairwise fun a b =>
      List.Disjoint (a.aliases cat collection) (b.aliases cat collection)) ∧
    ((∀ a ∈ calls, a.options.aliases = .sequential) →
      (s.qualifiers.Nodup ↔
        (calls.filter fun a => a.joins cat collection ≠ []).length ≤ 1)) ∧
    (s.qualifiers.Nodup → ∀ c ∈ Predicate.columnsAll s.predicates,
      c.table = collection ∨ ∃! j, j ∈ s.joins ∧ j.qualifier = c.table) := by
  have attaches := runAll_attaches ran
  have joins : s.joins = calls.flatMap (·.joins cat collection) := by
    simp [attaches.joins_eq, Select.ofCollection]
  have qualifiers : s.qualifiers = calls.flatMap (·.aliases cat collection) := by
    simp [Select.qualifiers, joins, List.map_flatMap, aliases]
  have apart : s.qualifiers.Nodup ↔ calls.Pairwise fun a b =>
      List.Disjoint (a.aliases cat collection) (b.aliases cat collection) := by
    rw [qualifiers, List.nodup_flatMap, and_iff_right attaches.nodup]
  refine ⟨apart, ?_, ?_⟩
  · intro sequential
    rw [apart]
    let first := (AliasTable.fresh .sequential (fun _ => 0) cat.names).next.1
    have begins : ∀ a ∈ calls, ∀ j ∈ (a.joins cat collection).head?, j.qualifier = first := by
      intro a among j head
      rw [attaches.first a among j head, sequential a among]
      exact next_fresh_sequential _ _ _
    exact pairwise_disjoint_iff first begins
  · intro nodup c mem
    rcases attaches.columns c mem with old | own | ⟨a, among, known⟩
    · simp [Select.ofCollection, Predicate.columnsAll] at old
    · exact .inl own
    · obtain ⟨j, mem, named⟩ := List.mem_map.mp known
      have attached : j ∈ s.joins := by
        rw [joins]
        exact List.mem_flatMap.mpr ⟨a, among, mem⟩
      refine .inr ⟨j, ⟨attached, named⟩, ?_⟩
      rintro k ⟨attached', named'⟩
      exact List.inj_on_of_nodup_map nodup attached' attached (named'.trans named.symm)

/-- A query for the books of an author, who has to be joined. -/
def byAuthor : Application where
  query := { filter := some (.object
    [("author", .object [("name", .object [("_eq", .string "Ann")])])]) }

/-- A query for the books of a title. -/
def byTitle : Application where
  query := { filter := some (.object [("title", .object [("_eq", .string "Emma")])]) }

/-- A query that joins nothing may be combined with one that does. -/
theorem qualifiers_nodup_byAuthor_byTitle :
    ∃ s, runAll .library "books" [byAuthor, byTitle] (Select.ofCollection "books") = (.ok (), s) ∧
      s.qualifiers = ["aaaaa"] ∧
      (s.qualifiers.Nodup ↔
        ([byAuthor, byTitle].filter fun a => a.joins .library "books" ≠ []).length ≤ 1) := by
  have outcome : (runAll .library "books" [byAuthor, byTitle] (Select.ofCollection "books")).map
      id Select.qualifiers = (.ok (), ["aaaaa"]) := by decide +kernel
  cases ran : runAll .library "books" [byAuthor, byTitle] (Select.ofCollection "books") with
  | mk result s =>
      rw [ran, Prod.map_apply, Prod.mk.injEq] at outcome
      obtain ⟨rfl, names⟩ := outcome
      exact ⟨s, rfl, names, (qualifiers_nodup_iff ran).2.1 (by decide)⟩

/-- Two queries that join the same table do so under the same name. -/
theorem qualifiers_collide :
    (∃ collections relations, Catalog.build collections relations = .ok .library) ∧
    ∃ s, runAll .library "books" [byAuthor, byAuthor] (Select.ofCollection "books") =
        (.ok (), s) ∧
      s.qualifiers = ["aaaaa", "aaaaa"] ∧ ¬ s.qualifiers.Nodup := by
  refine ⟨⟨_, _, Catalog.build_library⟩, ?_⟩
  have outcome : (runAll .library "books" [byAuthor, byAuthor] (Select.ofCollection "books")).map
      id Select.qualifiers = (.ok (), ["aaaaa", "aaaaa"]) := by decide +kernel
  cases ran : runAll .library "books" [byAuthor, byAuthor] (Select.ofCollection "books") with
  | mk result s =>
      rw [ran, Prod.map_apply, Prod.mk.injEq] at outcome
      obtain ⟨rfl, names⟩ := outcome
      exact ⟨s, rfl, names, by simp [show s.qualifiers = _ from names]⟩

end Application

end FilterSql
