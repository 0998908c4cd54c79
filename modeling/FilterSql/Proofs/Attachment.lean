import FilterSql.Proofs.Plan
import FilterSql.Query.Apply

/-!
What applying a query attaches to a statement.

A query contributes the compiled filter that it has (`Query.Contributes`) and the predicate that it
searches with (`Query.Finds`). `apply_spec` describes the statement after a successful application
by the two, and `contributes_plan` opens the first: it stands for a valid plan.
-/

namespace FilterSql

namespace Query

variable {q : Query} {cat : Catalog} {options : CompileOptions} {draws : Nat → Nat}
  {collection : String}

/-- The compiled filter of a query, an empty one if the query has no filter. -/
def Contributes (q : Query) (cat : Catalog) (options : CompileOptions) (draws : Nat → Nat)
    (collection : String) (c : CompiledFilter) : Prop :=
  match q.filter with
  | none => c = ⟨[], none⟩
  | some document => compileFilter cat options draws collection document = .ok c

/-- The predicates that a query searches with: none if it has no term or only a blank one, and else
the one of its term. -/
def Finds (q : Query) (cat : Catalog) (collection : String) (found : List Predicate) : Prop :=
  (found = [] ∧ ∀ term ∈ q.search, Text.isAllBlank term = true) ∨
    ∃ term p, q.search = some term ∧ Text.isAllBlank term = false ∧
      Search.predicate cat collection term = .ok p ∧ found = [p]

theorem applyFilter_spec {s s' : Select}
    (ran : q.applyFilter cat options draws collection s = (.ok (), s')) :
    ∃ c, q.Contributes cat options draws collection c ∧ s' = attachFilter c s := by
  cases asked : q.filter with
  | none =>
      simp only [applyFilter, asked] at ran
      cases ran
      exact ⟨⟨[], none⟩, by simp [Contributes, asked], by simp [attachFilter]⟩
  | some document =>
      simp only [applyFilter, asked] at ran
      obtain ⟨c, s₁, compiled, attached⟩ := Step.bind_eq_ok ran
      obtain ⟨made, rfl⟩ := Step.ofExcept_eq_ok compiled
      cases attached
      exact ⟨c, by simpa [Contributes, asked] using made, rfl⟩

theorem applySearch_spec {s s' : Select}
    (ran : q.applySearch cat collection s = (.ok (), s')) :
    ∃ found, q.Finds cat collection found ∧
      s' = { s with predicates := s.predicates ++ found } := by
  cases asked : q.search with
  | none =>
      simp only [applySearch, asked] at ran
      cases ran
      exact ⟨[], .inl ⟨rfl, by simp [asked]⟩, by simp⟩
  | some term =>
      cases blank : Text.isAllBlank term with
      | true =>
          simp only [applySearch, asked, blank, if_true] at ran
          cases ran
          exact ⟨[], .inl ⟨rfl, by simp [asked, blank]⟩, by simp⟩
      | false =>
          simp only [applySearch, asked, blank, Bool.false_eq_true, if_false] at ran
          obtain ⟨p, s₁, searched, attached⟩ := Step.bind_eq_ok ran
          obtain ⟨made, rfl⟩ := Step.ofExcept_eq_ok searched
          cases attached
          exact ⟨[p], .inr ⟨term, p, asked, blank, made, rfl⟩, rfl⟩

/-- The statement after a query was applied. -/
theorem apply_spec {s s' : Select}
    (ran : q.apply cat options draws collection s = (.ok (), s')) :
    collection ∈ cat.names ∧ ∃ c found,
      q.Contributes cat options draws collection c ∧ q.Finds cat collection found ∧
      s'.collection = s.collection ∧ s'.joins = s.joins ++ c.joins ∧
      s'.predicates = s.predicates ++ c.predicate.toList ++ found ∧
      s'.orderBy = s.orderBy ++ q.sort.map (fun k => ⟨⟨collection, k.column⟩, k.descending⟩) ∧
      s'.columns = s.columns := by
  obtain ⟨_, s₁, required, more⟩ := Step.bind_eq_ok ran
  obtain ⟨known, rfl⟩ := Step.ofExcept_eq_ok required
  obtain ⟨_, s₂, paged, more⟩ := Step.bind_eq_ok more
  cases paged
  obtain ⟨_, s₃, filtered, searched⟩ := Step.bind_eq_ok more
  obtain ⟨c, contributes, rfl⟩ := applyFilter_spec filtered
  obtain ⟨found, finds, rfl⟩ := applySearch_spec searched
  exact ⟨Catalog.mem_names_of_requireCollection known, c, found, contributes, finds, rfl, rfl, rfl,
    rfl, rfl⟩

/-- What a query contributes stands for a valid plan, which is that of the empty filter if the query
has none. -/
theorem contributes_plan {c : CompiledFilter} (known : collection ∈ cat.names)
    (contributes : q.Contributes cat options draws collection c) :
    ∃ (filter : Filter) (plan : Plan),
      plan.Valid cat.names ⟨cat, options.unresolvedPaths, Scope.root⟩
        (Filter.SubselectOf cat options.unresolvedPaths) collection filter ∧
      c = plan.compiled cat false collection ∧ plan.aliases.Nodup ∧
      (∀ a ∈ plan.aliases, a ∉ cat.names) ∧ ∀ j ∈ c.joins.head?,
        j.qualifier = (AliasTable.fresh options.aliases draws cat.names).next.1 := by
  unfold Contributes at contributes
  split at contributes
  · subst contributes
    exact ⟨[], Plan.empty collection, Plan.valid_empty known, rfl, by
      simp [Plan.empty, Plan.aliases, Predicate.aliasesAll, Predicate.statementsAll]⟩
  · next document _ =>
      simp only [compileFilter] at contributes
      cases read : Filter.ofJson options document with
      | error e => simp [read, bind, Except.bind] at contributes
      | ok filter =>
          simp only [read, bind, Except.bind] at contributes
          obtain ⟨plan, spec⟩ :=
            Filter.compileOuter_spec (List.Subset.refl _) (Prod.ext contributes rfl)
          exact ⟨filter, plan, spec⟩

end Query

namespace Search

/-- The test of a column for a term refers to that column and holds no statement. -/
theorem columnTest_parts {collection term : String} {c : Column} {p : Predicate}
    (made : columnTest collection term c = some p) :
    p.columns = [⟨collection, c.name⟩] ∧ p.statements = [] := by
  unfold columnTest at made
  split at made
  · cases made
    exact ⟨rfl, rfl⟩
  · obtain ⟨v, -, rfl⟩ := Option.map_eq_some_iff.mp made
    exact ⟨rfl, rfl⟩
  · split at made <;> cases made
    exact ⟨rfl, rfl⟩
  · cases made

/-- The tests for a term refer to the columns of one collection. -/
theorem columnTests_parts (collection term : String) (columns : List Column) :
    (∀ c ∈ Predicate.columnsAll (columns.filterMap (columnTest collection term)),
      c.table = collection) ∧
    Predicate.statementsAll (columns.filterMap (columnTest collection term)) = [] := by
  induction columns with
  | nil => exact ⟨by simp [Predicate.columnsAll], rfl⟩
  | cons c rest ih =>
      cases made : columnTest collection term c with
      | none => simpa [made] using ih
      | some p =>
          obtain ⟨columns, statements⟩ := columnTest_parts made
          simp only [List.filterMap_cons_some made, Predicate.columnsAll, columns,
            Predicate.statementsAll, statements]
          exact ⟨by simpa using ih.1, by simpa using ih.2⟩

end Search

/-- A search refers to the columns of the collection and holds no statement. -/
theorem Query.Finds.parts {q : Query} {cat : Catalog} {collection : String}
    {found : List Predicate} (finds : q.Finds cat collection found) :
    (∀ c ∈ Predicate.columnsAll found, c.table = collection) ∧
      Predicate.statementsAll found = [] := by
  rcases finds with ⟨rfl, -⟩ | ⟨term, p, -, -, made, rfl⟩
  · exact ⟨by simp [Predicate.columnsAll], rfl⟩
  · simp only [Search.predicate] at made
    cases required : cat.requireCollection collection with
    | error e => simp [required, bind, Except.bind] at made
    | ok c =>
        simp only [required, bind, Except.bind] at made
        cases made
        rw [Catalog.name_of_requireCollection required]
        simpa [Predicate.columnsAll, Predicate.columns, Predicate.statementsAll,
          Predicate.statements] using Search.columnTests_parts collection term c.columns

end FilterSql
