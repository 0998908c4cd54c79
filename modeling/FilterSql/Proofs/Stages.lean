import FilterSql.Proofs.Refusal

/-!
The stages of applying a query.

A query on a collection that is there attaches its ordering and paging, which cannot fail, then its
filter, which can, and then its search, which cannot. So it fails with a statement that has the
ordering and paging and nothing more (`Query.apply_stages`), and one that succeeds does what three
queries do, one after another: the ordering and paging (`Query.pageAlone`), the filter
(`Query.filterAlone`) and the search (`Query.searchAlone`). The random draws matter to the filter
only.
-/

namespace FilterSql

/-- A computation in two steps fails in the first one or in the second. -/
theorem Step.bind_eq_error {σ α β : Type} {m : Step σ α} {k : α → Step σ β} {s s' : σ}
    {e : CompileError} (failed : (m >>= k) s = (.error e, s')) :
    m s = (.error e, s') ∨ ∃ a s₁, m s = (.ok a, s₁) ∧ k a s₁ = (.error e, s') := by
  rw [bind_apply] at failed
  split at failed
  · next a s₁ first => exact .inr ⟨a, s₁, first, failed⟩
  · next e' s₁ first =>
      cases failed
      exact .inl first

namespace Query

/-! ### Parts of a query -/

/-- The ordering and paging of a query. -/
def pageAlone (q : Query) : Query := { q with filter := none, search := none }

/-- The filter of a query. -/
def filterAlone (q : Query) : Query := { filter := q.filter }

/-- The search of a query. -/
def searchAlone (q : Query) : Query := { search := q.search }

section Parts

variable {q : Query} {cat : Catalog} {options : CompileOptions} {draws : Nat → Nat}
  {collection : String}

/-- Ordering and paging keep what is there, and earlier entries of the ordering go first. -/
theorem attachPaging_keeps (q : Query) (collection : String) (s : Select) :
    (q.attachPaging collection s).collection = s.collection ∧
      (q.attachPaging collection s).columns = s.columns ∧
      (q.attachPaging collection s).joins = s.joins ∧
      (q.attachPaging collection s).predicates = s.predicates ∧
      s.orderBy <+: (q.attachPaging collection s).orderBy :=
  ⟨rfl, rfl, rfl, rfl, List.prefix_append _ _⟩

/-- A query that asks for no ordering and no paging changes neither. -/
theorem attachPaging_of_plain (sort : q.sort = []) (limit : q.limit = none)
    (offset : q.offset = none) (single : q.single = false) (s : Select) :
    q.attachPaging collection s = s := by
  have nowhere : q.pageOffset = none := by
    unfold pageOffset
    split
    · next asked => simp [limit] at asked
    · simp [offset]
  simp [attachPaging, sort, limit, single, nowhere]

/-- A query on a collection that is there attaches its ordering and paging, and goes on with its
filter and its search. -/
theorem apply_of_mem (known : collection ∈ cat.names) (s : Select) :
    q.apply cat options draws collection s =
      (do q.applyFilter cat options draws collection
          q.applySearch cat collection) (q.attachPaging collection s) := by
  obtain ⟨c, required⟩ := Catalog.requireCollection_of_mem known
  simp only [apply, required]
  rfl

theorem apply_pageAlone (known : collection ∈ cat.names) (s : Select) :
    q.pageAlone.apply cat options draws collection s = (.ok (), q.attachPaging collection s) := by
  rw [apply_of_mem known]
  rfl

theorem apply_filterAlone (known : collection ∈ cat.names) (s : Select) :
    q.filterAlone.apply cat options draws collection s =
      q.applyFilter cat options draws collection s := by
  have nothing : q.filterAlone.attachPaging collection s = s :=
    attachPaging_of_plain rfl rfl rfl rfl s
  rw [apply_of_mem known, nothing, Step.bind_apply]
  rcases ran : q.filterAlone.applyFilter cat options draws collection s with ⟨_ | ⟨⟩, s'⟩
  · exact ran.symm
  · exact ran.symm

theorem apply_searchAlone (known : collection ∈ cat.names) (s : Select) :
    q.searchAlone.apply cat options draws collection s = q.applySearch cat collection s := by
  have nothing : q.searchAlone.attachPaging collection s = s :=
    attachPaging_of_plain rfl rfl rfl rfl s
  rw [apply_of_mem known, nothing]
  rfl

/-! ### Failing -/

/-- A filter that fails attaches nothing. -/
theorem applyFilter_error {s s' : Select} {e : CompileError}
    (failed : q.applyFilter cat options draws collection s = (.error e, s')) : s' = s := by
  cases asked : q.filter with
  | none =>
      simp only [applyFilter, asked] at failed
      cases failed
  | some document =>
      simp only [applyFilter, asked] at failed
      rcases Step.bind_eq_error failed with compiled | ⟨c, t, -, attached⟩
      · cases made : compileFilter cat options draws collection document with
        | ok c =>
            rw [made] at compiled
            cases compiled
        | error e' =>
            rw [made] at compiled
            cases compiled
            rfl
      · cases attached

/-- A query on a collection that is there fails with the ordering and paging attached. -/
theorem apply_error (known : collection ∈ cat.names) {s s' : Select} {e : CompileError}
    (failed : q.apply cat options draws collection s = (.error e, s')) :
    s' = q.attachPaging collection s := by
  rw [apply_of_mem known] at failed
  rcases Step.bind_eq_error failed with filter | ⟨_, t, -, search⟩
  · exact applyFilter_error filter
  · obtain ⟨t', found⟩ := applySearch_ok (q := q) known t
    rw [found] at search
    cases search

/-- A query that succeeds attaches what its filter is compiled to and then what it searches with. -/
theorem apply_ok (known : collection ∈ cat.names) {s s' : Select}
    (ran : q.apply cat options draws collection s = (.ok (), s')) :
    ∃ c found, q.Contributes cat options draws collection c ∧ q.Finds cat collection found ∧
      s' = { q.attachPaging collection s with
        joins := s.joins ++ c.joins
        predicates := s.predicates ++ c.predicate.toList ++ found } := by
  rw [apply_of_mem known] at ran
  obtain ⟨_, t, filtered, searched⟩ := Step.bind_eq_ok ran
  obtain ⟨c, contributes, rfl⟩ := applyFilter_spec filtered
  obtain ⟨found, finds, rfl⟩ := applySearch_spec searched
  exact ⟨c, found, contributes, finds, rfl⟩

/-! ### One query and its parts -/

/-- A query does what its ordering and paging, its filter and its search do, one after another. -/
theorem apply_eq_parts (q : Query) (cat : Catalog) (options : CompileOptions)
    (draws first last : Nat → Nat) (collection : String) :
    q.apply cat options draws collection = (do
      q.pageAlone.apply cat options first collection
      q.filterAlone.apply cat options draws collection
      q.searchAlone.apply cat options last collection) := by
  funext s
  by_cases known : collection ∈ cat.names
  · rw [apply_of_mem known, Step.bind_apply, Step.bind_apply, apply_pageAlone known]
    dsimp only
    rw [Step.bind_apply, apply_filterAlone known]
    rcases q.applyFilter cat options draws collection (q.attachPaging collection s) with
      ⟨e | ⟨⟩, t⟩
    · rfl
    · exact (apply_searchAlone known t).symm
  · rw [apply_of_not_mem known, Step.bind_apply, apply_of_not_mem known]

end Parts

/-- A query on a collection that is not there leaves the statement alone. On one that is there, its
ordering and paging alone always succeed and keep all else. Where the query fails, it leaves the
statement with them and nothing more; where it succeeds, the joins of its filter come behind those
that are there, and so do at most one predicate of the filter and at most one of the search, in this
order. In any case the three parts of the query do the same one after another. -/
theorem apply_stages (q : Query) (cat : Catalog) (options : CompileOptions) (draws : Nat → Nat)
    (collection : String) (s : Select) :
    (collection ∉ cat.names →
      q.apply cat options draws collection s = (.error (.unknownCollection collection), s)) ∧
    (collection ∈ cat.names → ∃ paged : Select,
      (∀ others, q.pageAlone.apply cat options others collection s = (.ok (), paged)) ∧
      (paged.collection = s.collection ∧ paged.columns = s.columns ∧ paged.joins = s.joins ∧
        paged.predicates = s.predicates ∧ s.orderBy <+: paged.orderBy) ∧
      (∀ e s', q.apply cat options draws collection s = (.error e, s') → s' = paged) ∧
      (∀ s', q.apply cat options draws collection s = (.ok (), s') →
        ∃ c found, q.Contributes cat options draws collection c ∧ q.Finds cat collection found ∧
          found.length ≤ 1 ∧ s' = { paged with
            joins := paged.joins ++ c.joins
            predicates := paged.predicates ++ c.predicate.toList ++ found })) ∧
    ∀ first last, q.apply cat options draws collection s = (do
      q.pageAlone.apply cat options first collection
      q.filterAlone.apply cat options draws collection
      q.searchAlone.apply cat options last collection) s := by
  refine ⟨fun gone => apply_of_not_mem gone s, fun known => ?_, fun first last => ?_⟩
  · refine ⟨q.attachPaging collection s, fun others => apply_pageAlone known s,
      attachPaging_keeps q collection s, fun e s' failed => apply_error known failed, ?_⟩
    intro s' ran
    obtain ⟨c, found, contributes, finds, after⟩ := apply_ok known ran
    have few : found.length ≤ 1 := by
      rcases finds with ⟨rfl, -⟩ | ⟨_, _, -, -, -, rfl⟩ <;> simp
    exact ⟨c, found, contributes, finds, few, after⟩
  · rw [← apply_eq_parts]

/-- The third page of the books, by title from the end, whose title lies in a range with one bound
instead of two. -/
def thirdPage : Query where
  filter := some (.object [("title", .object [("_between", .array [.string "A"])])])
  sort := [⟨"title", true⟩]
  limit := some 10
  page := some 3

/-- The same page of the books that a name is found in. -/
def namedPage : Query := { thirdPage with filter := none, search := some "Emma" }

/-- The books that have an author, from the sixth on. -/
def authored : Select :=
  { Select.ofCollection "books" with
    predicates := [.isNull ⟨"books", "author"⟩ true]
    offset := some 5 }

/-- The range is refused when the ordering and paging are attached already. The search comes behind
the predicate that is there. -/
theorem apply_stages_thirdPage :
    "books" ∈ Catalog.library.names ∧
    (∃ e s', thirdPage.apply .library {} (fun _ => 0) "books" authored = (.error e, s') ∧
      e = .invalidOperand .between "title" (.bounds 1) ∧
      thirdPage.pageAlone.apply .library {} (fun _ => 0) "books" authored = (.ok (), s') ∧
      s'.offset = some 20 ∧ s'.orderBy = [⟨⟨"books", "title"⟩, true⟩] ∧
      s'.predicates = authored.predicates) ∧
    ∃ s' p, namedPage.apply .library {} (fun _ => 0) "books" authored = (.ok (), s') ∧
      Search.predicate .library "books" "Emma" = .ok p ∧
      s'.predicates = authored.predicates ++ [p] := by
  have known : "books" ∈ Catalog.library.names := by decide +kernel
  refine ⟨known, ?_, ?_⟩
  · obtain ⟨paged, alone, keeps, fails, -⟩ :=
      (apply_stages thirdPage .library {} (fun _ => 0) "books" authored).2.1 known
    have refused : failure? (thirdPage.apply .library {} (fun _ => 0) "books" authored).1 =
        some (.invalidOperand .between "title" (.bounds 1)) := by
      decide +kernel
    rcases ran : thirdPage.apply .library {} (fun _ => 0) "books" authored with ⟨outcome, s'⟩
    rw [ran] at refused
    obtain rfl := failure?_eq_some.mp refused
    obtain rfl := fails _ _ ran
    have same := (apply_pageAlone known authored).symm.trans (alone fun _ => 0)
    have page : thirdPage.attachPaging "books" authored = s' := congrArg Prod.snd same
    refine ⟨_, _, rfl, rfl, alone _, ?_, ?_, keeps.2.2.2.1⟩
    · rw [← page]
      rfl
    · rw [← page]
      rfl
  · obtain ⟨paged, -, keeps, -, succeeds⟩ :=
      (apply_stages namedPage .library {} (fun _ => 0) "books" authored).2.1 known
    obtain ⟨s', searched⟩ := applySearch_ok (q := namedPage) known
      (namedPage.attachPaging "books" authored)
    have ran : namedPage.apply .library {} (fun _ => 0) "books" authored = (.ok (), s') := by
      rw [apply_of_mem known]
      exact searched
    obtain ⟨c, found, contributes, finds, -, rfl⟩ := succeeds s' ran
    rcases finds with ⟨-, blank⟩ | ⟨term, p, asked, -, made, rfl⟩
    · exact absurd (blank "Emma" rfl) (by decide)
    · cases asked
      cases contributes
      exact ⟨_, p, ran, made, by simp [keeps.2.2.2.1]⟩

end Query

end FilterSql
