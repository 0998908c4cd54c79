import FilterSql.Filter.Document
import FilterSql.Proofs.Fidelity
import FilterSql.Proofs.Joining

/-!
Compiled filters mean what they say.

A filter reads as a condition on a row of a database (`Engine.Reads`): forward relations are
followed to the one row they lead to, or to a row of nulls, and a reverse hop asks for some row of
the many side, together with rows behind the hops that are joined from there.
`Filter.compile_meaning` shows that a row passes the compiled filter on one of the joined rows if
and only if the filter holds of it, where alternatives that constrain nothing do not count unless
they are written as the empty filter. So the compiled filter is never weaker than the plain
reading, and it agrees with it unless a disjunction mixes such alternatives with others
(`Filter.compile_misses_row`).
-/

namespace FilterSql

namespace Engine

variable {E : Engine}

/-- The row that forward relations lead to, the row of nulls if there is none. -/
def follow (db : E.Database) (cat : Catalog) : (collection : String) → E.Row → List String → E.Row
  | _, row, [] => row
  | collection, row, field :: rest =>
    match cat.link? false collection field with
    | some link => follow db cat link.table (next db link row) rest
    | none => E.nullRow

/-- How filters read on a database. A view gives a row to each hop sequence. -/
def reading (db : E.Database) (cat : Catalog) : Reading (List String → E.Row) where
  test view there column operator operand :=
    ∃ p, Leaf.predicate ⟨there.collection, column⟩ (cat.localType there.collection column) operator
        operand = .ok p ∧ truth db (fun _ => view there.hops) p = .yes
  far view there r K :=
    ∃ row ∈ db r.manyCollection, Same (view there.hops r.onePrimary) (row r.manyField) ∧
      ∃ inner, inner [] = row ∧ Consistent db cat true r.manyCollection inner ∧ K inner
  far_mono := by
    rintro view there r K K' weaker ⟨row, mem, same, inner, start, consistent, holds⟩
    exact ⟨row, mem, same, inner, start, consistent, weaker inner holds⟩

/-- Whether a filter holds of a row of a collection. -/
def Reads (db : E.Database) (cat : Catalog) (counts : Bool → Place → List Entry → Bool)
    (collection : String) (row : E.Row) (filter : Filter) : Prop :=
  (reading db cat).holds cat counts false (.root collection) (follow db cat collection row) filter

/-- Whether a row passes a compiled filter on one of the joined rows. -/
def Passes (db : E.Database) (collection : String) (row : E.Row) (c : CompiledFilter) : Prop :=
  ∃ joined ∈ joinAll db c.joins (Env.bind (fun _ => E.nullRow) collection row),
    ∀ p ∈ c.predicate, truth db joined p = .yes

/-- The primary keys that relations refer to are unique. -/
def Unique (db : E.Database) (cat : Catalog) : Prop :=
  ∀ r ∈ cat.relations, ∀ x ∈ db r.oneCollection, ∀ y ∈ db r.oneCollection,
    Same (x r.onePrimary) (y r.onePrimary) → x = y

variable {db : E.Database} {cat : Catalog}

theorem interprets_truth (env : E.Env) : Interprets fun p => truth db env p = .yes :=
  ⟨fun _ => truth_and_eq_yes, fun _ => truth_or_eq_yes⟩

/-- A comparison of a column under any name has the truth value that it has of the row itself. -/
theorem test_iff {view : List String → E.Row} {env : E.Env} {there : Place} {column name : String}
    {operator : Operator} {operand : Json} {p : Predicate} (agree : env name = view there.hops)
    (made : Leaf.predicate ⟨name, column⟩ (cat.localType there.collection column) operator operand =
      .ok p) :
    (reading db cat).test view there column operator operand ↔ truth db env p = .yes := by
  obtain ⟨test, isTest, rfl, always⟩ := Leaf.predicate_isTest made
  have same : truth db (fun _ => view there.hops) (test ⟨there.collection, column⟩) =
      truth db env (test ⟨name, column⟩) := truth_test_congr isTest (by simp [Env.cell, agree])
  simp [reading, always, same]

/-- In a sub-select the joined rows fit a view that agrees with them. -/
theorem fits_inner (db : E.Database) {f : Compile.Frame} {names : List String → String}
    {seen : List (List String)} {view : List String → E.Row} {env : E.Env}
    (agree : ∀ path, path = [] ∨ path ∈ seen → env (names path) = view path) :
    (reading db f.catalog).Fits f names seen (fun _ _ _ => False) view
      fun p => truth db env p = .yes where
  interprets := interprets_truth env
  test stood made := test_iff (agree _ stood) made
  far _ impossible := impossible.elim

/-- The test against a sub-select asks for what a reverse hop reads as. -/
theorem truth_subselect {policy : PathPolicy} {there : Place} {r : Relation} {child : Filter}
    {s : Select} {names : List String → String} {view : List String → E.Row} {env : E.Env}
    (agree : env (names there.hops) = view there.hops)
    (made : Filter.SubselectOf cat policy r child s) :
    (reading db cat).far view there r (fun v =>
        (reading db cat).holds cat cat.alternatives true (.root r.manyCollection) v child) ↔
      truth db env (.inSelect ((there.anchor names).column r.onePrimary) s) = .yes := by
  obtain ⟨plan, id, valid, rfl⟩ := made
  rw [truth_inSelect_eq_yes r.manyField rfl]
  change _ ↔ ∃ row ∈ db r.manyCollection,
    ∃ joined ∈ joinAll db (plan.seen.map (cat.joinOf true r.manyCollection plan.names))
      (env.bind r.manyCollection row),
    (∀ p ∈ (Compile.conjunction plan.predicates).toList, truth db joined p = .yes) ∧
    Same (env (names there.hops) r.onePrimary) (joined r.manyCollection r.manyField)
  -- The conditions of the statement say on joined rows what the filter says on a view of them.
  have conveys : ∀ (view : List String → E.Row) (joined : E.Env),
      (∀ path, path = [] ∨ path ∈ plan.seen → joined (plan.names path) = view path) →
      ((reading db cat).holds cat cat.alternatives true (.root r.manyCollection) view child ↔
        ∀ p ∈ (Compile.conjunction plan.predicates).toList, truth db joined p = .yes) := by
    intro view joined agree
    have meant : _ ↔ _ := valid.emits.conveys (fits_inner db agree)
    rw [meant, ← (interprets_truth joined).conjunction]
    simp
  rw [agree]
  constructor
  · rintro ⟨row, mem, same, inner, rfl, consistent, holds⟩
    obtain ⟨joined, made, agree'⟩ := exists_mem_joinAll valid.grown valid.apart valid.linked
      inner (env.bind r.manyCollection (inner [])) (by simp [valid.root_name])
      fun path _ link last => consistent path link last
    have start := agree' [] (.inl rfl)
    rw [valid.root_name] at start
    exact ⟨_, mem, joined, made, (conveys inner joined agree').mp holds, by rwa [start]⟩
  · rintro ⟨row, mem, joined, made, passes, same⟩
    obtain ⟨start, met⟩ := meets_of_mem_joinAll valid.grown valid.apart valid.linked made
    rw [valid.root_name, bind_self] at start
    let view' : List String → E.Row := fun path => joined (plan.names path)
    have agree' : ∀ path, path = [] ∨ path ∈ plan.seen →
        joined (plan.names path) = extend db cat true r.manyCollection plan.seen view' path :=
      fun path known => (extend_of_mem valid.grown view' known).symm
    have holds := (conveys _ joined agree').mpr passes
    rw [start] at same
    refine ⟨row, mem, same, _, ?_, consistent_extend valid.grown met, holds⟩
    rw [← agree' [] (.inl rfl), valid.root_name, start]

/-! ### Whole statements -/

/-- The joined rows of a whole statement fit a view that agrees with them. -/
theorem fits_outer (db : E.Database) {f : Compile.Frame} {names : List String → String}
    {seen : List (List String)} {view : List String → E.Row} {env : E.Env}
    (agree : ∀ path, path = [] ∨ path ∈ seen → env (names path) = view path) :
    (reading db f.catalog).Fits f names seen (Filter.SubselectOf f.catalog f.policy) view
      fun p => truth db env p = .yes where
  interprets := interprets_truth env
  test stood made := test_iff (agree _ stood) made
  far stood made := truth_subselect (agree _ stood) made

theorem follow_snoc {collection table field : String} {link : Link} {before : List String}
    (arrives : cat.arrival false collection before = some table)
    (linked : cat.link? false table field = some link) (row : E.Row) :
    follow db cat collection row (before ++ [field]) =
      next db link (follow db cat collection row before) := by
  induction before generalizing collection row with
  | nil =>
      cases arrives
      simp [follow, linked]
  | cons first rest ih =>
      simp only [Catalog.arrival, Option.bind_eq_some_iff] at arrives
      obtain ⟨through, passed, arrives⟩ := arrives
      simp only [List.cons_append, follow, passed]
      exact ih arrives _

/-- Following relations gives a consistent view. -/
theorem consistent_follow (db : E.Database) (collection : String) (row : E.Row) :
    Consistent db cat false collection (follow db cat collection row) := by
  intro path link last
  rcases List.eq_nil_or_concat path with rfl | ⟨before, field, rfl⟩
  · cases last
  · rw [List.concat_eq_append] at last ⊢
    rw [Catalog.lastLink_snoc, Option.bind_eq_some_iff] at last
    obtain ⟨table, arrives, linked⟩ := last
    rw [follow_snoc arrives linked, List.dropLast_concat]
    exact meets_next db link _

/-- A link that is joined outside of sub-selects leads to a primary key that is unique. -/
theorem Unique.link {collection field : String} {link : Link} (unique : Unique db cat)
    (linked : cat.link? false collection field = some link) :
    ∀ x ∈ db link.table, ∀ y ∈ db link.table, Same (x link.far) (y link.far) → x = y := by
  obtain ⟨r, mem, rfl⟩ := Catalog.link?_false_eq_some linked
  exact unique r mem

/-- The joined rows of a whole statement are those that following relations gives. -/
theorem eq_follow {names : List String → String} {seen : List (List String)} {collection : String}
    {row : E.Row} {joined : E.Env} (unique : Unique db cat) (grown : Grown seen)
    (linked : ∀ path ∈ seen, (cat.lastLink false collection path).isSome)
    (start : joined (names []) = row)
    (met : ∀ path ∈ seen, ∀ link, cat.lastLink false collection path = some link →
      Meets db link (joined (names path.dropLast)) (joined (names path))) :
    ∀ path, path = [] ∨ path ∈ seen → joined (names path) = follow db cat collection row path := by
  intro path
  induction path using List.reverseRecOn with
  | nil =>
      intro _
      exact start
  | append_singleton before field ih =>
      intro known
      have mem := known.resolve_left (by simp)
      obtain ⟨link, last⟩ := Option.isSome_iff_exists.mp (linked _ mem)
      have here := met _ mem link last
      have there := consistent_follow db collection row _ link last
      rw [List.dropLast_concat] at here there
      have reached := grown.dropLast_mem mem
      rw [List.dropLast_concat] at reached
      rw [Catalog.lastLink_snoc, Option.bind_eq_some_iff] at last
      obtain ⟨table, -, last⟩ := last
      rw [here.eq_next (unique.link last), there.eq_next (unique.link last), ih reached]

end Engine

/-- A row passes a compiled filter on one of the joined rows if and only if the filter holds of it,
where alternatives that constrain nothing do not count unless they are empty filters. What passes
also holds if all alternatives count, and the converse is true of filters whose disjunctions are
balanced. -/
theorem Filter.compile_meaning {cat : Catalog} {policy : PathPolicy} {strategy : AliasStrategy}
    {draws : Nat → Nat} {collection : String} {filter : Filter} {c : CompiledFilter}
    (compiled : (filter.compile cat policy false collection
      (AliasTable.fresh strategy draws cat.names)).1 = .ok c)
    {E : Engine} {db : E.Database} (unique : Engine.Unique db cat) (row : E.Row) :
    (Engine.Passes db collection row c ↔
      Engine.Reads db cat cat.alternatives collection row filter) ∧
    (Engine.Passes db collection row c →
      Engine.Reads db cat everyAlternative collection row filter) ∧
    (cat.balanced false (.root collection) filter = true →
      (Engine.Passes db collection row c ↔
        Engine.Reads db cat everyAlternative collection row filter)) := by
  obtain ⟨plan, valid, rfl, -⟩ :=
    Filter.compileOuter_spec (List.Subset.refl _) (Prod.ext compiled rfl)
  have conveys : ∀ joined : E.Env,
      (∀ path, path = [] ∨ path ∈ plan.seen →
        joined (plan.names path) = Engine.follow db cat collection row path) →
      (Engine.Reads db cat cat.alternatives collection row filter ↔
        ∀ p ∈ Compile.conjunction plan.predicates, Engine.truth db joined p = .yes) := by
    intro joined agree
    have meant : _ ↔ _ := valid.emits.conveys (Engine.fits_outer db agree)
    exact meant.trans ((Engine.interprets_truth joined).conjunction _).symm
  have faithful : Engine.Passes db collection row (plan.compiled cat false collection) ↔
      Engine.Reads db cat cat.alternatives collection row filter := by
    constructor
    · rintro ⟨joined, made, passes⟩
      obtain ⟨start, met⟩ :=
        Engine.meets_of_mem_joinAll valid.grown valid.apart valid.linked made
      rw [valid.root_name, Engine.bind_self] at start
      have agree := Engine.eq_follow unique valid.grown valid.linked (valid.root_name ▸ start) met
      exact (conveys joined agree).mpr passes
    · intro reads
      obtain ⟨joined, made, agree⟩ := Engine.exists_mem_joinAll valid.grown valid.apart valid.linked
        (Engine.follow db cat collection row)
        (Engine.Env.bind (fun _ => E.nullRow) collection row)
        (by simp [valid.root_name, Engine.follow])
        fun path _ link last => Engine.consistent_follow db collection row path link last
      exact ⟨joined, made, (conveys joined agree).mp reads⟩
  have stronger : Engine.Passes db collection row (plan.compiled cat false collection) →
      Engine.Reads db cat everyAlternative collection row filter := by
    intro passes
    exact Reading.holds_every filter (faithful.mp passes)
  refine ⟨faithful, stronger, ?_⟩
  intro balanced
  constructor
  · exact stronger
  · intro reads
    exact faithful.mpr (Reading.holds_of_balanced filter balanced reads)

/-! ### A small database -/

/-- Values that are texts. -/
def Engine.texts : Engine where
  Value := String
  order := Ord.compare
  ordered := inferInstance
  ofSql
    | .text s => some s
    | _ => none
  matchesPattern pattern _ text := pattern == text

/-- One author with one book. -/
def Engine.shelf : Engine.texts.Database
  | "authors" => [fun column => if column = "name" then some "Ann" else some "1"]
  | "books" => [fun column => if column = "title" then some "Persuasion" else some "1"]
  | _ => []

/-- The books whose author has a name and a book of a title. -/
def Filter.companions : Filter :=
  [.nested ["author"]
    [.leaf ["name"] .eq (.string "Ann"), .leaf ["books", "title"] .eq (.string "Emma")]]

theorem Engine.unique_shelf (cat : Catalog) : Engine.Unique Engine.shelf cat := by
  intro r _ x memX y memY _
  unfold Engine.shelf at memX memY
  split at memX <;> simp_all

/-- The author is joined, and the author's books are asked for in a sub-select. -/
theorem Filter.compile_meaning_companions :
    ∃ c, (Filter.companions.compile .library .ignore false "books"
        (.fresh .sequential (fun _ => 0) Catalog.library.names)).1 = .ok c ∧
      Engine.Unique Engine.shelf .library ∧ ∀ row : Engine.texts.Row,
        (Engine.Passes Engine.shelf "books" row c ↔
          Engine.Reads Engine.shelf .library everyAlternative "books" row Filter.companions) := by
  have aliases : (Filter.companions.compile .library .ignore false "books"
      (.fresh .sequential (fun _ => 0) Catalog.library.names)).1.toOption.map
        (·.joins.map (·.qualifier)) = some ["aaaaa"] := by decide +kernel
  cases compiled : (Filter.companions.compile .library .ignore false "books"
      (.fresh .sequential (fun _ => 0) Catalog.library.names)).1 with
  | error e => simp [compiled, Except.toOption] at aliases
  | ok c =>
      exact ⟨c, rfl, Engine.unique_shelf _, fun row =>
        (compile_meaning compiled (Engine.unique_shelf _) row).2.2 (by decide)⟩

/-- A book is missed although the filter holds of all books, since an alternative that always holds
is dropped unless it is written as the empty filter. -/
theorem Filter.compile_misses_row :
    (∃ collections relations, Catalog.build collections relations = .ok .library) ∧
    Filter.ofJson {} eitherOrDocument = .ok eitherOr ∧
    ∃ c, (eitherOr.compile .library .ignore false "books"
        (.fresh .sequential (fun _ => 0) Catalog.library.names)).1 = .ok c ∧
      Engine.Unique Engine.shelf .library ∧ ∃ row ∈ Engine.shelf "books",
        Engine.Reads Engine.shelf .library everyAlternative "books" row eitherOr ∧
        ¬ Engine.Passes Engine.shelf "books" row c := by
  refine ⟨⟨_, _, Catalog.build_library⟩, rfl, _, rfl, Engine.unique_shelf _, _,
    List.mem_singleton_self _, ?_, ?_⟩
  · exact ⟨.inl (.inl ⟨rfl, trivial, trivial⟩), trivial⟩
  · rintro ⟨joined, made, passes⟩
    obtain rfl := List.mem_singleton.mp made
    exact absurd (passes (.compare ⟨"books", "title"⟩ .eq (.text "Emma")) rfl) (by decide)

end FilterSql
