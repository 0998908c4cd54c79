import FilterSql.Proofs.Database
import FilterSql.Proofs.Lowering
import FilterSql.Proofs.Plan
import FilterSql.Proofs.Route
import FilterSql.Search

/-!
What a search finds in columns of texts.

The test of such a column is true of the texts in whose lower case the lower case of the term is
found. Term and text are lower-cased apart, each as a whole, so a text with the term in it as it
stands is not always one of them. `Search.predicate_finds` says that all such texts are found
exactly if the term is steady (`Text.Steady`): a term that leaves a capital sigma to what stands
around it is missed in some text.
-/

namespace FilterSql

/-- The texts among the values of a database system, which are compared with patterns in lower case
where letter case is set aside. -/
structure Engine.Texts (E : Engine) where
  value : String → E.Value
  insensitive : ∀ pattern s,
    E.matchesPattern pattern true (value s) = (Like.answer pattern (Text.lower s) == some true)

/-- In the system of texts all values are texts. -/
def Engine.Texts.written : Engine.written.Texts := ⟨id, fun _ _ => rfl⟩

/-- The first collection of the library. -/
theorem Catalog.requireCollection_books :
    Catalog.library.requireCollection "books" =
      .ok (.ofFields "books" "id" [("id", "integer"), ("title", "text"), ("author", "integer")]) :=
  rfl

namespace Search

open Engine (truth)

variable {cat : Catalog} {collection : String} {found : Collection} {c : Column}

/-- The test of a text column. -/
theorem columnTest_text (textual : c.localType = .text) (collection term : String) :
    columnTest collection term c =
      some (.like ⟨collection, c.name⟩ (Like.containing (Text.lower term)) false true) := by
  simp [columnTest, textual]

/-- The test that a search makes of a column is one of the disjuncts. -/
theorem predicate_of_columnTest (known : cat.requireCollection collection = .ok found)
    (mem : c ∈ found.columns) {term : String} {test : Predicate}
    (made : columnTest collection term c = some test) :
    ∃ tests, predicate cat collection term = .ok (.or tests) ∧ test ∈ tests := by
  refine ⟨found.columns.filterMap (columnTest found.name term), ?_, ?_⟩
  · simp only [predicate, known]
    rfl
  · rw [Catalog.name_of_requireCollection known]
    exact List.mem_filterMap.mpr ⟨c, mem, made⟩

/-- The pattern of a term is matched, letter case aside, by the texts in whose lower case the lower
case of the term is found. -/
theorem truth_containing {E : Engine} (texts : E.Texts) {db : E.Database} {env : E.Env}
    {column : ColumnRef} {v : String} (cell : env.cell column = some (texts.value v))
    (term : String) :
    truth db env (.like column (Like.containing (Text.lower term)) false true) = .yes ↔
      (Text.lower term).toList <:+: (Text.lower v).toList := by
  have matched : E.matchesPattern (Like.containing (Text.lower term)) true (texts.value v) = true ↔
      (Text.lower term).toList <:+: (Text.lower v).toList := by
    rw [texts.insensitive, Like.answer, Like.tokens?_containing, Option.map_some, beq_iff_eq,
      Option.some_inj, Like.accepts_around]
  rw [truth, cell, ← matched]
  cases found : E.matchesPattern (Like.containing (Text.lower term)) true (texts.value v) <;>
    simp [found, Truth.ofBool, Truth.turned]

/-- A search makes one test of each text column, which is true of the texts in whose lower case the
lower case of the term is found. These are all the texts with the term in them as it stands, and
possibly others, exactly if the term is steady. -/
theorem predicate_finds (known : cat.requireCollection collection = .ok found)
    (mem : c ∈ found.columns) (textual : c.localType = .text) (term : String) :
    ∃ tests test, predicate cat collection term = .ok (.or tests) ∧
      columnTest collection term c = some test ∧ test ∈ tests ∧
      ∀ (E : Engine) (texts : E.Texts) (db : E.Database),
        (∀ (env : E.Env) (v : String), env.cell ⟨collection, c.name⟩ = some (texts.value v) →
          (truth db env test = .yes ↔
            (Text.lower term).toList <:+: (Text.lower v).toList)) ∧
        ((∀ (env : E.Env) (v : String), env.cell ⟨collection, c.name⟩ = some (texts.value v) →
          term.toList <:+: v.toList → truth db env test = .yes) ↔ Text.Steady term) := by
  have made := columnTest_text textual collection term
  obtain ⟨tests, run, among⟩ := predicate_of_columnTest known mem made
  refine ⟨tests, _, run, made, among, fun E texts db => ⟨?_, ?_⟩⟩
  · intro env v cell
    exact truth_containing texts cell term
  · rw [← Text.lower_infix_iff]
    constructor
    · intro finds v within
      let env : E.Env := fun _ _ => some (texts.value v)
      exact (truth_containing texts rfl term).mp (finds env v rfl within)
    · intro kept env v cell within
      exact (truth_containing texts cell term).mpr (kept v within)

/-- A syllable in the middle of a title is found in it, since what follows its sigma is cased. -/
theorem predicate_finds_syllable :
    (∃ collections relations, Catalog.build collections relations = .ok .library) ∧
    Text.Steady "ΣΕΥ" ∧
    ∃ tests test, predicate .library "books" "ΣΕΥ" = .ok (.or tests) ∧ test ∈ tests ∧
      ∀ (db : Engine.written.Database) (env : Engine.written.Env),
        env.cell ⟨"books", "title"⟩ = some "ΟΔΥΣΣΕΥΣ" → truth db env test = .yes := by
  have steady : Text.Steady "ΣΕΥ" := by decide +kernel
  obtain ⟨tests, test, run, -, among, finds⟩ :=
    predicate_finds (c := ⟨"title", "books", "text", .text⟩) Catalog.requireCollection_books
      (by decide) rfl "ΣΕΥ"
  refine ⟨⟨_, _, Catalog.build_library⟩, steady, tests, test, run, among, fun db env cell => ?_⟩
  exact ((finds Engine.written .written db).2.mpr steady) env "ΟΔΥΣΣΕΥΣ" cell (by decide +kernel)

/-- A word that ends in a sigma is not found where the word goes on. -/
theorem predicate_misses :
    (∃ collections relations, Catalog.build collections relations = .ok .library) ∧
    "ΟΔΥΣ".toList <:+: "ΟΔΥΣΣΕΥΣ".toList ∧
    ∃ tests, predicate .library "books" "ΟΔΥΣ" = .ok (.or tests) ∧
      .like ⟨"books", "title"⟩ "%οδυς%" false true ∈ tests ∧
      ∀ (db : Engine.written.Database) (env : Engine.written.Env),
        env.cell ⟨"books", "title"⟩ = some "ΟΔΥΣΣΕΥΣ" →
          truth db env (.like ⟨"books", "title"⟩ "%οδυς%" false true) = .no := by
  have pattern : Like.containing (Text.lower "ΟΔΥΣ") = "%οδυς%" := by decide +kernel
  have answer : Like.answer "%οδυς%" (Text.lower "ΟΔΥΣΣΕΥΣ") = some false := by decide +kernel
  have made := columnTest_text (c := ⟨"title", "books", "text", .text⟩) rfl "books" "ΟΔΥΣ"
  rw [pattern] at made
  obtain ⟨tests, run, among⟩ :=
    predicate_of_columnTest Catalog.requireCollection_books (by decide) made
  refine ⟨⟨_, _, Catalog.build_library⟩, by decide +kernel, tests, run, among, ?_⟩
  intro db env cell
  rw [truth, cell]
  simp [Engine.written, answer, Truth.ofBool, Truth.turned]

end Search

end FilterSql
