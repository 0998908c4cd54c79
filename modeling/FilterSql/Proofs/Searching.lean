import FilterSql.Proofs.Finding
import FilterSql.Proofs.Numerals
import FilterSql.Proofs.Sql.RoundTrip

/-!
Which rows a search finds.

A search asks of each column what its type allows (`Search.Meets`): of a text that the lower case of
the term is found in its lower case, of a number that it is the one that the term reads as
(`Search.ReadsAs`), and of an identifier that it is the term, if that is one (`Search.IsUuid`).
`Search.predicate_dispatches` says that a row is found exactly if one of its columns is as asked,
that no row is found if nothing is asked of any column, and that the search stays one condition next
to those that were there when the statement is rendered and read again. In clickhouse the last holds
for identifiers without a backslash; `Search.predicate_breaks_out` shows what becomes of a search on
a column whose name has one.
-/

namespace FilterSql

namespace Text

/-- Joining the parts of a text gives the text back. -/
theorem join_split (sep : Char) (s : String) : join (String.singleton sep) (split sep s) = s := by
  have parts (cs : List Char) :
      (join (String.singleton sep) ((splitChars sep cs).map String.ofList)).toList = cs := by
    induction cs with
    | nil => rfl
    | cons c cs ih =>
        rw [splitChars]
        cases later : splitChars sep cs with
        | nil => exact absurd later (splitChars_ne_nil sep cs)
        | cons part rest =>
            rw [later] at ih
            split
            · next same =>
                rw [List.map_cons, List.map_cons, join]
                · simp [← List.map_cons, ih, same]
                · simp
            · cases rest with
              | nil => simpa [join] using ih
              | cons => simpa [join] using ih
  exact String.toList_inj.mp (parts s.toList)

end Text

namespace Search

open Engine (truth)

/-! ### What a term is read as -/

/-- A universally unique identifier: hexadecimal digits in groups of eight, four, four, four and
twelve with hyphens between them. -/
inductive IsUuid (term : String) : Prop where
  | mk {groups : List String} (lengths : groups.map String.length = [8, 4, 4, 4, 12])
      (digits : ∀ g ∈ groups, ∀ c ∈ g.toList, isHex c = true) (joined : Text.join "-" groups = term)

/-- The finite number that a term reads as, blanks around it aside: an integer of sixty-four bits,
or else the binary64 number nearest to a decimal. -/
inductive ReadsAs (term : String) : SqlValue → Prop where
  | integer {n : Int} (written : Reading.Numeral n (Text.trim term.toList))
      (least : -(Word64.signedLimit : Int) ≤ n) (greatest : n < Word64.signedLimit) :
      ReadsAs term (.int n)
  | decimal {negative : Bool} {digits : Nat} {exponent : Int} {x : Binary64}
      (noInteger : ∀ n, Reading.Numeral n (Text.trim term.toList) →
        ¬ (-(Word64.signedLimit : Int) ≤ n ∧ n < Word64.signedLimit))
      (written : Reading.IsDecimal negative digits exponent (Text.trim term.toList))
      (nearest : Binary64.nearest negative (digits * 10 ^ exponent.toNat)
        (10 ^ (-exponent).toNat) = some x) :
      ReadsAs term (.float (.finite x))

theorem isUuid_iff {term : String} : isUuid term = true ↔ IsUuid term := by
  simp only [isUuid, Bool.and_eq_true, beq_iff_eq, List.all_eq_true]
  constructor
  · rintro ⟨lengths, digits⟩
    exact ⟨lengths, digits, Text.join_split '-' term⟩
  · rintro @⟨groups, lengths, digits, rfl⟩
    have some : groups ≠ [] := by
      rintro rfl
      cases lengths
    have plain : ∀ g ∈ groups, '-' ∉ g.toList := fun g mem hyphen =>
      absurd (digits g mem '-' hyphen) (by decide)
    rw [show "-" = String.singleton '-' from rfl, Text.split_join '-' some plain]
    exact ⟨lengths, digits⟩

theorem number?_eq_some {term : String} {v : SqlValue} :
    number? term = some v ↔ ReadsAs term v := by
  rw [number?]
  cases integer : Reading.int64? (Text.trim term.toList) with
  | some n =>
      obtain ⟨written, least, greatest⟩ := Reading.int64?_eq_some.mp integer
      constructor
      · rintro ⟨⟩
        exact .integer written least greatest
      · rintro (⟨written', least', greatest'⟩ | ⟨noInteger, -, -⟩)
        · have other := Reading.int64?_eq_some.mpr ⟨written', least', greatest'⟩
          cases integer.symm.trans other
          rfl
        · exact absurd ⟨least, greatest⟩ (noInteger n written)
  | none =>
      have noInteger (n : Int) (written : Reading.Numeral n (Text.trim term.toList)) :
          ¬ (-(Word64.signedLimit : Int) ≤ n ∧ n < Word64.signedLimit) := by
        intro bounds
        cases integer.symm.trans (Reading.int64?_eq_some.mpr ⟨written, bounds⟩)
      simp only [Option.map_eq_some_iff, Reading.decimal?_eq_some]
      constructor
      · rintro ⟨x, ⟨negative, digits, exponent, written, nearest⟩, rfl⟩
        exact .decimal noInteger written nearest
      · rintro (⟨written, least, greatest⟩ | ⟨-, written, nearest⟩)
        · exact absurd ⟨least, greatest⟩ (noInteger _ written)
        · exact ⟨_, ⟨_, _, _, written, nearest⟩, rfl⟩

/-! ### What a search asks of a column -/

section Meets

variable {E : Engine} {cat : Catalog} {collection term : String} {found : Collection} {c : Column}

/-- What a search asks of the cell of a column of a type. -/
inductive Meets (texts : E.Texts) (term : String) : LocalType → E.Cell → Prop where
  | text {s : String} (within : (Text.lower term).toList <:+: (Text.lower s).toList) :
    Meets texts term .text (some (texts.value s))
  | number {v : SqlValue} {cell : E.Cell} (reads : ReadsAs term v)
      (equal : Engine.Same cell (E.ofSql v)) : Meets texts term .numeric cell
  | identifier {cell : E.Cell} (uuid : IsUuid term)
      (equal : Engine.Same cell (E.ofSql (.text term))) : Meets texts term .uuid cell

/-- The types of columns of which a search asks something. -/
inductive Asks (term : String) : LocalType → Prop where
  | text : Asks term .text
  | number {v : SqlValue} (reads : ReadsAs term v) : Asks term .numeric
  | identifier (uuid : IsUuid term) : Asks term .uuid

/-- The text columns of a row hold texts, or nothing. -/
def HoldsTexts (texts : E.Texts) (env : E.Env) (collection : String) (columns : List Column) :
    Prop :=
  ∀ c ∈ columns, c.localType = .text → ∀ x, env.cell ⟨collection, c.name⟩ = some x →
    ∃ s, x = texts.value s

/-- A search makes a test of the columns of which it asks something. -/
theorem columnTest_isSome :
    (columnTest collection term c).isSome = true ↔ Asks term c.localType := by
  simp only [columnTest]
  cases c.localType with
  | text => exact ⟨fun _ => .text, fun _ => rfl⟩
  | numeric =>
      simp only [Option.isSome_map, Option.isSome_iff_exists, number?_eq_some]
      constructor
      · rintro ⟨v, reads⟩
        exact .number reads
      · intro asks
        cases asks with
        | number reads => exact ⟨_, reads⟩
  | uuid =>
      simp only [Option.isSome_ite, isUuid_iff]
      constructor
      · exact .identifier
      · intro asks
        cases asks with
        | identifier uuid => exact uuid
  | _ =>
      constructor
      · rintro ⟨⟩
      · rintro ⟨⟩

/-- The test of a column is true of the cells that are as asked. -/
theorem truth_columnTest (texts : E.Texts) {db : E.Database} {env : E.Env}
    (typed : c.localType = .text → ∀ x, env.cell ⟨collection, c.name⟩ = some x →
      ∃ s, x = texts.value s) :
    (∃ test, columnTest collection term c = some test ∧ truth db env test = .yes) ↔
      Meets texts term c.localType (env.cell ⟨collection, c.name⟩) := by
  simp only [columnTest]
  cases type : c.localType with
  | text =>
      simp only [Option.some.injEq, exists_eq_left']
      constructor
      · intro found
        cases cell : env.cell ⟨collection, c.name⟩ with
        | none =>
            rw [truth, cell] at found
            cases found
        | some x =>
            obtain ⟨s, rfl⟩ := typed type x cell
            exact .text ((truth_containing texts cell term).mp found)
      · generalize cell : env.cell ⟨collection, c.name⟩ = x
        rintro ⟨within⟩
        exact (truth_containing texts cell term).mpr within
  | numeric =>
      simp only [Option.map_eq_some_iff, number?_eq_some]
      constructor
      · rintro ⟨-, ⟨v, reads, rfl⟩, equal⟩
        exact .number reads equal
      · intro meets
        cases meets with
        | number reads equal => exact ⟨_, ⟨_, reads, rfl⟩, equal⟩
  | uuid =>
      simp only [Option.ite_none_right_eq_some, Option.some.injEq, isUuid_iff]
      constructor
      · rintro ⟨-, ⟨uuid, rfl⟩, equal⟩
        exact .identifier uuid equal
      · intro meets
        cases meets with
        | identifier uuid equal => exact ⟨_, ⟨uuid, rfl⟩, equal⟩
  | _ =>
      constructor
      · rintro ⟨-, ⟨⟩, -⟩
      · rintro ⟨⟩

/-- The tests that a search makes of columns. -/
theorem predicate_eq (known : cat.requireCollection collection = .ok found) (term : String) :
    predicate cat collection term =
      .ok (.or (found.columns.filterMap (columnTest collection term))) := by
  rw [predicate, known, ← Catalog.name_of_requireCollection known]
  rfl

end Meets

/-! ### A search next to other conditions -/

section Rendered

variable {collection term : String} {c : Column} {test : Predicate}

/-- The test of a column is a pattern or an equality. -/
theorem columnTest_shape (made : columnTest collection term c = some test) :
    (∃ pattern, test = .like ⟨collection, c.name⟩ pattern false true) ∨
      ∃ v, test = .compare ⟨collection, c.name⟩ .eq v := by
  simp only [columnTest] at made
  generalize c.localType = type at made
  cases type with
  | text => cases made; exact .inl ⟨_, rfl⟩
  | numeric =>
      obtain ⟨v, -, rfl⟩ := Option.map_eq_some_iff.mp made
      exact .inr ⟨v, rfl⟩
  | uuid =>
      obtain ⟨-, same⟩ := Option.ite_none_right_eq_some.mp made
      cases same
      exact .inr ⟨_, rfl⟩
  | _ => cases made

variable {columns : List Column}

/-- The tests of columns are shown by their texts as they are. -/
theorem normalAll_columnTests :
    Predicate.normalAll (columns.filterMap (columnTest collection term)) =
      columns.filterMap (columnTest collection term) := by
  rw [Predicate.normalAll_eq_map]
  refine (List.map_congr_left fun test mem => ?_).trans (List.map_id _)
  obtain ⟨c, -, made⟩ := List.mem_filterMap.mp mem
  rcases columnTest_shape made with ⟨pattern, rfl⟩ | ⟨v, rfl⟩ <;> rfl

/-- The tests of columns name the collection and the columns. -/
theorem identifiersAll_columnTests :
    Predicate.identifiersAll (columns.filterMap (columnTest collection term)) ⊆
      collection :: columns.map (·.name) := by
  induction columns with
  | nil => exact List.nil_subset _
  | cons c columns ih =>
      have later : collection :: columns.map (·.name) ⊆ collection :: (c :: columns).map (·.name) :=
        List.cons_subset_cons _ (List.subset_cons_self _ _)
      cases made : columnTest collection term c with
      | none =>
          rw [List.filterMap_cons_none made]
          exact List.Subset.trans ih later
      | some test =>
          rw [List.filterMap_cons_some made, Predicate.identifiersAll]
          have own : test.identifiers = [collection, c.name] := by
            rcases columnTest_shape made with ⟨pattern, rfl⟩ | ⟨v, rfl⟩ <;> rfl
          rw [own]
          exact List.append_subset.mpr ⟨by simp, List.Subset.trans ih later⟩

/-- With a search behind its conditions, a statement shows the search as the last conjunct. -/
theorem normal_searched (s : Select) {tests : List Predicate}
    (shown : Predicate.normalAll tests = tests) :
    Select.normal { s with predicates := s.predicates ++ [.or tests] } =
      { s with predicates :=
          [.group .and (Predicate.normalAll s.predicates ++ [.group .or tests])] } := by
  have some : (s.predicates ++ [Predicate.or tests]).isEmpty = false := by simp
  have conjuncts : Predicate.normalAll (s.predicates ++ [.or tests]) =
      Predicate.normalAll s.predicates ++ [.group .or tests] := by
    simp only [Predicate.normalAll_eq_map] at shown ⊢
    simp [Predicate.normal, Predicate.normalAll_eq_map, shown]
  simp only [Select.normal, some, Bool.false_eq_true, if_false, Predicate.normal, conjuncts]

theorem identifiersAll_append (ps qs : List Predicate) :
    Predicate.identifiersAll (ps ++ qs) =
      Predicate.identifiersAll ps ++ Predicate.identifiersAll qs := by
  induction ps with
  | nil => rfl
  | cons p ps ih => simp [Predicate.identifiersAll, ih]

theorem identifiers_searched (s : Select) (tests : List Predicate) :
    Select.identifiers { s with predicates := s.predicates ++ [.or tests] } ⊆
      Predicate.identifiersAll tests ++ s.identifiers := by
  obtain ⟨collection, columns, joins, predicates, orderBy, limit, offset⟩ := s
  simp only [Select.identifiers, Predicate.identifiersOf, identifiersAll_append,
    Predicate.identifiersAll, Predicate.identifiers, List.append_nil]
  intro ident
  simp only [List.mem_append, List.mem_cons]
  tauto

end Rendered

/-- A search makes one condition of tests of the columns. A row passes it exactly if one of its
cells is as the search asks of a column of its type, and no row does if nothing is asked of any
column. Behind other conditions it is read back from the text of a statement as one conjunct. -/
theorem predicate_dispatches {cat : Catalog} {collection : String} {found : Collection}
    (known : cat.requireCollection collection = .ok found) (term : String) :
    ∃ tests, predicate cat collection term = .ok (.or tests) ∧
      (∀ (E : Engine) (texts : E.Texts) (db : E.Database) (env : E.Env),
        HoldsTexts texts env collection found.columns →
        (truth db env (.or tests) = .yes ↔
          ∃ c ∈ found.columns, Meets texts term c.localType (env.cell ⟨collection, c.name⟩))) ∧
      ((∀ c ∈ found.columns, ¬ Asks term c.localType) →
        ∀ (E : Engine) (db : E.Database) (env : E.Env), truth db env (.or tests) = .no) ∧
      ∀ (s : Select) (d : Dialect) (params : List SqlValue),
        d.Delimits (collection :: found.columns.map (·.name) ++ s.identifiers) →
        let searched : Select := { s with predicates := s.predicates ++ [.or tests] }
        Select.read d (searched.render d params).2 params.length (searched.render d params).1 =
          some { s with predicates :=
            [.group .and (Predicate.normalAll s.predicates ++ [.group .or tests])] } := by
  refine ⟨_, predicate_eq known term, fun E texts db env typed => ?_, fun unasked E db env => ?_,
    fun s d params delimits => ?_⟩
  · rw [Engine.truth_or_eq_yes]
    simp only [List.mem_filterMap]
    constructor
    · rintro ⟨test, ⟨c, mem, made⟩, true⟩
      exact ⟨c, mem, (truth_columnTest texts (typed c mem)).mp ⟨test, made, true⟩⟩
    · rintro ⟨c, mem, meets⟩
      obtain ⟨test, made, true⟩ := (truth_columnTest texts (typed c mem)).mpr meets
      exact ⟨test, ⟨c, mem, made⟩, true⟩
  · have none : found.columns.filterMap (columnTest collection term) = [] :=
      List.filterMap_eq_nil_iff.mpr fun c mem =>
        Option.not_isSome_iff_eq_none.mp (mt columnTest_isSome.mp (unasked c mem))
    rw [none]
    rfl
  · intro searched
    have plain : d.Delimits searched.identifiers := delimits.mono <|
      List.Subset.trans (identifiers_searched s _) <| List.append_subset.mpr
        ⟨List.Subset.trans identifiersAll_columnTests (List.subset_append_left _ _),
          List.subset_append_right _ _⟩
    rw [← normal_searched s normalAll_columnTests]
    simp only [Select.read, Select.lex_render params plain, Select.supply_render params plain,
      Option.bind_eq_bind, Option.bind_some, searched.wording_readsBack d, if_true]
    rfl

/-- A number with blanks around it finds books by their number, next to a condition on their title;
a word finds nothing in a collection of numbers. -/
theorem predicate_dispatches_number :
    (∃ tests, predicate .library "books" " 42 " = .ok (.or tests) ∧
      (∀ (db : Engine.written.Database) (env : Engine.written.Env),
        env.cell ⟨"books", "id"⟩ = some "42" → truth db env (.or tests) = .yes) ∧
      let titled : Predicate := .isNull ⟨"books", "title"⟩ true
      let searched : Select :=
        { Select.ofCollection "books" with predicates := [titled] ++ [.or tests] }
      Select.read .clickhouse (searched.render .clickhouse []).2 0
          (searched.render .clickhouse []).1 =
        some { Select.ofCollection "books" with
          predicates := [.and [titled, .group .or tests]] }) ∧
    ∃ cat tests, Catalog.build [.ofFields "counts" "id" [("id", "integer")]] [] = .ok cat ∧
      predicate cat "counts" "many" = .ok (.or tests) ∧
      ∀ (E : Engine) (db : E.Database) (env : E.Env), truth db env (.or tests) = .no := by
  constructor
  · obtain ⟨tests, run, finds, -, reads⟩ :=
      predicate_dispatches Catalog.requireCollection_books " 42 "
    refine ⟨tests, run, fun db env cell => ?_, ?_⟩
    · refine (finds Engine.written .written db env fun c _ _ x _ => ⟨x, rfl⟩).mpr
        ⟨⟨"id", "books", "integer", .numeric⟩, by decide, ?_⟩
      have reads : ReadsAs " 42 " (.int 42) := number?_eq_some.mp (by decide +kernel)
      have equal : Engine.Same (env.cell ⟨"books", "id"⟩) (Engine.written.ofSql (.int 42)) :=
        Engine.same_iff.mpr ⟨"42", "42", cell, rfl, by decide⟩
      exact .number reads equal
    · exact reads
        { Select.ofCollection "books" with predicates := [.isNull ⟨"books", "title"⟩ true] }
        .clickhouse [] fun _ => by decide +kernel
  · let counts : Collection := .ofFields "counts" "id" [("id", "integer")]
    let cat : Catalog := ⟨counts :: systemCollections, systemRelations⟩
    have known : cat.requireCollection "counts" = .ok counts := rfl
    have number : number? "many" = none := by decide +kernel
    obtain ⟨tests, run, -, nothing, -⟩ := predicate_dispatches known "many"
    refine ⟨cat, tests, rfl, run, nothing fun c mem asks => ?_⟩
    obtain rfl : c = ⟨"id", "counts", "integer", .numeric⟩ := List.mem_singleton.mp mem
    cases asks with
    | number reads => cases number.symm.trans (number?_eq_some.mpr reads)

/-- A column name with a backslash in front of a mark, which goes on as SQL behind the mark. -/
def breakout : String := "\\`) LIKE ? OR 1=1 -- "

/-- In clickhouse a search for a term in a column whose name has a backslash in front of a mark is
read as a comparison of another column, an alternative that always holds, and a comment. -/
theorem predicate_breaks_out :
    ∃ cat tests,
      Catalog.build [.ofFields "notes" "id" [("id", "integer"), (breakout, "text")]] [] = .ok cat ∧
      predicate cat "notes" "x" = .ok (.or tests) ∧
      let first : Predicate := .compare ⟨"notes", "id"⟩ .eq (.int 1)
      let searched : Select :=
        { Select.ofCollection "notes" with predicates := [first] ++ [.or tests] }
      let seen : String := "SELECT `notes`.* FROM `notes` WHERE `notes`.`id` = ? AND "
        ++ "lower(`notes`.`\\\\`) LIKE ? OR 1=1 "
      searched.render .clickhouse [] = (seen ++ "-- `) LIKE ?", [.int 1, .text "%x%"]) ∧
      Select.read .clickhouse [.int 1, .text "%x%"] 0 (seen ++ "-- `) LIKE ?") = none ∧
      Select.read .clickhouse [.int 1, .text "%x%"] 0 seen =
        some { Select.ofCollection "notes" with
          predicates :=
            [.or [.and [first, .like ⟨"notes", "\\"⟩ "%x%" false true], .and []]] } := by
  refine ⟨_, _, rfl, rfl, ?_⟩
  refine ⟨by decide +kernel, by rfl, by rfl⟩

end Search

end FilterSql
