import FilterSql.Proofs.Attachment
import FilterSql.Proofs.Meaning

/-!
Filters do not multiply rows.

A compiled statement joins along forward relations only, and a primary key that is unique has at
most one row with a given value, so each left join makes one environment of one
(`Engine.joinAll_eq_singleton`). Before conditions are looked at each row of the collection occurs
exactly once, hence at most once among the rows that pass (`Query.compile_selects_sublist`).
Repetitions count here: a table may hold a row twice, and then so does the result.
-/

namespace FilterSql

namespace Engine

variable {E : Engine}

/-- The joined rows of a statement, one environment for each, before conditions are looked at. -/
def joinedRows (db : E.Database) (env : E.Env) (s : Select) : List E.Env :=
  (db s.collection).flatMap fun row => joinAll db s.joins (env.bind s.collection row)

/-- The joined rows of a statement that pass its conditions. -/
def selectedRows (db : E.Database) (env : E.Env) (s : Select) : List E.Env :=
  (joinedRows db env s).filter fun joined => Truth.all (truths db joined s.predicates) = .yes

/-- The results of a statement are read off the joined rows that pass. -/
theorem results_eq_map_selectedRows (db : E.Database) (env : E.Env) (s : Select) :
    results db env s =
      (selectedRows db env s).map fun joined =>
        (s.columns.head?.map (joined s.collection)).getD none := by
  obtain ⟨collection, columns, joins, predicates, orderBy, limit, offset⟩ := s
  rfl

/-- In a table that a relation refers to no two rows have the same primary key. Rows that are nulls
there are the same as no other. -/
def Keyed (db : E.Database) (cat : Catalog) : Prop :=
  ∀ r ∈ cat.relations,
    (db r.oneCollection).Pairwise fun x y => ¬ Same (x r.onePrimary) (y r.onePrimary)

variable {db : E.Database} {cat : Catalog}

/-- A link that is joined outside of sub-selects leads to a primary key. -/
theorem Keyed.link (keyed : Keyed db cat) {root : String} {path : List String} {link : Link}
    (linked : cat.lastLink false root path = some link) :
    (db link.table).Pairwise fun x y => ¬ Same (x link.far) (y link.far) := by
  simp only [Catalog.lastLink, Option.bind_eq_some_iff] at linked
  obtain ⟨field, -, table, -, linked⟩ := linked
  obtain ⟨r, mem, rfl⟩ := Catalog.link?_false_eq_some linked
  exact keyed r mem

/-- Where no two rows have the same key, one row is behind a link: the one that matches, or the row
of nulls. -/
theorem behind_eq_singleton {link : Link}
    (keyed : (db link.table).Pairwise fun x y => ¬ Same (x link.far) (y link.far)) (near : E.Row) :
    ∃ far, behind db link near = [far] := by
  have apart := keyed.filter fun row => decide (Same (near link.near) (row link.far))
  have each : ∀ row ∈ (db link.table).filter (fun row => Same (near link.near) (row link.far)),
      Same (near link.near) (row link.far) := by
    intro row mem
    simpa using (List.mem_filter.mp mem).2
  unfold behind
  generalize (db link.table).filter (fun row => decide (Same (near link.near) (row link.far))) =
    matching at apart each
  match matching with
  | [] => exact ⟨E.nullRow, rfl⟩
  | [far] => exact ⟨far, rfl⟩
  | first :: second :: rest =>
      have same := (each first (by simp)).symm.trans (each second (by simp))
      exact absurd same ((List.pairwise_cons.mp apart).1 second (by simp))

/-- The left joins of a whole statement make one environment of one, which keeps the row that it
starts from. -/
theorem joinAll_eq_singleton (keyed : Keyed db cat) {root : String}
    {names : List String → String} {seen : List (List String)} (grown : Grown seen)
    (apart : Apart names seen)
    (linked : ∀ path ∈ seen, (cat.lastLink false root path).isSome) (env : E.Env) :
    ∃ joined, joinAll db (seen.map (cat.joinOf false root names)) env = [joined] ∧
      joined (names []) = env (names []) := by
  induction grown with
  | nil => exact ⟨env, rfl, rfl⟩
  | @snoc seen before field rest reached new ih =>
      have other := apart.ne_last new
      obtain ⟨link, last⟩ := Option.isSome_iff_exists.mp (linked (before ++ [field]) (by simp))
      obtain ⟨joined, made, start⟩ := ih apart.init fun path old => linked path (by simp [old])
      obtain ⟨far, found⟩ := behind_eq_singleton (keyed.link last)
        (joined (names (before ++ [field]).dropLast))
      refine ⟨joined.bind (names (before ++ [field])) far, ?_, ?_⟩
      · rw [List.map_append, List.map_singleton, joinAll_snoc, made, List.flatMap_singleton,
          joinOne_joinOf joined last (by simpa using other before reached), found,
          List.map_singleton]
      · rw [bind_of_ne _ _ (other [] (.inl rfl)), start]

end Engine

/-- Each row of the collection occurs exactly once among the joined rows of a compiled statement, so
it occurs at most once among those that pass its conditions. -/
theorem Query.compile_selects_sublist {q : Query} {cat : Catalog} {options : CompileOptions}
    {draws : Nat → Nat} {collection : String} {s : Select}
    (compiled : q.compile cat options draws collection = .ok s)
    {E : Engine} {db : E.Database} (keyed : Engine.Keyed db cat) (env : E.Env) :
    s.collection = collection ∧
    (Engine.joinedRows db env s).map (· collection) = db collection ∧
    ((Engine.selectedRows db env s).map (· collection)).Sublist (db collection) := by
  unfold Query.compile at compiled
  split at compiled <;> cases compiled
  next applied =>
  obtain ⟨known, c, found, contributes, -, from_root, joins, -, -⟩ := apply_spec applied
  obtain ⟨filter, plan, valid, rfl, -⟩ := contributes_plan known contributes
  have start : s.collection = collection := from_root
  have joins : s.joins = plan.seen.map (cat.joinOf false collection plan.names) := joins
  have once : ∀ row, (Engine.joinAll db s.joins (env.bind collection row)).map (· collection) =
      [row] := by
    intro row
    obtain ⟨joined, made, kept⟩ := Engine.joinAll_eq_singleton keyed valid.grown valid.apart
      valid.linked (env.bind collection row)
    rw [valid.root_name, Engine.bind_self] at kept
    rw [joins, made, List.map_singleton, kept]
  have whole : (Engine.joinedRows db env s).map (· collection) = db collection := by
    rw [Engine.joinedRows, start, List.map_flatMap]
    simp only [once, List.flatMap_singleton']
  refine ⟨start, whole, ?_⟩
  calc ((Engine.selectedRows db env s).map (· collection)).Sublist
        ((Engine.joinedRows db env s).map (· collection)) := List.filter_sublist.map _
    _ = db collection := whole

/-- One author with two books. -/
def Engine.series : Engine.texts.Database
  | "authors" => [fun column => if column = "name" then some "Ann" else some "1"]
  | "books" =>
    [ fun column => if column = "title" then some "Emma" else some "1",
      fun column => if column = "title" then some "Persuasion" else some "1" ]
  | _ => []

/-- The books whose author has a name and a book of a title. -/
def Query.byFellow : Query where
  filter := some (.object
    [("author", .object
      [ ("name", .object [("_eq", .string "Ann")]),
        ("books", .object [("title", .object [("_eq", .string "Emma")])]) ])])

theorem Engine.keyed_series : Engine.Keyed Engine.series .library := by
  intro r mem
  simp only [Catalog.library, systemRelations, List.mem_cons, List.not_mem_nil, or_false] at mem
  rcases mem with rfl | rfl | rfl | rfl | rfl <;> simp [Engine.series]

/-- The author joined to both of the books has both of them, and still each book occurs once. -/
theorem Query.compile_selects_sublist_byFellow :
    ∃ s, Query.byFellow.compile .library {} (fun _ => 0) "books" = .ok s ∧
      s.qualifiers = ["aaaaa"] ∧ Engine.Keyed Engine.series .library ∧ ∀ env,
        (Engine.joinedRows Engine.series env s).length = 2 ∧
        ((Engine.selectedRows Engine.series env s).map (· "books")).Sublist
          (Engine.series "books") := by
  have outcome : (Query.byFellow.compile .library {} (fun _ => 0) "books").toOption.map
      Select.qualifiers = some ["aaaaa"] := by decide +kernel
  cases compiled : Query.byFellow.compile .library {} (fun _ => 0) "books" with
  | error e => simp [compiled, Except.toOption] at outcome
  | ok s =>
      refine ⟨s, rfl, by simpa [compiled, Except.toOption] using outcome, Engine.keyed_series, ?_⟩
      intro env
      obtain ⟨-, whole, once⟩ := compile_selects_sublist compiled Engine.keyed_series env
      exact ⟨by simpa [Engine.series] using congrArg List.length whole, once⟩

end FilterSql
