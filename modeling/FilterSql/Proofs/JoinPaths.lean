import FilterSql.Proofs.Plan
import Mathlib.Data.List.Infix

/-!
One join for each relation path.

`Filter.hopPaths` lists the hops of the fields of a filter, each from the collection that the filter
is on, in the order of the document. Of each of them the prefixes up to the first hop that is none,
or that is left to a sub-select, are joined (`Catalog.prefixes`). `Filter.compile_joins_once` says
that a compiled filter joins each of these prefixes once, in the order in which they are met first,
that the walk which makes the predicates adds none, and that predicates and joins refer to a hop
sequence by a name of its own.
-/

namespace FilterSql

namespace Filter

mutual

/-- The hops of the fields of a filter that stands behind hops, in order. What is inside a
disjunction with an empty filter in it is left out. -/
def hopPaths (before : List String) : List Entry → List (List String)
  | [] => []
  | e :: rest => hopPathsEntry before e ++ hopPaths before rest

/-- The hops of an entry; the last segment of a comparison is a column and no hop. -/
def hopPathsEntry (before : List String) : Entry → List (List String)
  | .group op children =>
    if Entry.shortCircuits op children then [] else hopPathsAll before children
  | .leaf path _ _ => [before ++ path.dropLast]
  | .nested path body => (before ++ path) :: hopPaths (before ++ path) body

/-- The hops of combined filters. -/
def hopPathsAll (before : List String) : List (List Entry) → List (List String)
  | [] => []
  | child :: rest => hopPaths before child ++ hopPathsAll before rest

end

mutual

theorem isPrefix_hopPaths (before : List String) : ∀ (entries : List Entry),
    ∀ hops ∈ hopPaths before entries, before <+: hops
  | [], _, mem => by cases mem
  | e :: rest, hops, mem => by
      rcases List.mem_append.mp mem with first | later
      · exact isPrefix_hopPathsEntry before e hops first
      · exact isPrefix_hopPaths before rest hops later

theorem isPrefix_hopPathsEntry (before : List String) : ∀ (e : Entry),
    ∀ hops ∈ hopPathsEntry before e, before <+: hops
  | .group op children, hops, mem => by
      simp only [hopPathsEntry] at mem
      split at mem
      · cases mem
      · exact isPrefix_hopPathsAll before children hops mem
  | .leaf path _ _, hops, mem => by
      rw [List.mem_singleton.mp mem]
      exact List.prefix_append _ _
  | .nested path body, hops, mem => by
      rcases List.mem_cons.mp mem with rfl | inside
      · exact List.prefix_append _ _
      · exact (List.prefix_append _ _).trans (isPrefix_hopPaths (before ++ path) body hops inside)

theorem isPrefix_hopPathsAll (before : List String) : ∀ (children : List (List Entry)),
    ∀ hops ∈ hopPathsAll before children, before <+: hops
  | [], _, mem => by cases mem
  | child :: rest, hops, mem => by
      rcases List.mem_append.mp mem with first | later
      · exact isPrefix_hopPaths before child hops first
      · exact isPrefix_hopPathsAll before rest hops later

end

end Filter

namespace Catalog

variable (cat : Catalog) (joinsReverse : Bool)

/-- Hops up to the first one that is none, or that is not joined. -/
def joinable (collection : String) : List String → List String
  | [] => []
  | field :: rest =>
    match cat.link? joinsReverse collection field with
    | some link => field :: joinable link.table rest
    | none => []

/-- The prefixes of hops that are joined, the shortest one first. -/
def prefixes (collection : String) (hops : List String) : List (List String) :=
  (cat.joinable joinsReverse collection hops).inits.tail

/-- The hop sequences that a filter joins, in the order in which they are met first. -/
def joinedPaths (collection : String) (filter : Filter) : List (List String) :=
  ((Filter.hopPaths [] filter).flatMap (cat.prefixes joinsReverse collection)).eraseDups

variable {cat joinsReverse}

theorem joinable_append {collection table : String} {hops : List String}
    (arrives : cat.arrival joinsReverse collection hops = some table) (further : List String) :
    cat.joinable joinsReverse collection (hops ++ further) =
      hops ++ cat.joinable joinsReverse table further := by
  induction hops generalizing collection with
  | nil =>
      cases arrives
      rfl
  | cons field rest ih =>
      obtain ⟨link, linked, arrives⟩ := Option.bind_eq_some_iff.mp arrives
      simp [joinable, linked, ih arrives]

/-- A path that is not joined to its end is not joined any further. -/
theorem joinable_append_of_stopped {here : Place} {start : Nat} {hops : List String}
    (stopped : ∀ there, cat.course joinsReverse start here hops ≠ .reached there)
    (further : List String) :
    cat.joinable joinsReverse here.collection (hops ++ further) =
      cat.joinable joinsReverse here.collection hops := by
  induction hops generalizing here start with
  | nil => exact absurd rfl (stopped here)
  | cons field rest ih =>
      simp only [course] at stopped
      simp only [List.cons_append, joinable]
      cases linked : cat.link? joinsReverse here.collection field with
      | none => rfl
      | some link =>
          simp only [linked] at stopped
          exact congrArg (field :: ·) (@ih (here.next field link) _ stopped)

/-- A hop that is joined goes before the prefixes that are joined behind it. -/
theorem prefixes_cons {collection field : String} {link : Link}
    (linked : cat.link? joinsReverse collection field = some link) (rest : List String) :
    cat.prefixes joinsReverse collection (field :: rest) =
      [field] :: (cat.prefixes joinsReverse link.table rest).map (field :: ·) := by
  have empty_first : ∀ hops : List String, hops.inits = [] :: hops.inits.tail := by
    intro hops
    cases hops <;> simp
  simp only [prefixes, joinable, linked, List.inits_cons, List.tail_cons]
  rw [empty_first (cat.joinable joinsReverse link.table rest)]
  simp

/-- The hop sequences that a walk along a path joins are the prefixes of the path. -/
theorem joined_eq_prefixes (here : Place) (hops : List String) :
    cat.joined joinsReverse here hops =
      (cat.prefixes joinsReverse here.collection hops).map (here.hops ++ ·) := by
  induction hops generalizing here with
  | nil => rfl
  | cons field rest ih =>
      cases linked : cat.link? joinsReverse here.collection field with
      | none => simp [joined, prefixes, joinable, linked]
      | some link =>
          simp only [joined, prefixes_cons linked, linked, ih (here.next field link)]
          simp [Place.next]

/-- The prefixes of a path behind a place are those that lead to the place, and then those that a
walk joins from there. -/
theorem prefixes_append {root : String} {here : Place}
    (located : cat.Locates joinsReverse root here) (hops : List String) :
    cat.prefixes joinsReverse root (here.hops ++ hops) =
      cat.prefixes joinsReverse root here.hops ++ cat.joined joinsReverse here hops := by
  have all := joinable_append located []
  rw [List.append_nil, joinable, List.append_nil] at all
  have some : here.hops.inits ≠ [] := by simp [← List.length_eq_zero_iff]
  rw [joined_eq_prefixes, prefixes, prefixes, prefixes, joinable_append located, all,
    List.inits_append, List.tail_append_of_ne_nil some]

end Catalog

/-! ### The order in which prefixes are met -/

theorem foldl_note_of_subset {seen paths : List (List String)} (known : paths ⊆ seen) :
    paths.foldl note seen = seen := by
  induction paths with
  | nil => rfl
  | cons path rest ih =>
      rw [List.cons_subset] at known
      rw [List.foldl_cons, note_of_mem known.1, ih known.2]

/-- What is seen in the end is what was met, without repetitions. -/
theorem foldl_note_eq_eraseDups (paths : List (List String)) :
    paths.foldl note [] = paths.eraseDups := by
  induction paths using List.reverseRecOn with
  | nil => rfl
  | append_singleton paths path ih =>
      rw [List.foldl_append, List.foldl_cons, List.foldl_nil, ih, List.eraseDups_append, note]
      by_cases mem : path ∈ paths
      · rw [if_pos (List.mem_eraseDups.mpr mem)]
        simp [List.removeAll, mem]
      · rw [if_neg (by simpa [List.mem_eraseDups] using mem)]
        simp [List.removeAll, mem, List.eraseDups_cons]

namespace Catalog

variable {cat : Catalog} {joinsReverse : Bool} {root : String}

mutual

/-- The walks of a filter meet the prefixes of its hops, in the same order but for repetitions. -/
theorem visits_prefixes : ∀ (entries : List Entry) {here : Place} {seen : List (List String)},
    cat.Locates joinsReverse root here → cat.prefixes joinsReverse root here.hops ⊆ seen →
    (cat.visits joinsReverse here entries).foldl note seen =
      ((Filter.hopPaths here.hops entries).flatMap (cat.prefixes joinsReverse root)).foldl note seen
  | [], _, _, _, _ => rfl
  | e :: rest, here, seen, located, known => by
      have later := List.Subset.trans known
        (subset_foldl_note seen (cat.visitsEntry joinsReverse here e))
      rw [visits, Filter.hopPaths, List.flatMap_append, List.foldl_append, List.foldl_append,
        visits_prefixes rest located later, visitsEntry_prefixes e located known]

theorem visitsEntry_prefixes : ∀ (e : Entry) {here : Place} {seen : List (List String)},
    cat.Locates joinsReverse root here → cat.prefixes joinsReverse root here.hops ⊆ seen →
    (cat.visitsEntry joinsReverse here e).foldl note seen =
      ((Filter.hopPathsEntry here.hops e).flatMap (cat.prefixes joinsReverse root)).foldl note seen
  | .group op children, here, seen, located, known => by
      simp only [visitsEntry, Filter.hopPathsEntry]
      split
      · rfl
      · exact visitsAll_prefixes children located known
  | .leaf path _ _, here, seen, located, known => by
      rw [visitsEntry, Filter.hopPathsEntry, List.flatMap_singleton, prefixes_append located,
        List.foldl_append, foldl_note_of_subset known]
  | .nested path body, here, seen, located, known => by
      rw [visitsEntry, Filter.hopPathsEntry, List.flatMap_cons, prefixes_append located,
        List.append_assoc, List.foldl_append, List.foldl_append, foldl_note_of_subset known,
        List.foldl_append]
      -- what leads to the end of the path is seen before the filter behind it
      have led : cat.prefixes joinsReverse root (here.hops ++ path) ⊆
          (cat.joined joinsReverse here path).foldl note seen := by
        rw [prefixes_append located]
        refine List.append_subset.mpr ⟨List.Subset.trans known (subset_foldl_note _ _), ?_⟩
        intro hops mem
        exact mem_foldl_note mem
      split
      · next there reached =>
          have behind := hops_of_course_reached reached
          rw [← behind] at led ⊢
          exact visits_prefixes body (located.course reached) led
      · next stopped =>
          refine (foldl_note_of_subset ?_).symm
          intro hops mem
          obtain ⟨further, inside, met⟩ := List.mem_flatMap.mp mem
          obtain ⟨more, rfl⟩ := Filter.isPrefix_hopPaths _ body further inside
          refine led ?_
          rwa [prefixes, List.append_assoc, joinable_append located,
            joinable_append_of_stopped stopped, ← joinable_append located] at met

theorem visitsAll_prefixes : ∀ (children : List (List Entry)) {here : Place}
    {seen : List (List String)},
    cat.Locates joinsReverse root here → cat.prefixes joinsReverse root here.hops ⊆ seen →
    (cat.visitsAll joinsReverse here children).foldl note seen =
      ((Filter.hopPathsAll here.hops children).flatMap (cat.prefixes joinsReverse root)).foldl
        note seen
  | [], _, _, _, _ => rfl
  | child :: rest, here, seen, located, known => by
      have later := List.Subset.trans known
        (subset_foldl_note seen (cat.visits joinsReverse here child))
      rw [visitsAll, Filter.hopPathsAll, List.flatMap_append, List.foldl_append, List.foldl_append,
        visitsAll_prefixes rest located later, visits_prefixes child located known]

end

/-- A filter joins what its walks visit, without repetitions. -/
theorem foldl_note_visits (root : String) (filter : Filter) :
    (cat.visits joinsReverse (.root root) filter).foldl note [] =
      cat.joinedPaths joinsReverse root filter := by
  rw [visits_prefixes filter (locates_root root) (by simp [Place.root, prefixes, joinable]),
    foldl_note_eq_eraseDups]
  rfl

theorem nil_notMem_joinedPaths (cat : Catalog) (filter : Filter) :
    [] ∉ cat.joinedPaths joinsReverse root filter := by
  intro mem
  rw [joinedPaths, List.mem_eraseDups, List.mem_flatMap] at mem
  obtain ⟨hops, -, mem⟩ := mem
  rw [prefixes] at mem
  generalize cat.joinable joinsReverse root hops = joined at mem
  cases joined <;> simp at mem

theorem mem_joinedPaths {filter : Filter} {path : List String} :
    path ∈ cat.joinedPaths joinsReverse root filter ↔
      path ∈ cat.visits joinsReverse (.root root) filter := by
  rw [← foldl_note_visits, foldl_note_eq_eraseDups, List.mem_eraseDups]

end Catalog

namespace Filter

variable {cat : Catalog} {policy : PathPolicy} {subQuery : Bool} {collection : String}
  {filter : Filter} {t t' : AliasTable} {c : CompiledFilter}

/-- The scope that a filter is compiled in. -/
def scopeOf (subQuery : Bool) (t : AliasTable) : Scope :=
  if subQuery then ⟨t.nextScope, true⟩ else .root

/-- The table that the walks of a filter begin with. -/
def opened (subQuery : Bool) (t : AliasTable) : AliasTable :=
  if subQuery then t.newScope.2 else t

/-- What is done with filters behind reverse hops. -/
def delegateOf (cat : Catalog) (policy : PathPolicy) (subQuery : Bool) : Option Compile.Delegate :=
  if subQuery then none else some (membership cat policy)

/-- Compiling a filter is compiling it in its scope, on a collection of the catalog. -/
theorem compile_eq_ok (compiled : filter.compile cat policy subQuery collection t = (.ok c, t')) :
    collection ∈ cat.names ∧
      Compile.inScope ⟨cat, policy, scopeOf subQuery t⟩ (delegateOf cat policy subQuery) collection
        filter (opened subQuery t) = (.ok c, t') := by
  cases subQuery with
  | false =>
      obtain ⟨_, t₁, required, ran⟩ := Step.bind_eq_ok compiled
      obtain ⟨known, rfl⟩ := Step.ofExcept_eq_ok required
      exact ⟨Catalog.mem_names_of_requireCollection known, ran⟩
  | true =>
      obtain ⟨_, t₁, required, more⟩ := Step.bind_eq_ok compiled
      obtain ⟨known, rfl⟩ := Step.ofExcept_eq_ok required
      obtain ⟨id, t₂, opened, ran⟩ := Step.bind_eq_ok more
      cases opened
      exact ⟨Catalog.mem_names_of_requireCollection known, ran⟩

/-- Reverse hops become tests against the statements of sub-selects. -/
theorem serves_delegateOf (cat : Catalog) (policy : PathPolicy) (subQuery : Bool)
    (t : AliasTable) :
    Compile.Serves cat.names ⟨cat, policy, scopeOf subQuery t⟩ (SubselectOf cat policy)
      (delegateOf cat policy subQuery) := by
  cases subQuery with
  | false =>
      intro there r child t t' p sound ran
      exact membership_spec sound ran
  | true => rfl

/-- A table in use has nothing to show for a scope that is opened now. -/
theorem tracks_opened {reserved : List String} (used : t.InUse reserved)
    (reserves : cat.names ⊆ reserved)
    (unused : subQuery = false → ∀ anchor field,
      t.issued[(⟨Scope.root.id, anchor, field⟩ : AliasKey)]? = none)
    (known : collection ∈ cat.names) :
    Walk.Tracks cat cat.names (opened subQuery t) (scopeOf subQuery t) collection
      ⟨opened subQuery t, []⟩ [] := by
  have sound := used.sound.mono reserves
  cases subQuery with
  | false => exact Compile.tracks_unused cat .root sound known used.root_opened (unused rfl)
  | true =>
      refine Compile.tracks_unused cat _ sound.newScope known (Nat.lt_succ_self _) ?_
      intro anchor field
      by_contra issued
      obtain ⟨b, issued⟩ := Option.ne_none_iff_exists'.mp issued
      exact Nat.lt_irrefl _ (sound.opened issued)

/-- A compiled filter joins each prefix of its hops once, in the order in which they are met first,
and all joins are made by the first walk. Two hop sequences have the same name only if they are
equal; the joins and the predicates refer to hop sequences by these names, which are those that the
table gives to them. -/
theorem compile_joins_once {reserved : List String} (used : t.InUse reserved)
    (reserves : cat.names ⊆ reserved)
    (unused : subQuery = false → ∀ anchor field,
      t.issued[(⟨Scope.root.id, anchor, field⟩ : AliasKey)]? = none)
    (compiled : filter.compile cat policy subQuery collection t = (.ok c, t')) :
    let frame : Compile.Frame := ⟨cat, policy, scopeOf subQuery t⟩
    let paths := cat.joinedPaths subQuery collection filter
    c.joins =
        (Compile.discover frame (.root collection) filter ⟨opened subQuery t, []⟩).joins ∧
      ∃ (names : List String → String) (ps : List Predicate),
        t'.Names frame.scope.id collection paths names ∧
        (∀ p q, p = [] ∨ p ∈ paths → q = [] ∨ q ∈ paths → (names p = names q ↔ p = q)) ∧
        (∀ path ∈ paths, (cat.lastLink subQuery collection path).isSome) ∧
        c = ⟨paths.map (cat.joinOf subQuery collection names), Compile.conjunction ps⟩ ∧
        Compile.Emits frame names paths (SubselectOf cat policy) (.root collection)
          (.entries filter) ps := by
  intro frame paths
  obtain ⟨known, ran⟩ := compile_eq_ok compiled
  have start := tracks_opened used reserves unused known
  have direction : (scopeOf subQuery t).joinsReverse = subQuery := by cases subQuery <;> rfl
  obtain ⟨seen, ps, seen_eq, tracks, emits, rfl, opens⟩ :=
    Compile.inScope_walks (serves_delegateOf cat policy subQuery t) start ran rfl
  have same : seen = paths := by
    rw [seen_eq, Catalog.foldl_note_visits]
    simp only [paths, direction]
  rw [same] at tracks emits
  refine ⟨rfl, _, ps, ?_, ?_, ?_, ?_, emits⟩
  · intro path mem
    rw [opens.name?_eq tracks.opened]
    exact tracks.names path mem
  · intro p q memP memQ
    constructor
    · exact tracks.apart p q memP memQ
    · rintro rfl
      rfl
  · simpa only [direction] using tracks.linked
  · rw [tracks.joins_eq]
    simp only [direction]

/-- The revisions of what users of a role did. The user is asked for three times, once where it does
not matter. -/
def byRole : Filter :=
  [ .leaf ["activity", "user", "role", "name"] .eq (.string "editor"),
    .group .or [[], [.leaf ["activity", "user", "email"] .isNull .null]],
    .nested ["activity", "user"]
      [.leaf ["role", "name"] .neq (.string "guest"), .leaf ["email"] .notNull .null] ]

/-- A table that never gives out one more name, and in which a scope was opened before. -/
def warm : AliasTable :=
  (AliasTable.fresh .sequential (fun _ => 0) ("aaaaa" :: Catalog.library.names)).newScope.2

/-- Each of the three hops is joined once. -/
theorem compile_joins_once_byRole :
    ∃ c t', byRole.compile .library .ignore false "system_revisions" warm = (.ok c, t') ∧
      c.joins.map (·.qualifier) = ["aaaab", "aaaac", "aaaad"] ∧
      c.joins = (Compile.discover ⟨.library, .ignore, .root⟩ (.root "system_revisions") byRole
        ⟨warm, []⟩).joins ∧
      ∃ (names : List String → String) (ps : List Predicate),
        t'.Names 0 "system_revisions"
          [["activity"], ["activity", "user"], ["activity", "user", "role"]] names ∧
        c = ⟨[["activity"], ["activity", "user"], ["activity", "user", "role"]].map
          (Catalog.library.joinOf false "system_revisions" names), Compile.conjunction ps⟩ := by
  have outcome : (byRole.compile .library .ignore false "system_revisions" warm).1.toOption.map
      (·.joins.map (·.qualifier)) = some ["aaaab", "aaaac", "aaaad"] := by decide +kernel
  have paths : Catalog.library.joinedPaths false "system_revisions" byRole =
      [["activity"], ["activity", "user"], ["activity", "user", "role"]] := by decide +kernel
  rcases compiled : byRole.compile .library .ignore false "system_revisions" warm with ⟨_ | c, t'⟩
  · simp [compiled, Except.toOption] at outcome
  · have used : warm.InUse ("aaaaa" :: Catalog.library.names) := .newScope (.fresh _ _)
    have unused : ∀ anchor field,
        warm.issued[(⟨Scope.root.id, anchor, field⟩ : AliasKey)]? = none := by
      intro anchor field
      exact Std.TreeMap.getElem?_emptyc
    have once := compile_joins_once used (List.subset_cons_self _ _) (fun _ => unused) compiled
    obtain ⟨first, names, ps, named, -, -, eq, -⟩ := once
    rw [paths] at named eq
    exact ⟨c, t', rfl, by simpa [compiled, Except.toOption] using outcome, first, names, ps, named,
      eq⟩

end Filter

end FilterSql
