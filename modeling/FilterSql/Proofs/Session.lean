import FilterSql.Proofs.Aftermath
import FilterSql.Proofs.JoinPaths
import FilterSql.Proofs.Scoping

/-!
Several filters compiled one after the other with one table.

A hop that was given an alias is not joined again, so each of the calls relies on the joins of those
before it. A call that fails returns no joins, and yet its first walk has given out aliases. Whether
the joins returned cover the predicates is therefore a matter of who meets a hop sequence first:
they do exactly where no predicate refers to the end of a hop sequence that a failing call was the
first to meet (`Filter.session_joined_iff`). What is known after some calls (`Filter.Held`) is kept
by one more call, failed or not (`Filter.Held.call`).
-/

namespace FilterSql

/-! ### The places that predicates refer to -/

namespace Catalog

variable (cat : Catalog) (joinsReverse : Bool)

mutual

/-- The hop sequences to the places whose columns the predicates of a filter refer to, sub-selects
left out: where comparisons stand, and in front of reverse hops. -/
def consults (here : Place) : List Entry → List (List String)
  | [] => []
  | e :: rest => consultsEntry here e ++ consults here rest

/-- The hop sequences of an entry. A comparison without a path compares nothing. -/
def consultsEntry (here : Place) : Entry → List (List String)
  | .group op children =>
    if Entry.shortCircuits op children then [] else consultsAll here children
  | .leaf path _ _ =>
    if path.isEmpty then []
    else match cat.course joinsReverse 0 here path.dropLast with
      | .reached there => [there.hops]
      | .deferred there _ _ => [there.hops]
      | .unresolved _ _ => []
  | .nested path body =>
    match cat.course joinsReverse 0 here path with
    | .reached there => consults there body
    | .deferred there _ _ => [there.hops]
    | .unresolved _ _ => []

/-- The hop sequences of combined filters. -/
def consultsAll (here : Place) : List (List Entry) → List (List String)
  | [] => []
  | child :: rest => consults here child ++ consultsAll here rest

end

/-- The hop sequences of a part of a filter. -/
def consultsPart (here : Place) : Part → List (List String)
  | .entries entries => cat.consults joinsReverse here entries
  | .entry e => cat.consultsEntry joinsReverse here e
  | .children children => cat.consultsAll joinsReverse here children

end Catalog

namespace Predicate

/-- The names that qualify the columns of conditions, those of the statements inside left out. -/
def tables (ps : List Predicate) : List String := (columnsAll ps).map (·.table)

@[simp] theorem tables_nil : tables [] = [] := rfl

@[simp] theorem tables_append (ps qs : List Predicate) :
    tables (ps ++ qs) = tables ps ++ tables qs := by
  simp [tables]

@[simp] theorem tables_group (op : Connective) (items qs : List Predicate) :
    tables (group op items :: qs) = tables items ++ tables qs := by
  simp [tables, columnsAll]

@[simp] theorem tables_inSelect (column : ColumnRef) (s : Select) :
    tables [.inSelect column s] = [column.table] := rfl

end Predicate

namespace Compile

variable {f : Frame} {names : List String → String} {seen : List (List String)}
  {sub : Relation → Filter → Select → Prop}

/-- A comparison refers to the place where it stands. -/
theorem tables_emitLeaf {start : String} {there : Anchor} {path : List String}
    {operator : Operator} {operand : Json} {ps : List Predicate}
    (made : f.emitLeaf start there path operator operand = .ok ps) (q : String) :
    q ∈ Predicate.tables ps ↔ path ≠ [] ∧ q = there.qualifier := by
  rcases emitLeaf_eq_ok made with ⟨rfl, rfl⟩ | ⟨column, p, ended, compared, rfl⟩
  · simp
  · obtain ⟨test, isTest, rfl, -⟩ := Leaf.predicate_isTest compared
    have further : path ≠ [] := by
      rintro rfl
      cases ended
    simp only [Predicate.tables, Predicate.columnsAll, List.append_nil, List.mem_map]
    constructor
    · rintro ⟨c, mem, rfl⟩
      rw [isTest.columns _ c mem]
      exact ⟨further, rfl⟩
    · rintro ⟨-, rfl⟩
      exact ⟨_, isTest.mem_columns _, rfl⟩

/-- The predicates of a part of a filter refer to the places that it consults, and to no others. -/
theorem Emits.mem_tables {here : Place} {part : Part} {ps : List Predicate}
    (emits : Emits f names seen sub here part ps) (q : String) :
    q ∈ Predicate.tables ps ↔
      q ∈ (f.catalog.consultsPart f.scope.joinsReverse here part).map names := by
  induction emits with
  | nil | done => simp [Catalog.consultsPart, Catalog.consults, Catalog.consultsAll]
  | cons _ _ ih₁ ih₂ =>
      rw [Predicate.tables_append, List.mem_append, ih₁, ih₂]
      simp only [Catalog.consultsPart, Catalog.consults, List.map_append, List.mem_append]
  | skipped short => simp [Catalog.consultsPart, Catalog.consultsEntry, short]
  | @group _ _ _ items long _ ih =>
      simp only [Catalog.consultsPart, Catalog.consultsEntry, long, Bool.false_eq_true, if_false]
      rw [← Catalog.consultsPart, ← ih]
      cases items <;> simp
  | @leaf _ there path _ _ _ led _ made =>
      rw [tables_emitLeaf made]
      by_cases further : path = []
      · simp [Catalog.consultsPart, Catalog.consultsEntry, further]
      · simp [Catalog.consultsPart, Catalog.consultsEntry, further, led, Place.anchor]
  | @leafDeferred _ there path _ _ _ _ _ led _ _ =>
      have further : path ≠ [] := by
        rintro rfl
        cases led
      simp [Catalog.consultsPart, Catalog.consultsEntry, further, led, Place.anchor,
        Anchor.column]
  | leafUnresolved led _ =>
      simp [Catalog.consultsPart, Catalog.consultsEntry, led]
  | nested led _ ih =>
      rw [ih]
      simp only [Catalog.consultsPart, Catalog.consultsEntry, led]
  | nestedDeferred led stood selected =>
      simp [Catalog.consultsPart, Catalog.consultsEntry, led, Place.anchor, Anchor.column]
  | nestedUnresolved led _ =>
      simp [Catalog.consultsPart, Catalog.consultsEntry, led]
  | @child _ _ _ ps items _ _ ih₁ ih₂ =>
      simp only [Catalog.consultsPart, Catalog.consultsAll, List.map_append, List.mem_append]
      rw [← Catalog.consultsPart, ← Catalog.consultsPart, ← ih₁, ← ih₂]
      cases ps <;> simp

/-- The places that a filter consults were reached. -/
theorem Emits.consults_seen {here : Place} {part : Part} {ps : List Predicate}
    (emits : Emits f names seen sub here part ps) :
    ∀ path ∈ f.catalog.consultsPart f.scope.joinsReverse here part, path = [] ∨ path ∈ seen := by
  induction emits with
  | nil | done => simp [Catalog.consultsPart, Catalog.consults, Catalog.consultsAll]
  | cons _ _ ih₁ ih₂ =>
      intro path mem
      exact (List.mem_append.mp mem).elim (ih₁ path) (ih₂ path)
  | skipped short => simp [Catalog.consultsPart, Catalog.consultsEntry, short]
  | group long _ ih =>
      simp only [Catalog.consultsPart, Catalog.consultsEntry, long, Bool.false_eq_true, if_false]
      exact ih
  | leaf led stood _ | leafDeferred led stood _ =>
      intro path mem
      simp only [Catalog.consultsPart, Catalog.consultsEntry, led] at mem
      split at mem
      · cases mem
      · rwa [List.mem_singleton.mp mem]
  | leafUnresolved led _ => simp [Catalog.consultsPart, Catalog.consultsEntry, led]
  | nested led _ ih =>
      simp only [Catalog.consultsPart, Catalog.consultsEntry, led]
      exact ih
  | nestedDeferred led stood _ =>
      simpa [Catalog.consultsPart, Catalog.consultsEntry, led] using stood
  | nestedUnresolved led _ => simp [Catalog.consultsPart, Catalog.consultsEntry, led]
  | child _ _ ih₁ ih₂ =>
      intro path mem
      exact (List.mem_append.mp mem).elim (ih₁ path) (ih₂ path)

end Compile

/-! ### Calls -/

/-- One of several compilations that share a table: a filter, and what it was compiled to. -/
structure Call where
  filter : Filter
  outcome : Except CompileError CompiledFilter

namespace Call

/-- Whether a call returned a compiled filter. -/
def succeeds (call : Call) : Bool :=
  match call.outcome with
  | .ok _ => true
  | .error _ => false

/-- The aliases of the joins that a call returned, none if it failed. -/
def aliases (call : Call) : List String :=
  match call.outcome with
  | .ok compiled => compiled.joins.map (·.qualifier)
  | .error _ => []

/-- The names that qualify the columns of the predicate that a call returned, those of the
sub-selects inside left out. -/
def qualifiers (call : Call) : List String :=
  match call.outcome with
  | .ok compiled => Predicate.tables compiled.predicate.toList
  | .error _ => []

theorem qualifiers_of_fails (call : Call) (fails : ¬ call.succeeds) : call.qualifiers = [] := by
  obtain ⟨filter, e | c⟩ := call
  · rfl
  · exact absurd rfl fails

theorem qualifiers_ok (filter : Filter) (c : CompiledFilter) :
    qualifiers ⟨filter, .ok c⟩ = Predicate.tables c.predicate.toList := rfl

/-- The predicate of a call refers to the places that its filter consults, which were reached. -/
def Refers (cat : Catalog) (collection : String) (w : Walk) (seen : List (List String))
    (call : Call) : Prop :=
  call.succeeds →
    (∀ path ∈ cat.consults false (.root collection) call.filter, path = [] ∨ path ∈ seen) ∧
    ∀ q, q ∈ call.qualifiers ↔
      q ∈ (cat.consults false (.root collection) call.filter).map (w.aliases.naming 0 collection)

end Call

namespace Filter

/-- Filters compiled one after the other for whole statements on one collection. A call leaves its
table to the next one, also when it fails. -/
def session (cat : Catalog) (policy : PathPolicy) (collection : String) :
    List Filter → AliasTable → List Call
  | [], _ => []
  | filter :: rest, t =>
    let (outcome, t) := filter.compile cat policy false collection t
    ⟨filter, outcome⟩ :: session cat policy collection rest t

/-- The predicates of calls refer to the collection and to joins that were returned by the same call
or by an earlier one. -/
def Covered (collection : String) (calls : List Call) : Prop :=
  ∀ before call after, calls = before ++ call :: after →
    ∀ q ∈ call.qualifiers, q = collection ∨ ∃ source ∈ before ++ [call], q ∈ source.aliases

/-- The first of some calls whose filter joins a hop sequence. -/
def firstOn (cat : Catalog) (collection : String) (path : List String) (calls : List Call) :
    Option Call :=
  calls.find? fun call => (cat.joinedPaths false collection call.filter).contains path

theorem firstOn_nil (cat : Catalog) (collection : String) (calls : List Call) :
    firstOn cat collection [] calls = none := by
  simp [firstOn, cat.nil_notMem_joinedPaths]

theorem firstOn_append (cat : Catalog) (collection : String) (path : List String)
    (earlier later : List Call) :
    firstOn cat collection path (earlier ++ later) =
      (firstOn cat collection path earlier).or (firstOn cat collection path later) :=
  List.find?_append

/-- What is known after some calls, whose table is that of a walk over all their filters: the hop
sequences seen are those that the filters join, and of these the aliases that were returned are the
ones of which the first call succeeded. -/
structure Held (cat : Catalog) (base : AliasTable) (collection : String) (past : List Call)
    (w : Walk) (seen : List (List String)) : Prop where
  tracks : w.Tracks cat cat.names base .root collection seen
  met : ∀ path, path ∈ seen ↔
    ∃ call ∈ past, path ∈ cat.joinedPaths false collection call.filter
  returned : ∀ a, (∃ call ∈ past, a ∈ call.aliases) ↔
    ∃ path ∈ seen, a = w.aliases.naming 0 collection path ∧
      ∀ first ∈ firstOn cat collection path past, first.succeeds

section Session

variable {cat : Catalog} {policy : PathPolicy} {collection : String} {base : AliasTable}
  {past : List Call} {w : Walk} {seen : List (List String)}

/-- Of a hop sequence that was not seen before, the first call is one that comes later. -/
theorem Held.firstOn_of_new (held : Held cat base collection past w seen) {path : List String}
    (new : path ∉ seen) {call : Call}
    (met : path ∈ cat.joinedPaths false collection call.filter) :
    firstOn cat collection path (past ++ [call]) = some call := by
  have none : firstOn cat collection path past = none := by
    rw [firstOn, List.find?_eq_none]
    intro earlier mem met
    exact new ((held.met path).mpr ⟨earlier, mem, by simpa using met⟩)
  have last : firstOn cat collection path [call] = some call := by simp [firstOn, met]
  rw [firstOn_append, none, last, Option.none_or]

/-- Of a hop sequence that was seen before, the first call is one of those before. -/
theorem Held.firstOn_of_old (held : Held cat base collection past w seen) {path : List String}
    (old : path ∈ seen) (later : List Call) :
    firstOn cat collection path (past ++ later) = firstOn cat collection path past := by
  obtain ⟨call, mem, met⟩ := (held.met path).mp old
  have found : (firstOn cat collection path past).isSome :=
    List.find?_isSome.mpr ⟨call, mem, by simpa using met⟩
  rw [firstOn_append]
  exact Option.or_of_isSome found

/-- Compiling a filter on a collection that is there. -/
theorem compile_eq_inScope (known : collection ∈ cat.names) (filter : Filter) (t : AliasTable) :
    filter.compile cat policy false collection t =
      Compile.inScope ⟨cat, policy, .root⟩ (some (membership cat policy)) collection filter t := by
  obtain ⟨c, required⟩ := Catalog.requireCollection_of_mem known
  simp only [compile, compileOuter, required]
  rfl

/-- One more filter compiled after others, which may fail: the hop sequences that it is the first to
join are seen afterwards, and a compilation that succeeds returns their joins. -/
theorem compile_after (known : collection ∈ cat.names)
    (tracks : w.Tracks cat cat.names base .root collection seen) {filter : Filter}
    {outcome : Except CompileError CompiledFilter} {t' : AliasTable}
    (ran : filter.compile cat policy false collection w.aliases = (outcome, t')) :
    ∃ (w' : Walk) (new : List (List String)), t' = w'.aliases ∧
      (∀ path, path ∈ new ↔ path ∈ cat.joinedPaths false collection filter ∧ path ∉ seen) ∧
      w'.Tracks cat cat.names base .root collection (seen ++ new) ∧
      (∀ path ∈ seen, w'.aliases.naming 0 collection path = w.aliases.naming 0 collection path) ∧
      ∀ c, outcome = .ok c →
        c.joins.map (·.qualifier) = new.map (w'.aliases.naming 0 collection) ∧
        ∃ ps, c.predicate = Compile.conjunction ps ∧
          Compile.Emits ⟨cat, policy, .root⟩ (w'.aliases.naming 0 collection) (seen ++ new)
            (SubselectOf cat policy) (.root collection) (.entries filter) ps := by
  let f : Compile.Frame := ⟨cat, policy, .root⟩
  have serves : Compile.Serves cat.names f (SubselectOf cat policy)
      (some (membership cat policy)) := fun _ _ _ _ _ _ => membership_spec
  obtain ⟨w', after, tracks', names, made⟩ :=
    Compile.inScope_after (f := f) serves (settles_membership cat policy) tracks filter
  obtain ⟨new, more, isNew⟩ := foldl_note_eq_append seen
    (f.catalog.visits f.scope.joinsReverse (.root collection) filter)
  rw [compile_eq_inScope known] at ran
  rw [ran] at after made
  rw [more] at tracks' made
  refine ⟨w', new, after, ?_, tracks', fun path mem => names path (.inr mem), ?_⟩
  · intro path
    rw [Catalog.mem_joinedPaths]
    exact isNew path
  · intro c compiled
    obtain ⟨joins, emits⟩ := made c compiled
    refine ⟨?_, emits⟩
    have old : seen.map (w'.aliases.naming f.scope.id collection) = w.joins.map (·.qualifier) := by
      rw [tracks.map_qualifier]
      exact List.map_congr_left fun path mem => names path (.inr mem)
    have all := tracks'.map_qualifier
    rw [joins, List.map_append, List.map_append, old] at all
    exact List.append_cancel_left all

/-- One more call, which may fail, keeps what is known, and its predicate refers to places whose hop
sequences are seen then. -/
theorem Held.call (held : Held cat base collection past w seen) (known : collection ∈ cat.names)
    (filter : Filter) {outcome : Except CompileError CompiledFilter} {t' : AliasTable}
    (ran : filter.compile cat policy false collection w.aliases = (outcome, t')) :
    ∃ w' more, t' = w'.aliases ∧
      Held cat base collection (past ++ [⟨filter, outcome⟩]) w' more ∧
      Call.Refers cat collection w' more ⟨filter, outcome⟩ := by
  obtain ⟨w', new, after, isNew, tracks, names, made⟩ := compile_after known held.tracks ran
  refine ⟨w', seen ++ new, after, ⟨tracks, ?_, ?_⟩, ?_⟩
  · intro path
    rw [List.mem_append, isNew, held.met]
    simp only [List.mem_append, List.mem_singleton, or_and_right, exists_or, exists_eq_left]
    by_cases old : ∃ call ∈ past, path ∈ cat.joinedPaths false collection call.filter <;> simp [old]
  · have own (a : String) : a ∈ Call.aliases ⟨filter, outcome⟩ ↔
        Call.succeeds ⟨filter, outcome⟩ ∧
          ∃ path ∈ new, a = w'.aliases.naming 0 collection path := by
      cases outcome with
      | error e => simp [Call.aliases, Call.succeeds]
      | ok c =>
          simp [Call.aliases, Call.succeeds, (made c rfl).1, eq_comm]
    intro a
    simp only [List.mem_append, List.mem_singleton, or_and_right, exists_or, exists_eq_left,
      held.returned, own]
    refine or_congr ?_ ?_
    · refine exists_congr fun path => and_congr_right fun old => ?_
      rw [names path old, held.firstOn_of_old old]
    · rw [← exists_and_left]
      refine exists_congr fun path => ?_
      rw [and_left_comm]
      refine and_congr_right fun fresh => ?_
      rw [held.firstOn_of_new ((isNew path).mp fresh).2 ((isNew path).mp fresh).1, and_comm]
      simp
  · cases outcome with
    | error e =>
        intro failed
        cases failed
    | ok c =>
        obtain ⟨-, ps, predicate, emits⟩ := made c rfl
        refine fun _ => ⟨emits.consults_seen, fun q => ?_⟩
        rw [Call.qualifiers_ok, predicate, Predicate.tables, Compile.columnsAll_conjunction]
        exact emits.mem_tables q

/-- Where the predicate of a call refers to the places that its filter consults, it is covered
exactly if the first calls on their hop sequences succeeded. -/
theorem Held.covers_iff {call : Call} (held : Held cat base collection (past ++ [call]) w seen)
    (refers : call.Refers cat collection w seen) :
    (∀ q ∈ call.qualifiers, q = collection ∨ ∃ source ∈ past ++ [call], q ∈ source.aliases) ↔
      (call.succeeds → ∀ path ∈ cat.consults false (.root collection) call.filter,
        ∀ first ∈ firstOn cat collection path (past ++ [call]), first.succeeds) := by
  have apart := held.tracks.apart
  constructor
  · intro covered succeeds path consulted first found
    obtain ⟨stood, tables⟩ := refers succeeds
    rcases covered _ ((tables _).mpr (List.mem_map_of_mem consulted)) with own | returned
    · obtain rfl : path = [] := apart path [] (stood path consulted) (.inl rfl) own
      simp [firstOn_nil] at found
    · obtain ⟨path', old, same, all⟩ := (held.returned _).mp returned
      obtain rfl : path = path' := apart path path' (stood path consulted) (.inr old) same
      exact all first found
  · intro all q mem
    by_cases succeeds : call.succeeds
    · obtain ⟨stood, tables⟩ := refers succeeds
      obtain ⟨path, consulted, rfl⟩ := List.mem_map.mp ((tables q).mp mem)
      rcases stood path consulted with rfl | old
      · exact .inl rfl
      · exact .inr ((held.returned _).mpr ⟨path, old, rfl, all succeeds path consulted⟩)
    · simp [call.qualifiers_of_fails succeeds] at mem

/-- All calls keep what is known, whichever of them fail. -/
theorem Held.session (known : collection ∈ cat.names) (filters : List Filter)
    (held : Held cat base collection past w seen) {before after : List Call} {call : Call}
    (split : session cat policy collection filters w.aliases = before ++ call :: after) :
    ∃ (w' : Walk) (more : List (List String)),
      Held cat base collection (past ++ before ++ [call]) w' more ∧
      call.Refers cat collection w' more := by
  induction filters generalizing past w seen before with
  | nil => simp [Filter.session] at split
  | cons filter rest ih =>
      rcases ran : filter.compile cat policy false collection w.aliases with ⟨outcome, t'⟩
      obtain ⟨w', more, rfl, held', refers⟩ := held.call known filter ran
      simp only [Filter.session, ran] at split
      cases before with
      | nil =>
          cases split
          exact ⟨w', more, by simpa using held', refers⟩
      | cons first before =>
          obtain ⟨rfl, later⟩ := List.cons.inj split
          obtain ⟨w'', all, held'', refers⟩ := ih held' later
          exact ⟨w'', all, by simpa using held'', refers⟩

/-- Before the first call nothing is seen. -/
theorem Held.start (known : collection ∈ cat.names) {reserved : List String}
    (reserves : cat.names ⊆ reserved) (strategy : AliasStrategy) (draws : Nat → Nat) :
    Held cat (.fresh strategy draws reserved) collection []
      ⟨.fresh strategy draws reserved, []⟩ [] where
  tracks := by
    have sound := (AliasTable.sound_fresh strategy draws reserved).mono reserves
    refine Compile.tracks_unused cat .root sound known Nat.one_pos ?_
    intro anchor field
    exact Std.TreeMap.getElem?_emptyc
  met := by simp
  returned := by simp

/-- On a collection that is not there no call succeeds. -/
theorem mem_names_of_succeeds {filters : List Filter} {t : AliasTable} {call : Call}
    (mem : call ∈ session cat policy collection filters t) (succeeds : call.succeeds) :
    collection ∈ cat.names := by
  induction filters generalizing t with
  | nil => cases mem
  | cons filter rest ih =>
      rcases ran : filter.compile cat policy false collection t with ⟨outcome, t'⟩
      simp only [Filter.session, ran] at mem
      rcases List.mem_cons.mp mem with rfl | later
      · cases outcome with
        | error e => cases succeeds
        | ok c => exact (compile_eq_ok ran).1
      · exact ih later

/-- A call is covered by the joins returned up to it exactly if the first calls of all on the hop
sequences that it consults succeeded. -/
theorem session_call_covered_iff {reserved : List String} (reserves : cat.names ⊆ reserved)
    {strategy : AliasStrategy} {draws : Nat → Nat} {filters : List Filter} {calls : List Call}
    (ran : session cat policy collection filters (.fresh strategy draws reserved) = calls)
    {before after : List Call} {call : Call} (split : calls = before ++ call :: after) :
    (∀ q ∈ call.qualifiers, q = collection ∨ ∃ source ∈ before ++ [call], q ∈ source.aliases) ↔
      (call.succeeds → ∀ path ∈ cat.consults false (.root collection) call.filter,
        ∀ first ∈ firstOn cat collection path calls, first.succeeds) := by
  by_cases succeeds : call.succeeds
  · have among : call ∈ session cat policy collection filters (.fresh strategy draws reserved) := by
      simp [ran, split]
    have known := mem_names_of_succeeds among succeeds
    obtain ⟨w, seen, held, refers⟩ :=
      (Held.start known reserves strategy draws).session known filters (ran.trans split)
    rw [List.nil_append] at held
    rw [held.covers_iff refers]
    refine forall_congr' fun _ => forall₂_congr fun path consulted => ?_
    have same : firstOn cat collection path calls =
        firstOn cat collection path (before ++ [call]) := by
      rcases (refers succeeds).1 path consulted with rfl | old
      · rw [firstOn_nil, firstOn_nil]
      · rw [split, List.append_cons, held.firstOn_of_old old]
    rw [same]
  · simp [call.qualifiers_of_fails succeeds, succeeds]

end Session

/-- Where no call fails, all predicates are covered. -/
theorem covered_of_succeeds {cat : Catalog} {reserved : List String}
    (reserves : cat.names ⊆ reserved) {strategy : AliasStrategy} {draws : Nat → Nat}
    {policy : PathPolicy} {collection : String} {filters : List Filter} {calls : List Call}
    (ran : session cat policy collection filters (.fresh strategy draws reserved) = calls)
    (all : ∀ call ∈ calls, call.succeeds) : Covered collection calls := by
  intro before call after split
  refine (session_call_covered_iff reserves ran split).mpr fun _ path _ first found => ?_
  exact all first (List.mem_of_find?_eq_some found)

/-- The joins that the calls of a session return cover the predicates exactly where each place that
a successful call consults lies behind a hop sequence of which the first call succeeded. So a failing
call spoils later ones that need a join of which it was the first to give out the alias, and no
others. -/
theorem session_covered_iff {cat : Catalog} {reserved : List String}
    (reserves : cat.names ⊆ reserved) (strategy : AliasStrategy) (draws : Nat → Nat)
    (policy : PathPolicy) (collection : String) (filters : List Filter) :
    let calls := session cat policy collection filters (.fresh strategy draws reserved)
    Covered collection calls ↔
      ∀ call ∈ calls, call.succeeds →
        ∀ path ∈ cat.consults false (.root collection) call.filter,
          ∀ first ∈ firstOn cat collection path calls, first.succeeds := by
  intro calls
  constructor
  · intro covered call mem
    obtain ⟨before, after, split⟩ := List.append_of_mem mem
    exact (session_call_covered_iff reserves rfl split).mp (covered before call after split)
  · intro all before call after split
    refine (session_call_covered_iff reserves rfl split).mpr (all call ?_)
    simp [split]

/-- The books whose author's name lies in a range, which has one bound instead of two, and then
those whose author is Ann. -/
def faulty : List Filter :=
  [ [.leaf ["author", "name"] .between (.array [.string "Ann"])],
    [.leaf ["author", "name"] .eq (.string "Ann")] ]

/-- The first call fails, but it has given out the alias of the author, so the second one returns no
join for it and yet refers to it. -/
theorem session_uncovered :
    ¬ Covered "books" (session .library .ignore "books" faulty
      (.fresh .sequential (fun _ => 0) Catalog.library.names)) := by
  intro covered
  have shape : (session .library .ignore "books" faulty
      (.fresh .sequential (fun _ => 0) Catalog.library.names)).map
        (fun call => (call.qualifiers, call.aliases)) = [([], []), (["aaaaa"], [])] := by
    decide +kernel
  obtain ⟨failed, rest, calls, none, shape⟩ := List.map_eq_cons_iff.mp shape
  obtain ⟨last, rest, rfl, some, -⟩ := List.map_eq_cons_iff.mp shape
  rw [Prod.mk.injEq] at none some
  rcases covered [failed] last rest calls "aaaaa" (by simp [some.1]) with own | ⟨source, mem, gave⟩
  · exact absurd own (by decide)
  · have gives : source.aliases = [] := by
      rcases List.mem_pair.mp mem with rfl | rfl
      · exact none.2
      · exact some.2
    simp [gives] at gave

/-- A failing call whose hops an earlier call has joined spoils nothing: the author of the second
filter is the one that the first call has joined. -/
theorem session_covered_iff_recovered :
    Catalog.library.names ⊆ Catalog.library.names ∧
    Covered "books" (session .library .ignore "books"
      ([.leaf ["author", "name"] .eq (.string "Bob")] :: faulty)
      (.fresh .sequential (fun _ => 0) Catalog.library.names)) := by
  refine ⟨List.Subset.refl _, ?_⟩
  have covers := session_covered_iff (List.Subset.refl Catalog.library.names) .sequential
    (fun _ => 0) .ignore "books" ([.leaf ["author", "name"] .eq (.string "Bob")] :: faulty)
  exact covers.mpr (by decide +kernel)

end Filter

end FilterSql
