import FilterSql.Proofs.Following
import FilterSql.Proofs.JoinPaths

/-!
Filters behind reverse hops are handed on once.

In the source of a sub-select the compiler calls itself. `Filter.handsOn` is that recursion with as
many levels as wanted and anything at all beyond them: a reverse hop hands the rest of its path to
one more compilation, which has the next level for its own reverse hops. One level is all that is
ever used, since a sub-select joins its reverse hops. The filters that a whole statement hands on
are listed without aliases (`Catalog.delegations`). Each of them becomes one statement of the
predicate, in order and without statements inside it, and where the collections are reserved names
each of its hops is a join of that statement (`Filter.compile_delegates_once`). Otherwise an alias
may be the name of the collection that a sub-select starts from, and two of its hops share one
join.
-/

namespace FilterSql

namespace Step

variable {σ α β : Type}

/-- What a computation ensures of its result, where it has one, while it keeps something of its
state. -/
def Ensures (m : Step σ α) (I : σ → Prop) (P : α → Prop) : Prop :=
  ∀ s, I s → I (m s).2 ∧ ∀ a, (m s).1 = .ok a → P a

namespace Ensures

variable {I : σ → Prop} {P : α → Prop}

theorem pure {a : α} (holds : P a) : Ensures (Pure.pure a : Step σ α) I P := by
  intro s kept
  refine ⟨kept, fun b same => ?_⟩
  cases same
  exact holds

theorem bind {Q : β → Prop} {m : Step σ α} {k : α → Step σ β} (first : m.Ensures I P)
    (second : ∀ a, P a → (k a).Ensures I Q) : (m >>= k).Ensures I Q := by
  intro s kept
  obtain ⟨kept, holds⟩ := first s kept
  rw [bind_apply]
  rcases ran : m s with ⟨e | a, s'⟩
  · rw [ran] at kept
    exact ⟨kept, nofun⟩
  · rw [ran] at kept holds
    exact second a (holds a rfl) s' kept

theorem ofExcept {x : Except CompileError α} (holds : ∀ a, x = .ok a → P a) :
    Ensures (Step.ofExcept x : Step σ α) I P := by
  intro s kept
  cases x with
  | error e => exact ⟨kept, nofun⟩
  | ok a => exact pure (holds a rfl) s kept

/-- A computation on a part of the state. -/
theorem within {τ : Type} {m : Step σ α} (ensures : m.Ensures I P) {get : τ → σ} {put : σ → τ → τ}
    (stored : ∀ s t, get (put s t) = s) :
    (Step.within get put m).Ensures (fun t => I (get t)) P := by
  intro t kept
  simp only [Step.within, stored]
  exact ensures (get t) kept

end Ensures

end Step

/-! ### Filters that are handed on -/

namespace Catalog

variable (cat : Catalog) (joinsReverse : Bool)

mutual

/-- The filters on a collection that are handed on, each with the relation of the reverse hop that
it is behind. What is inside a disjunction with an empty filter in it is left out. -/
def delegations (collection : String) : List Entry → List (Relation × Filter)
  | [] => []
  | e :: rest => delegationsEntry collection e ++ delegations collection rest

/-- The filters of an entry that are handed on. -/
def delegationsEntry (collection : String) : Entry → List (Relation × Filter)
  | .group op children =>
    if Entry.shortCircuits op children then [] else delegationsAll collection children
  | .leaf path operator operand =>
    match cat.course joinsReverse 0 (.root collection) path.dropLast with
    | .deferred _ r consumed => [(r, [.leaf (path.drop consumed) operator operand])]
    | _ => []
  | .nested path body =>
    match cat.course joinsReverse 0 (.root collection) path with
    | .reached there => delegations there.collection body
    | .deferred _ r consumed =>
      [(r, if (path.drop consumed).isEmpty then body else [.nested (path.drop consumed) body])]
    | .unresolved _ _ => []

/-- The filters of combined filters that are handed on. -/
def delegationsAll (collection : String) : List (List Entry) → List (Relation × Filter)
  | [] => []
  | child :: rest => delegations collection child ++ delegationsAll collection rest

end

end Catalog

namespace Compile

variable {f : Frame} {delegate : Option Delegate} {I : Walk → Prop}
  {Q : Relation × Filter → Select → Prop}

/-- What is asked of a delegate: a filter that is handed on becomes one statement. A walk that joins
reverse hops needs no delegate. -/
def Answers (I : Walk → Prop) (Q : Relation × Filter → Select → Prop) (f : Frame)
    (delegate : Option Delegate) : Prop :=
  f.scope.joinsReverse = false → ∀ (there : Anchor) (r : Relation) (child : Filter),
    (delegated delegate there r child).Ensures I fun ps =>
      ∃ s, Predicate.statementsAll ps = [s] ∧ Q (r, child) s

/-- A path is followed, and then the walk goes on with what its course leads to. -/
theorem follow_ensures {α : Type} {P : α → Prop} (kept : Kept f I) {here : Anchor}
    {hops : List String} {k : Resolution → Step Walk α}
    (next : ∀ names, (k ((f.catalog.course f.scope.joinsReverse 0 (.root here.collection)
      hops).resolution names)).Ensures I P) :
    (Step.ofTotal (f.follow here hops) >>= k).Ensures I P := by
  intro w holds
  obtain ⟨names, led⟩ := f.follow_course here hops w
  have walked := kept.follow here hops holds
  rw [Step.bind_apply, Step.ofTotal]
  simp only [led]
  exact next names _ walked

/-- The statements of predicates correspond to filters that are handed on. -/
def Holds (Q : Relation × Filter → Select → Prop) (handed : List (Relation × Filter))
    (ps : List Predicate) : Prop :=
  List.Forall₂ Q handed (Predicate.statementsAll ps)

theorem Holds.append {handed handed' : List (Relation × Filter)} {ps qs : List Predicate}
    (first : Holds Q handed ps) (later : Holds Q handed' qs) :
    Holds Q (handed ++ handed') (ps ++ qs) := by
  rw [Holds, Predicate.statementsAll_append]
  exact List.rel_append first later

/-- A reverse hop that is not joined is handed on. -/
theorem Answers.holds (answers : Answers I Q f delegate) {here there : Place} {r : Relation}
    {consumed : Nat} {hops : List String}
    (led : f.catalog.course f.scope.joinsReverse 0 here hops = .deferred there r consumed)
    (anchor : Anchor) (child : Filter) :
    (delegated delegate anchor r child).Ensures I (Holds Q [(r, child)]) := by
  have outer := (Catalog.relationFor_of_course_deferred led).1
  intro w kept
  obtain ⟨kept, made⟩ := answers outer anchor r child w kept
  refine ⟨kept, fun ps ran => ?_⟩
  obtain ⟨s, only, holds⟩ := made ps ran
  rw [Holds, only]
  exact .cons holds .nil

theorem emitUnresolved_holds (f : Frame) (start : String) (path : List String) (segment : String) :
    (Step.ofExcept (f.emitUnresolved start path segment)).Ensures I (Holds Q []) := by
  refine .ofExcept fun ps made => ?_
  unfold Frame.emitUnresolved at made
  split at made <;> cases made
  exact .nil

mutual

/-- The statements of the second walk are those of the filters that are handed on, in order. -/
theorem emit_delegates (kept : Kept f I) (answers : Answers I Q f delegate) :
    ∀ (entries : List Entry) (here : Anchor), (emit f delegate here entries).Ensures I
      (Holds Q (f.catalog.delegations f.scope.joinsReverse here.collection entries))
  | [], _ => .pure .nil
  | e :: rest, here =>
      .bind (emitEntry_delegates kept answers e here) fun _ first =>
        .bind (emit_delegates kept answers rest here) fun _ later => .pure (first.append later)

theorem emitEntry_delegates (kept : Kept f I) (answers : Answers I Q f delegate) :
    ∀ (e : Entry) (here : Anchor), (emitEntry f delegate here e).Ensures I
      (Holds Q (f.catalog.delegationsEntry f.scope.joinsReverse here.collection e))
  | .group op children, here => by
      simp only [emitEntry, Catalog.delegationsEntry]
      split
      · exact .pure .nil
      · refine .bind (emitAll_delegates kept answers children here) fun items holds => .pure ?_
        cases items with
        | nil => exact holds
        | cons item rest => simpa [Holds, Predicate.statementsAll] using holds
  | .leaf path operator operand, here => by
      rw [emitEntry_leaf]
      refine follow_ensures kept fun names => ?_
      rw [Catalog.delegationsEntry]
      cases led : f.catalog.course f.scope.joinsReverse 0 (.root here.collection)
          path.dropLast with
      | reached there =>
          refine .ofExcept fun ps made => ?_
          rw [Holds, statementsAll_emitLeaf made]
          exact .nil
      | deferred there r consumed => exact answers.holds led _ _
      | unresolved there segment => exact emitUnresolved_holds f _ _ segment
  | .nested path body, here => by
      rw [emitEntry_nested]
      refine follow_ensures kept fun names => ?_
      rw [Catalog.delegationsEntry]
      cases led : f.catalog.course f.scope.joinsReverse 0 (.root here.collection) path with
      | reached there => exact emit_delegates kept answers body (there.anchor names)
      | deferred there r consumed => exact answers.holds led _ _
      | unresolved there segment => exact emitUnresolved_holds f _ _ segment

theorem emitAll_delegates (kept : Kept f I) (answers : Answers I Q f delegate) :
    ∀ (children : List (List Entry)) (here : Anchor), (emitAll f delegate here children).Ensures I
      (Holds Q (f.catalog.delegationsAll f.scope.joinsReverse here.collection children))
  | [], _ => .pure .nil
  | child :: rest, here => by
      refine .bind (emit_delegates kept answers child here) fun ps first =>
        .bind (emitAll_delegates kept answers rest here) fun items later => .pure ?_
      have both := first.append later
      rw [Catalog.delegationsAll]
      cases ps with
      -- A combined filter without predicates is left out, and held no statement.
      | nil => exact both
      | cons p ps => simpa [Holds, Predicate.statementsAll] using both

end

theorem answers_none (inner : f.scope.joinsReverse = true) : Answers I Q f none := by
  intro outer
  rw [inner] at outer
  cases outer

theorem answers_some {J : AliasTable → Prop} {d : Delegate}
    (each : ∀ (there : Anchor) (r : Relation) (child : Filter), (d there r child).Ensures J fun p =>
      ∃ s, p.statements = [s] ∧ Q (r, child) s) :
    Answers (fun w => J w.aliases) Q f (some d) := by
  intro _ there r child
  refine .bind ((each there r child).within fun _ _ => rfl) fun p answered => .pure ?_
  simpa [Predicate.statementsAll] using answered

/-- The statements in the predicate of a compiled filter are those of the filters handed on. -/
theorem inScope_delegates (kept : Kept f I) (answers : Answers I Q f delegate) {collection : String}
    {filter : Filter} {t t' : AliasTable} {c : CompiledFilter} (start : I ⟨t, []⟩)
    (ran : inScope f delegate collection filter t = (.ok c, t')) :
    List.Forall₂ Q (f.catalog.delegations f.scope.joinsReverse collection filter)
      (Predicate.statementsAll c.predicate.toList) := by
  have found : I (discover f (.root collection) filter ⟨t, []⟩) := kept.discover filter start
  obtain ⟨-, holds⟩ := emit_delegates kept answers filter (.root collection) _ found
  simp only [inScope] at ran
  split at ran
  · next ps w made =>
      cases ran
      rw [statementsAll_conjunction]
      exact holds ps (by rw [made])
  · cases ran

/-- Nothing is asked of the state of a walk. -/
theorem kept_true (f : Frame) : Kept f fun _ => True where
  hop _ _ _ _ _ _ := trivial

/-- Aliases are only asked for in scopes that are open. -/
theorem kept_sound (f : Frame) (reserved : List String) :
    Kept f fun w => w.aliases.Sound reserved ∧ f.scope.id < w.aliases.nextScope where
  hop {w} here field table left right holds := by
    obtain ⟨sound, opened⟩ := holds
    rcases w.aliases.aliasFor_cases ⟨f.scope.id, here.qualifier, field⟩ with
      ⟨name, -, call⟩ | ⟨t', call, issues⟩
    · simpa [Walk.hop, call] using And.intro sound opened
    · have grown := issues.sound opened sound
      simpa [Walk.hop, call, issues.nextScope] using And.intro grown opened

/-! ### Walks that join reverse hops -/

/-- Two computations behind a path agree where they agree on what its course leads to. -/
theorem follow_congr {α : Type} {here : Anchor} {hops : List String}
    {k k' : Resolution → Step Walk α}
    (next : ∀ names,
      k ((f.catalog.course f.scope.joinsReverse 0 (.root here.collection)
        hops).resolution names) =
      k' ((f.catalog.course f.scope.joinsReverse 0 (.root here.collection)
        hops).resolution names)) :
    Step.ofTotal (f.follow here hops) >>= k = Step.ofTotal (f.follow here hops) >>= k' := by
  funext w
  obtain ⟨names, led⟩ := f.follow_course here hops w
  rw [Step.bind_apply, Step.bind_apply, Step.ofTotal]
  simp only [led, next]

mutual

/-- A walk that joins reverse hops never asks its delegate. -/
theorem emit_undelegated (inner : f.scope.joinsReverse = true) (d d' : Option Delegate) :
    ∀ (entries : List Entry) (here : Anchor), emit f d here entries = emit f d' here entries
  | [], _ => rfl
  | e :: rest, here => by
      rw [emit, emit, emitEntry_undelegated inner d d' e here]
      simp only [emit_undelegated inner d d' rest here]

theorem emitEntry_undelegated (inner : f.scope.joinsReverse = true) (d d' : Option Delegate) :
    ∀ (e : Entry) (here : Anchor), emitEntry f d here e = emitEntry f d' here e
  | .group op children, here => by
      rw [emitEntry, emitEntry, emitAll_undelegated inner d d' children here]
  | .leaf path operator operand, here => by
      rw [emitEntry_leaf, emitEntry_leaf]
      refine follow_congr fun names => ?_
      cases led : f.catalog.course f.scope.joinsReverse 0 (.root here.collection)
          path.dropLast with
      | reached _ => rfl
      | deferred _ _ _ => simp [(Catalog.relationFor_of_course_deferred led).1] at inner
      | unresolved _ _ => rfl
  | .nested path body, here => by
      rw [emitEntry_nested, emitEntry_nested]
      refine follow_congr fun names => ?_
      cases led : f.catalog.course f.scope.joinsReverse 0 (.root here.collection) path with
      | reached there => exact emit_undelegated inner d d' body (there.anchor names)
      | deferred _ _ _ => simp [(Catalog.relationFor_of_course_deferred led).1] at inner
      | unresolved _ _ => rfl

theorem emitAll_undelegated (inner : f.scope.joinsReverse = true) (d d' : Option Delegate) :
    ∀ (children : List (List Entry)) (here : Anchor),
      emitAll f d here children = emitAll f d' here children
  | [], _ => rfl
  | child :: rest, here => by
      rw [emitAll, emitAll, emit_undelegated inner d d' child here]
      simp only [emitAll_undelegated inner d d' rest here]

end

theorem inScope_undelegated (inner : f.scope.joinsReverse = true) (d d' : Option Delegate)
    (collection : String) (filter : Filter) :
    inScope f d collection filter = inScope f d' collection filter := by
  funext t
  rw [inScope, inScope, emit_undelegated inner d d']

end Compile

namespace Filter

/-! ### The compiler as its own delegate -/

/-- Compiles a filter against a collection, as a whole statement or in a scope of its own, where a
delegate compiles the filters behind reverse hops that are not joined. -/
def compileBy (cat : Catalog) (policy : PathPolicy) (delegate : Compile.Delegate) (subQuery : Bool)
    (collection : String) (filter : Filter) : Step AliasTable CompiledFilter := do
  let _ ← Step.ofExcept (cat.requireCollection collection)
  let id ← if subQuery then Step.ofTotal AliasTable.newScope else pure Scope.root.id
  Compile.inScope ⟨cat, policy, ⟨id, subQuery⟩⟩ (some delegate) collection filter

/-- The compiler as the delegate of its own reverse hops, so many levels deep. What compiles the
filters beyond the last level is left open. -/
def handsOn (cat : Catalog) (policy : PathPolicy) (beyond : Compile.Delegate) :
    Nat → Compile.Delegate
  | 0 => beyond
  | levels + 1 => fun there r filter => do
    let compiled ←
      compileBy cat policy (handsOn cat policy beyond levels) true r.manyCollection filter
    return .inSelect (there.column r.onePrimary) { Select.ofCollection r.manyCollection with
      columns := [r.manyField]
      joins := compiled.joins
      predicates := compiled.predicate.toList }

/-- A sub-select is compiled without a delegate. -/
theorem compileBy_inner (cat : Catalog) (policy : PathPolicy) (delegate : Compile.Delegate) :
    compileBy cat policy delegate true = compileInner cat policy := by
  funext collection filter
  have alone (id : Nat) :
      Compile.inScope ⟨cat, policy, ⟨id, true⟩⟩ (some delegate) collection filter =
        Compile.inScope ⟨cat, policy, ⟨id, true⟩⟩ none collection filter :=
    Compile.inScope_undelegated rfl _ _ collection filter
  simp only [compileBy, compileInner, if_true, alone]

theorem handsOn_succ (cat : Catalog) (policy : PathPolicy) (beyond : Compile.Delegate)
    (levels : Nat) : handsOn cat policy beyond (levels + 1) = membership cat policy := by
  funext there r filter t
  rw [handsOn, compileBy_inner, membership, subselect]
  simp only [Step.bind_apply]
  rcases compileInner cat policy r.manyCollection filter t with ⟨_ | c, t'⟩ <;> rfl

/-- One level of the recursion is all that is used. -/
theorem compileBy_handsOn (cat : Catalog) (policy : PathPolicy) (beyond : Compile.Delegate)
    (levels : Nat) (subQuery : Bool) :
    compileBy cat policy (handsOn cat policy beyond (levels + 1)) subQuery =
      compile cat policy subQuery := by
  funext collection filter
  cases subQuery with
  | true => rw [compileBy_inner, compile, if_pos rfl]
  | false =>
      rw [handsOn_succ]
      rfl

/-! ### Sub-selects -/

variable {cat : Catalog} {policy : PathPolicy} {collection : String} {filter : Filter}
  {t t' : AliasTable} {c : CompiledFilter}

/-- A filter that is compiled for a sub-select holds no statement. -/
theorem statements_compileInner
    (compiled : compileInner cat policy collection filter t = (.ok c, t')) :
    Predicate.statementsAll c.predicate.toList = [] := by
  obtain ⟨_, t₁, required, more⟩ := Step.bind_eq_ok compiled
  obtain ⟨id, t₂, opened, ran⟩ := Step.bind_eq_ok more
  have none := Compile.inScope_delegates (I := fun _ => True) (Q := fun _ _ => False)
    (Compile.kept_true _) (Compile.answers_none rfl) trivial ran
  generalize Predicate.statementsAll c.predicate.toList = statements at none
  generalize Catalog.delegations _ _ _ _ = handed at none
  cases none with
  | nil => rfl
  | cons never _ => exact never.elim

/-- What is known of the statement that a filter behind a reverse hop becomes, whatever the
aliases. -/
structure Selects (handed : Relation × Filter) (s : Select) : Prop where
  collection_eq : s.collection = handed.1.manyCollection
  columns_eq : s.columns = [handed.1.manyField]
  statements_eq : Predicate.statementsAll s.predicates = []

theorem membership_selects {there : Anchor} {r : Relation} {child : Filter} {p : Predicate}
    (ran : membership cat policy there r child t = (.ok p, t')) :
    ∃ s, p = .inSelect (there.column r.onePrimary) s ∧ Selects (r, child) s := by
  obtain ⟨s, t₁, selected, gave⟩ := Step.bind_eq_ok ran
  cases gave
  obtain ⟨c, t₂, inner, gave⟩ := Step.bind_eq_ok selected
  cases gave
  exact ⟨_, rfl, rfl, rfl, statements_compileInner inner⟩

theorem statements_inSelect {column : ColumnRef} {handed : Relation × Filter} {s : Select}
    (selects : Selects handed s) : (Predicate.inSelect column s).statements = [s] := by
  rw [Predicate.statements, Select.statementsOf_eq, Select.statements, selects.statements_eq]

/-- The statement of a filter behind a reverse hop where each hop of the filter is a join: those
that the filter meets up to the first segment that is no relation, under different names. -/
structure JoinsHops (cat : Catalog) (handed : Relation × Filter) (names : List String → String)
    (s : Select) : Prop where
  root_name : names [] = handed.1.manyCollection
  distinct : ∀ p q,
    p = [] ∨ p ∈ cat.joinedPaths true handed.1.manyCollection handed.2 →
    q = [] ∨ q ∈ cat.joinedPaths true handed.1.manyCollection handed.2 →
    (names p = names q ↔ p = q)
  joins_eq : s.joins = (cat.joinedPaths true handed.1.manyCollection handed.2).map
    (cat.joinOf true handed.1.manyCollection names)
  /-- a reverse hop joins the many side of its relation -/
  reverse : ∀ hops ∈ hopPaths [] handed.2, ∀ (before : List String) (field table : String)
    (r : Relation), before ++ [field] <+: hops →
    cat.arrival true handed.1.manyCollection before = some table →
    cat.relationFor table field = some (r, .reverse) →
    { table := r.manyCollection
      qualifier := names (before ++ [field])
      left := ⟨names before, r.onePrimary⟩
      right := ⟨names (before ++ [field]), r.manyField⟩ } ∈ s.joins

theorem mem_joinedPaths_of_prefix {hops before : List String} {table : String}
    (met : hops ∈ hopPaths [] filter) (first : before <+: hops) (proper : before ≠ [])
    (arrives : cat.arrival true collection before = some table) :
    before ∈ cat.joinedPaths true collection filter := by
  obtain ⟨rest, rfl⟩ := first
  rw [Catalog.joinedPaths, List.mem_eraseDups, List.mem_flatMap]
  refine ⟨_, met, ?_⟩
  rw [Catalog.prefixes, Catalog.joinable_append arrives]
  cases before with
  | nil => exact absurd rfl proper
  | cons field before => simp

theorem SubselectOf.joinsHops {r : Relation} {child : Filter} {s : Select}
    (selected : SubselectOf cat policy r child s) : ∃ names, JoinsHops cat (r, child) names s := by
  obtain ⟨plan, id, valid, rfl⟩ := selected
  have seen_eq : plan.seen = cat.joinedPaths true r.manyCollection child :=
    valid.seen_eq.trans (Catalog.foldl_note_visits _ _)
  have joins_eq : (plan.compiled cat true r.manyCollection).joins =
      (cat.joinedPaths true r.manyCollection child).map
        (cat.joinOf true r.manyCollection plan.names) := by
    rw [Plan.compiled, seen_eq]
  refine ⟨plan.names, valid.root_name, ?_, joins_eq, ?_⟩
  · intro p q memP memQ
    rw [← seen_eq] at memP memQ
    constructor
    · exact valid.apart p q memP memQ
    · rintro rfl
      rfl
  · intro hops met before field table r' first arrives exposed
    have linked : cat.link? true table field = some r'.backward := by
      simp [Catalog.link?, exposed]
    have further : cat.arrival true r.manyCollection (before ++ [field]) =
        some r'.manyCollection := by
      simp [Catalog.arrival_append, arrives, Catalog.arrival, linked, Relation.backward]
    have joined := mem_joinedPaths_of_prefix met first (by simp) further
    rw [joins_eq, List.mem_map]
    refine ⟨_, joined, ?_⟩
    simp [Catalog.joinOf, arrives, linked, Relation.backward]

/-- A whole statement hands filters on, each of which becomes one statement. -/
theorem statements_compileOuter
    (compiled : compileOuter cat policy collection filter t = (.ok c, t')) :
    List.Forall₂ Selects (cat.delegations false collection filter)
      (Predicate.statementsAll c.predicate.toList) := by
  obtain ⟨_, t₁, required, ran⟩ := Step.bind_eq_ok compiled
  have answers : Compile.Answers (fun _ => True) Selects ⟨cat, policy, .root⟩
      (some (membership cat policy)) := by
    refine Compile.answers_some (J := fun _ => True) fun there r child t _ => ⟨trivial, ?_⟩
    intro p made
    obtain ⟨s, rfl, selects⟩ := membership_selects (Prod.ext made rfl)
    exact ⟨s, statements_inSelect selects, selects⟩
  exact Compile.inScope_delegates (Compile.kept_true _) answers trivial ran

/-- Where the collections are reserved names, each hop of a filter that is handed on is a join. -/
theorem joins_compileOuter {reserved : List String} (used : t.InUse reserved)
    (reserves : cat.names ⊆ reserved)
    (compiled : compileOuter cat policy collection filter t = (.ok c, t')) :
    List.Forall₂ (fun handed s => ∃ names, JoinsHops cat handed names s)
      (cat.delegations false collection filter)
      (Predicate.statementsAll c.predicate.toList) := by
  obtain ⟨_, t₁, required, ran⟩ := Step.bind_eq_ok compiled
  obtain ⟨-, rfl⟩ := Step.ofExcept_eq_ok required
  -- Sub-selects are compiled in the middle of a walk: whatever aliases it has given out by then, none
  -- of them is the name of a collection.
  have answers : Compile.Answers
      (fun w => w.aliases.Sound cat.names ∧ Scope.root.id < w.aliases.nextScope)
      (fun handed s => ∃ names, JoinsHops cat handed names s) ⟨cat, policy, .root⟩
      (some (membership cat policy)) := by
    refine Compile.answers_some
      (J := fun t => t.Sound cat.names ∧ Scope.root.id < t.nextScope) ?_
    rintro there r child t ⟨sound, opened⟩
    have opens := settles_membership cat policy _ rfl there r child t sound
    refine ⟨⟨opens.sound, Nat.lt_of_lt_of_le opened opens.grows.scopes⟩, ?_⟩
    intro p made
    obtain ⟨s, rfl, selects⟩ := membership_selects (Prod.ext made rfl)
    obtain ⟨s', same, selected, -⟩ := membership_spec sound (Prod.ext made rfl)
    cases same
    exact ⟨s, statements_inSelect selects, selected.joinsHops⟩
  exact Compile.inScope_delegates (Compile.kept_sound _ _) answers
    ⟨used.sound.mono reserves, used.root_opened⟩ ran

/-- Filters are handed on once. The recursion of the compiler through its delegate ends after one
level, whatever would come behind it. A filter that is compiled for a sub-select holds no statement;
the statements of a whole one are those of the filters that it hands on, in order and without
statements in them. Where the allocator keeps the names of the collections, each hop of such a
filter is a join of its statement, reverse hops included. -/
theorem compile_delegates_once (cat : Catalog) (policy : PathPolicy) (collection : String)
    (filter : Filter) (t : AliasTable) :
    (∀ beyond levels subQuery,
      compileBy cat policy (handsOn cat policy beyond (levels + 1)) subQuery collection filter t =
        filter.compile cat policy subQuery collection t) ∧
    (∀ c t', filter.compile cat policy true collection t = (.ok c, t') →
      Predicate.statementsAll c.predicate.toList = []) ∧
    ∀ c t', filter.compile cat policy false collection t = (.ok c, t') →
      List.Forall₂ Selects (cat.delegations false collection filter)
        (Predicate.statementsAll c.predicate.toList) ∧
      (∀ s ∈ Predicate.statementsAll c.predicate.toList,
        Predicate.statementsAll s.predicates = []) ∧
      ∀ reserved, t.InUse reserved → cat.names ⊆ reserved →
        List.Forall₂ (fun handed s => ∃ names, JoinsHops cat handed names s)
          (cat.delegations false collection filter)
          (Predicate.statementsAll c.predicate.toList) := by
  refine ⟨fun beyond levels subQuery => by rw [compileBy_handsOn], fun c t' compiled => ?_,
    fun c t' compiled => ?_⟩
  · exact statements_compileInner compiled
  · have selects := statements_compileOuter compiled
    refine ⟨selects, fun s mem => ?_, fun reserved used reserves => ?_⟩
    · have each :=
        selects.flip.imp fun s handed selected => And.intro selected.statements_eq selected
      exact ((List.forall₂_and_left _ _).mp each).1 s mem
    · exact joins_compileOuter used reserves compiled

/-- Of the books of an author, those by an author of a book of some title: a way around a cycle. -/
def titled : Filter :=
  [.nested ["books"] [.leaf ["author", "books", "title"] .eq (.string "Emma")]]

/-- The second and the third hop are joins of the one statement that the first hop leads to. -/
theorem compile_delegates_once_titled :
    (∃ c t', titled.compile .library .reject true "authors"
        (.fresh .sequential (fun _ => 0) Catalog.library.names) = (.ok c, t') ∧
      Predicate.statementsAll c.predicate.toList = []) ∧
    ∃ c t' s, titled.compile .library .reject false "authors"
        (.fresh .sequential (fun _ => 0) Catalog.library.names) = (.ok c, t') ∧
      Predicate.statementsAll c.predicate.toList = [s] ∧
      Predicate.statementsAll s.predicates = [] ∧
      s.joins.map (·.table) = ["authors", "books"] ∧
      ∃ names, JoinsHops .library (⟨"books", "author", "authors", "id", some "books"⟩,
        [.leaf ["author", "books", "title"] .eq (.string "Emma")]) names s := by
  obtain ⟨-, inner, outer⟩ := compile_delegates_once .library .reject "authors" titled
    (.fresh .sequential (fun _ => 0) Catalog.library.names)
  have joined : (titled.compile .library .reject true "authors"
      (.fresh .sequential (fun _ => 0) Catalog.library.names)).1.toOption.isSome := by
    decide +kernel
  have tables : (titled.compile .library .reject false "authors"
      (.fresh .sequential (fun _ => 0) Catalog.library.names)).1.toOption.map
        (fun c => (Predicate.statementsAll c.predicate.toList).map (·.joins.map (·.table))) =
      some [["authors", "books"]] := by
    decide +kernel
  have handed : Catalog.library.delegations false "authors" titled =
      [(⟨"books", "author", "authors", "id", some "books"⟩,
        [.leaf ["author", "books", "title"] .eq (.string "Emma")])] := rfl
  constructor
  · rcases compiled : titled.compile .library .reject true "authors"
        (.fresh .sequential (fun _ => 0) Catalog.library.names) with ⟨_ | c, t'⟩
    · simp [compiled, Except.toOption] at joined
    · exact ⟨c, t', rfl, inner c t' compiled⟩
  · rcases compiled : titled.compile .library .reject false "authors"
        (.fresh .sequential (fun _ => 0) Catalog.library.names) with ⟨_ | c, t'⟩
    · simp [compiled, Except.toOption] at tables
    · rw [compiled] at tables
      obtain ⟨s, made, tables⟩ := List.map_eq_singleton_iff.mp (Option.some.inj tables)
      obtain ⟨-, alone, joins⟩ := outer c t' compiled
      have hops := joins Catalog.library.names (.fresh _ _) (List.Subset.refl _)
      rw [made] at alone hops
      rw [handed, List.forall₂_cons] at hops
      exact ⟨c, t', s, rfl, made, alone s (.head _), tables, hops.1⟩

end Filter

/-- A catalog in which the notes of a library have the name of the first alias. -/
def Catalog.annotated : Catalog where
  collections :=
    [ .ofFields "libraries" "id" [("id", "integer")],
      .ofFields "aaaaa" "id" [("id", "integer"), ("library", "integer")],
      .ofFields "drafts" "id" [("id", "integer"), ("note", "integer")],
      .ofFields "lines" "id" [("id", "integer"), ("draft", "integer"), ("text", "text")] ] ++
    systemCollections
  relations :=
    [ ⟨"aaaaa", "library", "libraries", "id", some "notes"⟩,
      ⟨"drafts", "note", "aaaaa", "id", some "parts"⟩,
      ⟨"lines", "draft", "drafts", "id", some "parts"⟩ ] ++ systemRelations

namespace Filter

/-- Of the notes of a library, those with a draft with a line of some text. -/
def drafted : Filter := [.leaf ["notes", "parts", "parts", "text"] .eq (.string "x")]

/-- An allocator that may give out the name of the notes: the drafts of the notes and the lines of
the drafts have one alias, and no join is made for the lines. -/
theorem compile_delegates_unjoined :
    Catalog.build (Catalog.annotated.collections.take 4) (Catalog.annotated.relations.take 3) =
      .ok .annotated ∧
    Catalog.annotated.delegations false "libraries" drafted =
      [(⟨"aaaaa", "library", "libraries", "id", some "notes"⟩,
        [.leaf ["parts", "parts", "text"] .eq (.string "x")])] ∧
    Catalog.annotated.relationFor "aaaaa" "parts" =
      some (⟨"drafts", "note", "aaaaa", "id", some "parts"⟩, .reverse) ∧
    Catalog.annotated.relationFor "drafts" "parts" =
      some (⟨"lines", "draft", "drafts", "id", some "parts"⟩, .reverse) ∧
    ∃ c t' s, drafted.compile .annotated .ignore false "libraries"
        (.fresh .sequential (fun _ => 0) []) = (.ok c, t') ∧
      Predicate.statementsAll c.predicate.toList = [s] ∧ s.joins.map (·.table) = ["drafts"] := by
  have tables : (drafted.compile .annotated .ignore false "libraries"
      (.fresh .sequential (fun _ => 0) [])).1.toOption.map
        (fun c => (Predicate.statementsAll c.predicate.toList).map (·.joins.map (·.table))) =
      some [["drafts"]] := by
    decide +kernel
  refine ⟨rfl, rfl, by decide, by decide, ?_⟩
  rcases compiled : drafted.compile .annotated .ignore false "libraries"
      (.fresh .sequential (fun _ => 0) []) with ⟨_ | c, t'⟩
  · simp [compiled, Except.toOption] at tables
  · rw [compiled] at tables
    obtain ⟨s, made, tables⟩ := List.map_eq_singleton_iff.mp (Option.some.inj tables)
    exact ⟨c, t', s, rfl, made, tables⟩

end Filter

end FilterSql
