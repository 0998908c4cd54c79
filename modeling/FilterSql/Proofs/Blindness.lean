import FilterSql.Proofs.Filter.Rewording
import FilterSql.Proofs.Sql.Skeleton
import FilterSql.Query.Apply

/-!
SQL text is blind to the strings of a filter.

Two filters that differ in strings of their operands are compiled side by side (`Step.Parallel`).
The first walk does not look at operands at all, and so both walk the same joins and give out the
same aliases. In the second walk the operands become values and patterns and decide nothing else, as
an operator that takes a list keeps its operand. So both fail with the same error or make conditions
that differ in values which are passed as parameters, and these have one text
(`Query.text_blind`).
-/

namespace FilterSql

/-! ### Comparisons -/

namespace Leaf

variable {v w : Json}

/-- Values of operands that differ in strings are passed as parameters, unless they are equal. -/
theorem ofJson_exchanges (reworded : v.Reworded w) :
    (SqlValue.ofJson v).Exchanges (SqlValue.ofJson w) := by
  cases reworded with
  | null | bool | number => exact .same _
  | string | array | object => exact .passed rfl rfl

theorem isFalse_eq (reworded : v.Reworded w) : isFalse v = isFalse w := by
  cases reworded <;> rfl

/-- An operand decides the form of a comparison only as a list, as null or as a boolean. -/
theorem predicate_reworded (column : ColumnRef) (localType : LocalType) {operator : Operator}
    (listed : operator.takesList = true → v = w) (reworded : v.Reworded w) :
    Alike Predicate.Revalued (predicate column localType operator v)
      (predicate column localType operator w) := by
  by_cases takes : operator.takesList = true
  · obtain rfl := listed takes
    exact .refl .refl _
  · have compared (op : Comparison) :
        (compare column op v).Revalued (compare column op w) :=
      .compare column op (ofJson_exchanges reworded)
    cases operator with
    | eq | neq =>
        -- Null is compared by a test of its own, and it differs in no string.
        cases reworded with
        | null => exact .ok (.refl _)
        | _ => exact .ok (compared _)
    | gt | gte | lt | lte => exact .ok (compared _)
    | contains | notContains => exact .ok (.like column _ _ _ _)
    | isNull | notNull | isEmpty | notEmpty =>
        simp only [predicate, isFalse_eq reworded]
        exact .ok (.refl _)
    | isIn | notIn | between | notBetween => exact absurd rfl takes

end Leaf

/-! ### Two runs -/

namespace Step

variable {σ τ α β γ δ : Type}

/-- Two computations go side by side: they begin and end with related states, with the same error or
with related results. -/
def Parallel (states : σ → τ → Prop) (related : α → β → Prop) (m : Step σ α) (n : Step τ β) :
    Prop :=
  ∀ (s : σ) (t : τ), states s t → Alike related (m s).1 (n t).1 ∧ states (m s).2 (n t).2

namespace Parallel

variable {states : σ → τ → Prop} {related : α → β → Prop} {later : γ → δ → Prop}

theorem same (m : Step σ α) : Parallel Eq Eq m m := by
  rintro s _ rfl
  exact ⟨.same _, rfl⟩

theorem pure {a : α} {b : β} (results : related a b) :
    Parallel states related (Pure.pure a) (Pure.pure b) :=
  fun _ _ start => ⟨.ok results, start⟩

theorem bind {m : Step σ α} {n : Step τ β} {k : α → Step σ γ} {l : β → Step τ δ}
    (first : Parallel states related m n)
    (second : ∀ {a b}, related a b → Parallel states later (k a) (l b)) :
    Parallel states later (m >>= k) (n >>= l) := by
  intro s t start
  obtain ⟨outcomes, ends⟩ := first s t start
  rw [bind_apply, bind_apply]
  generalize m s = x at outcomes ends
  generalize n t = y at outcomes ends
  obtain ⟨_ | a, s'⟩ := x <;> obtain ⟨_ | b, t'⟩ := y <;> cases outcomes
  · exact ⟨.error _, ends⟩
  · next results => exact second results s' t' ends

/-- A computation that is gone on with in two ways. -/
theorem thenBoth (m : Step σ α) {k : α → Step σ γ} {l : α → Step σ δ}
    (second : ∀ a, Parallel Eq later (k a) (l a)) : Parallel Eq later (m >>= k) (m >>= l) :=
  (same m).bind fun eq => eq ▸ second _

theorem ofExcept {x : Except CompileError α} {y : Except CompileError β}
    (alike : Alike related x y) :
    Parallel states related (Step.ofExcept x) (Step.ofExcept y) := by
  intro s t start
  cases alike with
  | ok results => exact ⟨.ok results, start⟩
  | error e => exact ⟨.error e, start⟩

theorem within {ρ : Type} {m : Step σ α} {n : Step σ β} (parallel : Parallel Eq related m n)
    (get : ρ → σ) (put : σ → ρ → ρ) :
    Parallel Eq related (Step.within get put m) (Step.within get put n) := by
  rintro t _ rfl
  obtain ⟨outcomes, ends⟩ := parallel (get t) (get t) rfl
  exact ⟨outcomes, congrArg (put · t) ends⟩

theorem modify {f : σ → σ} {g : τ → τ} (kept : ∀ {s t}, states s t → states (f s) (g t)) :
    Parallel states Eq (Step.modify f) (Step.modify g) :=
  fun _ _ start => ⟨.ok rfl, kept start⟩

end Parallel

end Step

/-! ### Conditions -/

namespace Predicate

theorem Revalued.group (op : Connective) {ps qs : List Predicate}
    (items : List.Forall₂ Revalued ps qs) : (group op ps).Revalued (group op qs) := by
  cases items with
  | nil => cases op <;> exact .refl _
  | cons first later =>
      cases later with
      | nil => rwa [group_singleton, group_singleton]
      | cons second later =>
          rw [group_cons_cons, group_cons_cons]
          cases op with
          | and => exact .and (.cons first (.cons second later))
          | or => exact .or (.cons first (.cons second later))

end Predicate

/-- Compiled filters with the same joins, and with conditions that differ in values. -/
structure CompiledFilter.Revalued (c c' : CompiledFilter) : Prop where
  joins_eq : c.joins = c'.joins
  predicates : List.Forall₂ Predicate.Revalued c.predicate.toList c'.predicate.toList

namespace Compile

theorem conjunction_revalued {ps qs : List Predicate}
    (items : List.Forall₂ Predicate.Revalued ps qs) :
    List.Forall₂ Predicate.Revalued (conjunction ps).toList (conjunction qs).toList := by
  cases items with
  | nil => exact .nil
  | cons first later => exact .cons (.group .and (.cons first later)) .nil

/-! ### The first walk -/

theorem shortCircuits_reworded (op : Connective) {fs gs : List Filter}
    (children : List.Forall₂ Filter.Reworded fs gs) :
    Entry.shortCircuits op fs = Entry.shortCircuits op gs := by
  have empty : fs.any Filter.isEmpty = gs.any Filter.isEmpty := by
    induction children with
    | nil => rfl
    | cons first _ ih =>
        rw [List.any_cons, List.any_cons, ih]
        cases first <;> rfl
  rw [Entry.shortCircuits, Entry.shortCircuits, empty]

section Walks

variable (f : Frame)

mutual

/-- The joins of a filter do not depend on its operands. -/
theorem discover_reworded (here : Anchor) : ∀ {fs gs : Filter}, fs.Reworded gs → ∀ w : Walk,
    discover f here fs w = discover f here gs w
  | [], _, .nil, _ => rfl
  | _ :: _, _, .cons first later, w => by
      rw [discover, discover, discoverEntry_reworded here first,
        discover_reworded here later]
termination_by structural fs => fs

theorem discoverEntry_reworded (here : Anchor) : ∀ {e e' : Entry}, e.Reworded e' → ∀ w : Walk,
    discoverEntry f here e w = discoverEntry f here e' w
  | .group _ _, _, .group op children, w => by
      rw [discoverEntry, discoverEntry, shortCircuits_reworded op children,
        discoverAll_reworded here children]
  | .leaf _ _ _, _, .leaf _ _ _, _ => rfl
  | .nested _ _, _, .nested path body, w => by
      rw [discoverEntry, discoverEntry]
      split
      · next there w' _ => exact discover_reworded there body w'
      · rfl
termination_by structural e => e

theorem discoverAll_reworded (here : Anchor) : ∀ {fs gs : List Filter},
    List.Forall₂ Filter.Reworded fs gs → ∀ w : Walk,
    discoverAll f here fs w = discoverAll f here gs w
  | [], _, .nil, _ => rfl
  | _ :: _, _, .cons first later, w => by
      rw [discoverAll, discoverAll, discover_reworded here first, discoverAll_reworded here later]
termination_by structural fs => fs

end

/-! ### The second walk -/

theorem emitLeaf_reworded (start : String) (there : Anchor) (path : List String)
    {operator : Operator} {v w : Json} (listed : operator.takesList = true → v = w)
    (operand : v.Reworded w) :
    Alike (List.Forall₂ Predicate.Revalued) (f.emitLeaf start there path operator v)
      (f.emitLeaf start there path operator w) := by
  unfold Frame.emitLeaf
  split
  · exact .ok .nil
  · split
    · exact .error _
    · split
      · exact .error _
      · exact (Leaf.predicate_reworded _ _ listed operand).map fun revalued =>
          .cons revalued .nil

variable {delegate : Option Delegate}

/-- What is asked of a delegate: filters that differ in strings become conditions that differ in
values. -/
def Delegate.Blind (d : Delegate) : Prop :=
  ∀ (there : Anchor) (r : Relation) {fs gs : Filter}, fs.Reworded gs →
    Step.Parallel Eq Predicate.Revalued (d there r fs) (d there r gs)

theorem delegated_reworded (blind : ∀ d ∈ delegate, Delegate.Blind d) (there : Anchor)
    (r : Relation) {fs gs : Filter} (reworded : fs.Reworded gs) :
    Step.Parallel Eq (List.Forall₂ Predicate.Revalued) (delegated delegate there r fs)
      (delegated delegate there r gs) := by
  cases delegate with
  | none => exact .pure .nil
  | some d =>
      exact .bind (.within (blind d rfl there r reworded) _ _) fun revalued =>
        .pure (.cons revalued .nil)

mutual

/-- The second walk fails with the same error for filters that differ in strings, or makes
conditions that differ in values. -/
theorem emit_reworded (blind : ∀ d ∈ delegate, Delegate.Blind d) (here : Anchor) :
    ∀ {fs gs : Filter}, fs.Reworded gs →
    Step.Parallel Eq (List.Forall₂ Predicate.Revalued) (emit f delegate here fs)
      (emit f delegate here gs)
  | [], _, .nil => .pure .nil
  | _ :: _, _, .cons first later =>
      .bind (emitEntry_reworded blind here first) fun ps =>
        .bind (emit_reworded blind here later) fun qs => .pure (List.rel_append ps qs)
termination_by structural fs => fs

theorem emitEntry_reworded (blind : ∀ d ∈ delegate, Delegate.Blind d) (here : Anchor) :
    ∀ {e e' : Entry}, e.Reworded e' →
    Step.Parallel Eq (List.Forall₂ Predicate.Revalued) (emitEntry f delegate here e)
      (emitEntry f delegate here e')
  | .group _ _, _, .group op children => by
      rw [emitEntry, emitEntry, shortCircuits_reworded op children]
      split
      · exact .pure .nil
      · refine .bind (emitAll_reworded blind here children) fun items => .pure ?_
        cases items with
        | nil => exact .nil
        | cons first later => exact .cons (.group op (.cons first later)) .nil
  | .leaf _ _ _, _, .leaf path listed operand => by
      refine .thenBoth _ fun resolution => ?_
      cases resolution with
      | reached there => exact .ofExcept (emitLeaf_reworded f _ there path listed operand)
      | deferred there r consumed =>
          -- The path is cut behind the reverse hop, and the operand goes with the rest of it.
          exact delegated_reworded blind there r (.cons (.leaf _ listed operand) .nil)
      | unresolved _ segment => exact .ofExcept (.refl Predicate.Revalued.refl_all _)
  | .nested _ _, _, .nested path body => by
      refine .thenBoth _ fun resolution => ?_
      cases resolution with
      | reached there => exact emit_reworded blind there body
      | deferred there r consumed =>
          apply delegated_reworded blind there r
          split
          · exact body
          · exact .cons (.nested _ body) .nil
      | unresolved _ segment => exact .ofExcept (.refl Predicate.Revalued.refl_all _)
termination_by structural e => e

theorem emitAll_reworded (blind : ∀ d ∈ delegate, Delegate.Blind d) (here : Anchor) :
    ∀ {fs gs : List Filter}, List.Forall₂ Filter.Reworded fs gs →
    Step.Parallel Eq (List.Forall₂ Predicate.Revalued) (emitAll f delegate here fs)
      (emitAll f delegate here gs)
  | [], _, .nil => .pure .nil
  | _ :: _, _, .cons first later => by
      refine .bind (emit_reworded blind here first) fun ps =>
        .bind (emitAll_reworded blind here later) fun items => .pure ?_
      cases ps with
      | nil => exact items
      | cons p ps => exact .cons (.group .and (.cons p ps)) items
termination_by structural fs => fs

end

theorem inScope_reworded (blind : ∀ d ∈ delegate, Delegate.Blind d) (collection : String)
    {fs gs : Filter} (reworded : fs.Reworded gs) :
    Step.Parallel Eq CompiledFilter.Revalued (inScope f delegate collection fs)
      (inScope f delegate collection gs) := by
  rintro t _ rfl
  simp only [inScope, ← discover_reworded f (.root collection) reworded]
  generalize discover f (.root collection) fs ⟨t, []⟩ = w
  obtain ⟨outcomes, ends⟩ := emit_reworded f blind (.root collection) reworded w w rfl
  generalize emit f delegate (.root collection) fs w = x at outcomes ends
  generalize emit f delegate (.root collection) gs w = y at outcomes ends
  obtain ⟨_ | ps, w⟩ := x <;> obtain ⟨_ | qs, w'⟩ := y <;> cases outcomes <;> cases ends
  · exact ⟨.error _, rfl⟩
  · next items => exact ⟨.ok ⟨rfl, conjunction_revalued items⟩, rfl⟩

end Walks

end Compile

/-! ### Whole filters -/

namespace Filter

variable (cat : Catalog) (policy : PathPolicy) {f g : Filter}

theorem compileInner_reworded (collection : String) (reworded : f.Reworded g) :
    Step.Parallel Eq CompiledFilter.Revalued (compileInner cat policy collection f)
      (compileInner cat policy collection g) :=
  .thenBoth _ fun _ => .thenBoth _ fun _ =>
    Compile.inScope_reworded _ (by simp) collection reworded

theorem blind_membership : Compile.Delegate.Blind (membership cat policy) := by
  intro there r f g reworded
  refine .bind (.bind (compileInner_reworded cat policy r.manyCollection reworded)
    fun compiled => ?_) fun select => .pure (.inSelect _ select)
  obtain ⟨joins, predicates⟩ := compiled
  rw [joins]
  exact .pure (.mk _ _ _ predicates _ _ _)

/-- Filters that differ in strings are compiled alike, on the same table. -/
theorem compile_reworded (subQuery : Bool) (collection : String) (reworded : f.Reworded g) :
    Step.Parallel Eq CompiledFilter.Revalued (f.compile cat policy subQuery collection)
      (g.compile cat policy subQuery collection) := by
  unfold compile
  split
  · exact compileInner_reworded cat policy collection reworded
  · refine .thenBoth _ fun _ => Compile.inScope_reworded _ ?_ collection reworded
    rintro _ ⟨⟩
    exact blind_membership cat policy

end Filter

namespace Query

variable {q : Query} {cat : Catalog} {options : CompileOptions} {draws : Nat → Nat}
  {collection : String} {document other : Json} {f g : Filter}

theorem attachFilter_revalued {c c' : CompiledFilter} (compiled : c.Revalued c') {s t : Select}
    (targets : Select.Revalued s t) :
    Select.Revalued (attachFilter c s) (attachFilter c' t) := by
  obtain ⟨joins, conditions⟩ := compiled
  obtain ⟨_, _, _, predicates, _, _, _⟩ := targets
  rw [attachFilter, attachFilter, joins]
  exact .mk _ _ _ (List.rel_append predicates conditions) _ _ _

/-- Ordering and paging leave the conditions alone. -/
theorem attachPaging_revalued (q : Query) {s t : Select} (targets : Select.Revalued s t) :
    Select.Revalued (q.attachPaging collection s) (q.attachPaging collection t) := by
  obtain ⟨_, _, _, predicates, _, _, _⟩ := targets
  exact .mk _ _ _ predicates _ _ _

/-- The search of a query attaches the same condition to statements that differ in values. -/
theorem applySearch_parallel (q : Query) :
    Step.Parallel Select.Revalued Eq (q.applySearch cat collection)
      (q.applySearch cat collection) := by
  unfold applySearch
  split
  · exact .pure rfl
  · split
    · exact .pure rfl
    · refine .bind (.ofExcept (.same _)) fun {p _} same => .modify ?_
      rintro _ _ ⟨_, _, _, predicates, _, _, _⟩
      cases same
      exact .mk _ _ _ (List.rel_append predicates (Predicate.Revalued.refl_all [p])) _ _ _

section Filters

variable (q) (cat) (draws) (collection) (reworded : f.Reworded g)
  (read : Filter.ofJson options document = .ok f) (readOther : Filter.ofJson options other = .ok g)

include reworded read readOther

theorem applyFilter_reworded :
    Step.Parallel Select.Revalued Eq
      ({ q with filter := some document }.applyFilter cat options draws collection)
      ({ q with filter := some other }.applyFilter cat options draws collection) := by
  have filters : Alike CompiledFilter.Revalued
      (compileFilter cat options draws collection document)
      (compileFilter cat options draws collection other) := by
    simp only [compileFilter, read, readOther]
    exact (Filter.compile_reworded cat _ false collection reworded _ _ rfl).1
  exact .bind (.ofExcept filters) fun compiled => .modify (attachFilter_revalued compiled)

/-- Queries that differ in the filter only, of which one is read from each of two documents. -/
theorem apply_reworded :
    Step.Parallel Select.Revalued Eq
      ({ q with filter := some document }.apply cat options draws collection)
      ({ q with filter := some other }.apply cat options draws collection) :=
  .bind (.ofExcept (.same _)) fun _ =>
    .bind (.modify (attachPaging_revalued _)) fun _ =>
      .bind (applyFilter_reworded q cat draws collection reworded read readOther) fun _ =>
        applySearch_parallel q

theorem compile_reworded :
    Alike Select.Revalued
      ({ q with filter := some document }.compile cat options draws collection)
      ({ q with filter := some other }.compile cat options draws collection) := by
  have start := Select.Revalued.refl (Select.ofCollection collection)
  obtain ⟨outcomes, ends⟩ :=
    apply_reworded q cat draws collection reworded read readOther _ _ start
  unfold compile
  generalize Query.apply _ _ _ _ _ _ = x at outcomes ends ⊢
  generalize Query.apply _ _ _ _ _ _ = y at outcomes ends ⊢
  obtain ⟨_ | _, s⟩ := x <;> obtain ⟨_ | _, t⟩ := y <;> cases outcomes
  · exact .error _
  · exact .ok ends

end Filters

/-- The text of a statement is blind to the values that are passed as parameters and to patterns, in
each dialect. So it is from a filter document on: two documents that are both read and differ in
strings, other than those under operators that take a list, are compiled with the same error, or to
conditions with the same text. This holds of a filter that is compiled for a whole statement or for
a sub-select, with any table, which is left the same; of the statement of a query with the one
document or the other; and of what such a query makes of any statement. -/
theorem text_blind :
    (∀ s t : Select, Select.Revalued s t → s.SameText t) ∧
    ∀ (options : CompileOptions) (document other : Json) (f g : Filter),
      document.Reworded other → Filter.ofJson options document = .ok f →
      Filter.ofJson options other = .ok g →
      ∀ (cat : Catalog) (collection : String),
        (∀ subQuery t,
          Alike (fun c c' => ∀ s, (attachFilter c s).SameText (attachFilter c' s))
            (f.compile cat options.unresolvedPaths subQuery collection t).1
            (g.compile cat options.unresolvedPaths subQuery collection t).1 ∧
          (f.compile cat options.unresolvedPaths subQuery collection t).2 =
            (g.compile cat options.unresolvedPaths subQuery collection t).2) ∧
        ∀ (q : Query) (draws : Nat → Nat),
          Alike Select.SameText
            ({ q with filter := some document }.compile cat options draws collection)
            ({ q with filter := some other }.compile cat options draws collection) ∧
          ∀ s,
            ({ q with filter := some document }.apply cat options draws collection s).1 =
              ({ q with filter := some other }.apply cat options draws collection s).1 ∧
            ({ q with filter := some document }.apply cat options draws collection s).2.SameText
              ({ q with filter := some other }.apply cat options draws collection s).2 := by
  refine ⟨fun s t revalued => revalued.sameText, ?_⟩
  intro options document other f g differ read readOther cat collection
  have reworded := Filter.Reworded.of_read differ read readOther
  refine ⟨fun subQuery t => ?_, fun q draws => ⟨?_, fun s => ?_⟩⟩
  · obtain ⟨outcomes, ends⟩ :=
      Filter.compile_reworded cat options.unresolvedPaths subQuery collection reworded t t rfl
    refine ⟨outcomes.mono fun compiled s => ?_, ends⟩
    exact (attachFilter_revalued compiled (.refl s)).sameText
  · have outcomes := compile_reworded q cat draws collection reworded read readOther
    exact outcomes.mono Select.Revalued.sameText
  · obtain ⟨outcomes, ends⟩ :=
      apply_reworded q cat draws collection reworded read readOther s s (.refl s)
    exact ⟨outcomes.eq, ends.sameText⟩

/-- The authors of some names with a book whose title contains a text. -/
def wrote (text : String) : Json :=
  .object [
    ("books", .object [("title", .object [("_contains", .string text)])]),
    ("name", .object [("_in", .string "Ann,Bob")])]

/-- The members of a name. -/
def membersNamed (name : String) : Select :=
  { Select.ofCollection "member" with
    predicates := [.compare ⟨"member", "name"⟩ .eq (.text name)] }

theorem wrote_reworded (text other : String) : (wrote text).Reworded (wrote other) := by
  refine .object (.cons (.mk _ ?_ ?_) (.cons (.mk _ ?_ ?_) .nil))
  · rintro op ⟨⟩
  · refine .object (.cons (.mk _ ?_ (.object (.cons (.mk _ ?_ (.string _ _)) .nil))) .nil)
    · rintro op ⟨⟩
    · rintro op ⟨⟩ ⟨⟩
  · rintro op ⟨⟩
  · exact .object (.cons (.mk _ (fun _ _ _ => rfl) (.string _ _)) .nil)

/-- The authors of a query for some names and a book. -/
def authorsOf (text : String) : Except CompileError Select :=
  ({ filter := some (wrote text) } : Query).compile .library {} (fun _ => 0) "authors"

/-- A text that would end the statement is a parameter of the sub-select for the books. -/
theorem text_blind_quotes :
    (membersNamed "Ada").SameText (membersNamed "' OR 1=1 --") ∧
    ∃ s t, authorsOf "100%" = .ok s ∧ authorsOf "') OR 1=1 --" = .ok t ∧
      s.operands = [.text "%100\\%%", .text "Ann", .text "Bob"] ∧
      t.operands = [.text "%') OR 1=1 --%", .text "Ann", .text "Bob"] ∧ s.SameText t := by
  obtain ⟨statements, documents⟩ := text_blind
  constructor
  · apply statements
    exact .mk _ _ _ (.cons (.compare _ _ (.passed rfl rfl)) .nil) _ _ _
  · have differ := wrote_reworded "100%" "') OR 1=1 --"
    have alike : Alike Select.SameText (authorsOf "100%") (authorsOf "') OR 1=1 --") :=
      ((documents {} _ _ _ _ differ rfl rfl .library "authors").2 {} fun _ => 0).1
    have first : (authorsOf "100%").toOption.map Select.operands =
        some [.text "%100\\%%", .text "Ann", .text "Bob"] := by
      decide +kernel
    have second : (authorsOf "') OR 1=1 --").toOption.map Select.operands =
        some [.text "%') OR 1=1 --%", .text "Ann", .text "Bob"] := by
      decide +kernel
    generalize authorsOf "100%" = x at alike first ⊢
    generalize authorsOf "') OR 1=1 --" = y at alike second ⊢
    cases alike with
    | error e => cases first
    | ok same =>
        exact ⟨_, _, rfl, rfl, Option.some.inj first, Option.some.inj second, same⟩

end Query

end FilterSql
