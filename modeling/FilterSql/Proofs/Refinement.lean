import FilterSql.Proofs.Failure

/-!
Strict and lenient compilation of one filter.

The policy for paths that lead nowhere decides what becomes of such a path and nothing else: run on
the same table, a strict computation does what the lenient one does, or stops at a path
(`Step.Refines`). This passes from the comparisons and the paths through the second walk and the
sub-selects that it opens to whole filters (`Filter.compile_refines`).
-/

namespace FilterSql

/-- A path that leads nowhere, as an error. -/
def CompileError.IsPath (e : CompileError) : Prop :=
  ∃ start path segment, e = .malformedPath start path segment

namespace Step

variable {σ τ α β : Type}

/-- A strict computation does what a lenient one does, or stops at a path. -/
def Refines (strict lenient : Step σ α) : Prop :=
  ∀ s, lenient s = strict s ∨ ∃ e, (strict s).1 = .error e ∧ e.IsPath

namespace Refines

theorem refl (m : Step σ α) : m.Refines m := fun _ => .inl rfl

theorem bind {m m' : Step σ α} {k k' : α → Step σ β} (first : m.Refines m')
    (second : ∀ a, (k a).Refines (k' a)) : (m >>= k).Refines (m' >>= k') := by
  intro s
  rw [bind_apply, bind_apply]
  rcases first s with same | ⟨e, stopped, astray⟩
  · rw [same]
    rcases m s with ⟨e | a, s'⟩
    · exact .inl rfl
    · exact second a s'
  · refine .inr ⟨e, ?_, astray⟩
    rcases ran : m s with ⟨e' | a, s'⟩
    · simpa [ran] using stopped
    · simp [ran] at stopped

theorem ofExcept {x x' : Except CompileError α}
    (refines : x' = x ∨ ∃ e, x = .error e ∧ e.IsPath) :
    Refines (Step.ofExcept x : Step σ α) (Step.ofExcept x') := by
  intro s
  rcases refines with rfl | ⟨e, rfl, astray⟩
  · exact .inl rfl
  · exact .inr ⟨e, rfl, astray⟩

theorem within {m m' : Step σ α} (refines : m.Refines m') (get : τ → σ) (put : σ → τ → τ) :
    (Step.within get put m).Refines (Step.within get put m') := by
  intro t
  unfold Step.within
  rcases refines (get t) with same | stopped
  · exact .inl (by rw [same])
  · exact .inr stopped

end Refines

end Step

namespace Compile

/-- A frame under another policy. -/
abbrev Frame.under (f : Frame) (policy : PathPolicy) : Frame := { f with policy := policy }

/-! ### The first walk -/

mutual

/-- The joins of a filter do not depend on the policy. -/
theorem discover_under (f : Frame) (policy : PathPolicy) :
    ∀ (entries : List Entry) (here : Anchor) (w : Walk),
    discover (f.under policy) here entries w = discover f here entries w
  | [], _, _ => rfl
  | e :: rest, here, w => by
      rw [discover, discover, discoverEntry_under f policy e, discover_under f policy rest]

theorem discoverEntry_under (f : Frame) (policy : PathPolicy) :
    ∀ (e : Entry) (here : Anchor) (w : Walk),
    discoverEntry (f.under policy) here e w = discoverEntry f here e w
  | .group op children, here, w => by
      rw [discoverEntry, discoverEntry, discoverAll_under f policy children]
  | .leaf _ _ _, _, _ => rfl
  | .nested path body, here, w => by
      rw [discoverEntry, discoverEntry]
      simp only [discover_under f policy body]
      rfl

theorem discoverAll_under (f : Frame) (policy : PathPolicy) :
    ∀ (children : List (List Entry)) (here : Anchor) (w : Walk),
    discoverAll (f.under policy) here children w = discoverAll f here children w
  | [], _, _ => rfl
  | child :: rest, here, w => by
      rw [discoverAll, discoverAll, discover_under f policy child, discoverAll_under f policy rest]

end

/-! ### The second walk -/

section Emission

variable (f : Frame)

theorem emitLeaf_refines (start : String) (there : Anchor) (path : List String)
    (operator : Operator) (operand : Json) :
    (f.under .ignore).emitLeaf start there path operator operand =
        (f.under .reject).emitLeaf start there path operator operand ∨
      ∃ e, (f.under .reject).emitLeaf start there path operator operand = .error e ∧ e.IsPath := by
  unfold Frame.emitLeaf
  cases path.getLast? with
  | none => exact .inl rfl
  | some column =>
      have same (policy : PathPolicy) : (f.under policy).lacksColumn there.collection column =
          f.lacksColumn there.collection column := rfl
      simp only [same]
      split
      · exact .inl rfl
      · cases f.lacksColumn there.collection column with
        | false => exact .inl rfl
        | true => exact .inr ⟨_, rfl, start, path, column, rfl⟩

theorem emitUnresolved_refines (start : String) (path : List String) (segment : String) :
    (f.under .ignore).emitUnresolved start path segment =
        (f.under .reject).emitUnresolved start path segment ∨
      ∃ e, (f.under .reject).emitUnresolved start path segment = .error e ∧ e.IsPath :=
  .inr ⟨_, rfl, start, path, segment, rfl⟩

variable {f}

/-- What is asked of two delegates: the strict one refines the lenient one. -/
def Delegates (strict lenient : Delegate) : Prop :=
  ∀ (there : Anchor) (r : Relation) (child : Filter),
    (strict there r child).Refines (lenient there r child)

variable {strict lenient : Option Delegate}

theorem delegated_refines (delegates : Option.Rel Delegates strict lenient) (there : Anchor)
    (r : Relation) (child : Filter) :
    (delegated strict there r child).Refines (delegated lenient there r child) := by
  cases delegates with
  | none => exact .refl _
  | some refines => exact .bind (.within (refines there r child) _ _) fun _ => .refl _

mutual

/-- The second walk under strict paths does what it does under lenient ones, or stops at a path. -/
theorem emit_refines (delegates : Option.Rel Delegates strict lenient) :
    ∀ (entries : List Entry) (here : Anchor),
    (emit (f.under .reject) strict here entries).Refines
      (emit (f.under .ignore) lenient here entries)
  | [], _ => .refl _
  | e :: rest, here =>
      .bind (emitEntry_refines delegates e here) fun _ =>
        .bind (emit_refines delegates rest here) fun _ => .refl _

theorem emitEntry_refines (delegates : Option.Rel Delegates strict lenient) :
    ∀ (e : Entry) (here : Anchor),
    (emitEntry (f.under .reject) strict here e).Refines
      (emitEntry (f.under .ignore) lenient here e)
  | .group op children, here => by
      unfold emitEntry
      split
      · exact .refl _
      · exact .bind (emitAll_refines delegates children here) fun _ => .refl _
  | .leaf path operator operand, here => by
      refine .bind (.refl _) fun resolution => ?_
      cases resolution with
      | reached there => exact .ofExcept (emitLeaf_refines f _ there path operator operand)
      | deferred there r consumed => exact delegated_refines delegates there r _
      | unresolved _ segment => exact .ofExcept (emitUnresolved_refines f _ path segment)
  | .nested path body, here => by
      refine .bind (.refl _) fun resolution => ?_
      cases resolution with
      | reached there => exact emit_refines delegates body there
      | deferred there r consumed => exact delegated_refines delegates there r _
      | unresolved _ segment => exact .ofExcept (emitUnresolved_refines f _ path segment)

theorem emitAll_refines (delegates : Option.Rel Delegates strict lenient) :
    ∀ (children : List (List Entry)) (here : Anchor),
    (emitAll (f.under .reject) strict here children).Refines
      (emitAll (f.under .ignore) lenient here children)
  | [], _ => .refl _
  | child :: rest, here =>
      .bind (emit_refines delegates child here) fun _ =>
        .bind (emitAll_refines delegates rest here) fun _ => .refl _

end

theorem inScope_refines (delegates : Option.Rel Delegates strict lenient) (collection : String)
    (filter : Filter) :
    (inScope (f.under .reject) strict collection filter).Refines
      (inScope (f.under .ignore) lenient collection filter) := by
  intro t
  simp only [inScope, discover_under f]
  rcases emit_refines (f := f) delegates filter (.root collection)
    (discover f (.root collection) filter ⟨t, []⟩) with same | ⟨e, stopped, astray⟩
  · exact .inl (by rw [same])
  · refine .inr ⟨e, ?_, astray⟩
    split
    · next ran => simp [ran] at stopped
    · next ran => simpa [ran] using stopped

end Emission

end Compile

/-! ### Whole filters -/

namespace Filter

variable (cat : Catalog)

theorem compileInner_refines (collection : String) (filter : Filter) :
    (compileInner cat .reject collection filter).Refines
      (compileInner cat .ignore collection filter) :=
  .bind (.refl _) fun _ => .bind (.refl _) fun id =>
    Compile.inScope_refines (f := ⟨cat, .ignore, ⟨id, true⟩⟩) .none collection filter

theorem delegates_membership :
    Compile.Delegates (membership cat .reject) (membership cat .ignore) := fun _ r child =>
  .bind (.bind (compileInner_refines cat r.manyCollection child) fun _ => .refl _)
    fun _ => .refl _

theorem compileOuter_refines (collection : String) (filter : Filter) :
    (compileOuter cat .reject collection filter).Refines
      (compileOuter cat .ignore collection filter) :=
  .bind (.refl _) fun _ => Compile.inScope_refines (f := ⟨cat, .ignore, Scope.root⟩)
    (.some (delegates_membership cat)) collection filter

/-- On the same table, a compilation under strict paths does what one under lenient paths does, or
stops at a path. -/
theorem strict_refines (subQuery : Bool) (collection : String) (filter : Filter) :
    (filter.compile cat .reject subQuery collection).Refines
      (filter.compile cat .ignore subQuery collection) := by
  unfold compile
  split
  · exact compileInner_refines cat collection filter
  · exact compileOuter_refines cat collection filter

/-- Strict compilation refines lenient compilation, on any table. A result of the strict run, and an
error of it that names no path, is that of the lenient run, which leaves the same table behind, and
where the lenient run fails the strict one does. The strict run stops at a path only where a field
of the filter leads nowhere: at a segment that is no relation of the collection reached there, or at
a column that the collection does not have. -/
theorem compile_refines (subQuery : Bool) (collection : String) (filter : Filter)
    (t : AliasTable) :
    (∀ c t', filter.compile cat .reject subQuery collection t = (.ok c, t') →
      filter.compile cat .ignore subQuery collection t = (.ok c, t')) ∧
    (∀ e t', filter.compile cat .reject subQuery collection t = (.error e, t') →
      (∀ start path segment, e ≠ .malformedPath start path segment) →
      filter.compile cat .ignore subQuery collection t = (.error e, t')) ∧
    (∀ e, (filter.compile cat .ignore subQuery collection t).1 = .error e →
      ∃ e', (filter.compile cat .reject subQuery collection t).1 = .error e') ∧
    (∀ start path segment, (filter.compile cat .reject subQuery collection t).1 =
        .error (.malformedPath start path segment) →
      ∃ field ∈ fields [] filter, ∃ before, field.path = before ++ path ∧
        cat.arrival true collection before = some start ∧
        cat.Strays start path field.compares segment) := by
  have refines := strict_refines cat subQuery collection filter t
  refine ⟨?_, ?_, ?_, ?_⟩
  · intro c t' ran
    rcases refines with same | ⟨e, stopped, -⟩
    · rw [same, ran]
    · rw [ran] at stopped
      cases stopped
  · intro e t' failed other
    rcases refines with same | ⟨e', stopped, start, path, segment, rfl⟩
    · rw [same, failed]
    · rw [failed] at stopped
      cases stopped
      exact absurd rfl (other start path segment)
  · intro e failed
    rcases refines with same | ⟨e', stopped, -⟩
    · exact ⟨e, by rw [← same, failed]⟩
    · exact ⟨e', stopped⟩
  · intro start path segment stopped
    rcases compile_fails subQuery filter t _ stopped with ⟨unknown, -⟩ | fault
    · cases unknown
    · cases fault with
      | astray _ among split arrives strays => exact ⟨_, among, _, split, arrives, strays⟩

/-- The path of a strict compilation that stops behind a join is the rest of a field that leads
nowhere. -/
theorem compile_refines_ghost :
    ∃ field ∈ fields [] [.nested ["author"] [.leaf ["ghost"] .eq (.string "Ann")]], ∃ before,
      field.path = before ++ ["ghost"] ∧
      Catalog.library.arrival true "books" before = some "authors" ∧
      Catalog.library.Strays "authors" ["ghost"] field.compares "ghost" := by
  let t := AliasTable.fresh .sequential (fun _ => 0) Catalog.library.names
  have stops : failure? (compile .library .reject false "books"
      [.nested ["author"] [.leaf ["ghost"] .eq (.string "Ann")]] t).1 =
        some (.malformedPath "authors" ["ghost"] "ghost") := by
    decide +kernel
  exact (compile_refines .library false "books" _ t).2.2.2 _ _ _ (failure?_eq_some.mp stops)

end Filter

end FilterSql
