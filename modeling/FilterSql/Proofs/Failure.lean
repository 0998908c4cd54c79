import FilterSql.Proofs.Existence

/-!
Why a compilation fails.

Compiling a filter fails with an operand that an operator cannot take, with a relation whose
collection is missing, or, under strict paths only, with a path that strays: a segment is no
relation, or the last one no column, of the collection reached there (`Catalog.Strays`). The error
of a path that strays names a field of the filter (`Fault.astray`), also where it is raised inside a
sub-select, which sees no more than the rest of the path. None of this depends on aliases, so it
holds for all tables (`Filter.compile_fails`).
-/

namespace FilterSql

/-! ### Computations that may fail -/

/-- The error of an outcome, if it is one. -/
def failure? {α : Type} : Except CompileError α → Option CompileError
  | .ok _ => none
  | .error e => some e

theorem failure?_eq_some {α : Type} {x : Except CompileError α} {e : CompileError} :
    failure? x = some e ↔ x = .error e := by
  cases x <;> simp [failure?]

/-- All errors of an outcome are of some sort. -/
def Raises {α : Type} (x : Except CompileError α) (P : CompileError → Prop) : Prop :=
  ∀ e, x = .error e → P e

namespace Raises

variable {α β : Type} {P Q : CompileError → Prop}

theorem ok (a : α) : Raises (.ok a) P := by
  intro e same
  cases same

theorem error {e : CompileError} (holds : P e) : Raises (.error e : Except CompileError α) P := by
  intro e' same
  cases same
  exact holds

theorem mono {x : Except CompileError α} (raises : Raises x P) (weaker : ∀ e, P e → Q e) :
    Raises x Q := by
  intro e same
  exact weaker e (raises e same)

theorem bind {x : Except CompileError α} {k : α → Except CompileError β} (first : Raises x P)
    (second : ∀ a, Raises (k a) P) : Raises (x >>= k) P := by
  cases x with
  | error e => exact .error (first e rfl)
  | ok a => exact second a

end Raises

namespace Step

variable {σ τ α β : Type} {P Q : CompileError → Prop}

/-- All errors of a computation are of some sort, whatever the state it begins with. -/
def Fails (m : Step σ α) (P : CompileError → Prop) : Prop := ∀ s, Raises (m s).1 P

namespace Fails

theorem pure (a : α) : Fails (Pure.pure a : Step σ α) P := fun _ => .ok a

theorem mono {m : Step σ α} (fails : m.Fails P) (weaker : ∀ e, P e → Q e) : m.Fails Q :=
  fun s => (fails s).mono weaker

theorem bind {m : Step σ α} {k : α → Step σ β} (first : m.Fails P) (second : ∀ a, (k a).Fails P) :
    (m >>= k).Fails P := by
  intro s
  have early := first s
  rw [bind_apply]
  rcases ran : m s with ⟨e | a, s'⟩
  · exact .error (early e (by rw [ran]))
  · exact second a s'

theorem ofExcept {x : Except CompileError α} (raises : Raises x P) :
    Fails (Step.ofExcept x : Step σ α) P := by
  intro s
  cases x with
  | ok a => exact .ok a
  | error e => exact .error (raises e rfl)

/-- A computation that cannot fail hands on the results it can have. -/
theorem ofTotal_bind {m : σ → α × σ} {k : α → Step σ β} (second : ∀ s, (k (m s).1).Fails P) :
    (Step.ofTotal m >>= k).Fails P := fun s => second s (m s).2

theorem within {get : τ → σ} {put : σ → τ → τ} {m : Step σ α} (fails : m.Fails P) :
    (Step.within get put m).Fails P := fun t => fails (get t)

end Fails

end Step

/-! ### Fields -/

/-- A field of a filter: its path from the collection that the filter is on, and whether the path
ends in a column that is compared. -/
structure Field where
  path : List String
  compares : Bool
  deriving DecidableEq, Repr

namespace Filter

mutual

/-- The fields of a filter that stands behind a path, in order. What is inside a disjunction with an
empty filter in it is left out. -/
def fields (before : List String) : List Entry → List Field
  | [] => []
  | e :: rest => fieldsEntry before e ++ fields before rest

/-- The fields of an entry. -/
def fieldsEntry (before : List String) : Entry → List Field
  | .group op children =>
    if Entry.shortCircuits op children then [] else fieldsAll before children
  | .leaf path _ _ => [⟨before ++ path, true⟩]
  | .nested path body => ⟨before ++ path, false⟩ :: fields (before ++ path) body

/-- The fields of combined filters. -/
def fieldsAll (before : List String) : List (List Entry) → List Field
  | [] => []
  | child :: rest => fields before child ++ fieldsAll before rest

end

end Filter

namespace Catalog

variable (cat : Catalog)

/-- A path from a collection leads nowhere at a segment: as a hop it is no relation of the
collection reached there, or as the column that is compared it is no column of that collection. -/
inductive Strays (collection : String) (path : List String) (compares : Bool) (segment : String) :
    Prop where
  | hop {before after : List String} {there : String} (split : path = before ++ segment :: after)
      (further : compares = true → after ≠ [])
      (arrives : cat.arrival true collection before = some there)
      (unrelated : cat.relationFor there segment = none)
  | column {before : List String} {there : String} {c : Collection}
      (compared : compares = true) (split : path = before ++ [segment])
      (arrives : cat.arrival true collection before = some there)
      (known : cat.collection? there = some c) (lacks : c.hasColumn segment = false)

/-- What can be wrong with fields, which are given by their paths from a collection. -/
inductive Fault (policy : PathPolicy) (collection : String) (fields : List Field) :
    CompileError → Prop where
  | operand (operator : Operator) (field : String) (fault : OperandFault) :
      Fault policy collection fields (.invalidOperand operator field fault)
  /-- The error tells the path from a collection on the way of the field. -/
  | astray (strict : policy = .reject) {field : Field} (among : field ∈ fields)
      {before path : List String} {start segment : String} (split : field.path = before ++ path)
      (arrives : cat.arrival true collection before = some start)
      (strays : cat.Strays start path field.compares segment) :
      Fault policy collection fields (.malformedPath start path segment)
  | missing {r : Relation} (known : r ∈ cat.relations) (gone : r.manyCollection ∉ cat.names) :
      Fault policy collection fields (.unknownCollection r.manyCollection)

variable {cat} {policy : PathPolicy} {collection : String}

theorem Fault.mono {fields more : List Field} {e : CompileError}
    (fault : cat.Fault policy collection fields e) (sub : fields ⊆ more) :
    cat.Fault policy collection more e := by
  cases fault with
  | operand operator field fault => exact .operand operator field fault
  | astray strict among split arrives strays =>
      exact .astray strict (sub among) split arrives strays
  | missing known gone => exact .missing known gone

/-! ### Where paths end -/

/-- A path that is followed to its end arrives there. -/
theorem arrival_of_course_reached {joinsReverse : Bool} {hops : List String} {there : Place}
    (led : cat.course joinsReverse 0 (.root collection) hops = .reached there) :
    cat.arrival true collection hops = some there.collection := by
  have start : cat.Locates joinsReverse collection (.root collection) := locates_root collection
  have located := start.course led
  have behind := hops_of_course_reached led
  rw [Place.root, List.nil_append] at behind
  rw [Locates, Course.place, behind] at located
  exact arrival_true located

/-- A path that is followed up to a reverse hop arrives behind that hop on the many side. -/
theorem arrival_of_course_deferred {joinsReverse : Bool} {hops : List String} {there : Place}
    {r : Relation} {consumed : Nat}
    (led : cat.course joinsReverse 0 (.root collection) hops = .deferred there r consumed) :
    r ∈ cat.relations ∧
      cat.arrival true collection (hops.take consumed) = some r.manyCollection := by
  have start : cat.Locates joinsReverse collection (.root collection) := locates_root collection
  have located := start.course led
  obtain ⟨field, exposed, behind⟩ := hops_of_course_deferred led
  rw [Place.root, List.nil_append, Nat.sub_zero] at behind
  refine ⟨(source_of_relationFor exposed).1, ?_⟩
  have stood : cat.arrival true collection there.hops = some there.collection :=
    arrival_true located
  rw [← behind, arrival_append, stood]
  simp [arrival, link?, exposed, Relation.backward]

/-- A path that is followed up to a segment arrives in front of it, and the segment is no relation
there. -/
theorem hops_of_course_unresolved {joinsReverse : Bool} {here there : Place} {start : Nat}
    {segment : String} {hops : List String}
    (led : cat.course joinsReverse start here hops = .unresolved there segment) :
    (∃ after, here.hops ++ hops = there.hops ++ segment :: after) ∧
      cat.relationFor there.collection segment = none := by
  induction hops generalizing here start with
  | nil => cases led
  | cons field rest ih =>
      simp only [course] at led
      split at led
      · obtain ⟨⟨after, eq⟩, unrelated⟩ := ih led
        refine ⟨⟨after, ?_⟩, unrelated⟩
        rw [← eq, Place.next, List.append_assoc, List.singleton_append]
      · split at led
        · cases led
        · next unrelated =>
            cases led
            exact ⟨⟨rest, rfl⟩, unrelated⟩

/-- A path whose hops lead nowhere strays. -/
theorem strays_of_course {joinsReverse : Bool} {hops : List String} (rest : List String)
    {there : Place} {segment : String} (compares : Bool)
    (led : cat.course joinsReverse 0 (.root collection) hops = .unresolved there segment)
    (further : compares = true → rest ≠ []) :
    cat.Strays collection (hops ++ rest) compares segment := by
  obtain ⟨⟨after, eq⟩, unrelated⟩ := hops_of_course_unresolved led
  rw [Place.root, List.nil_append] at eq
  have split : hops ++ rest = there.hops ++ segment :: (after ++ rest) := by
    rw [eq, List.append_assoc, List.cons_append]
  refine .hop split ?_ ?_ unrelated
  · intro compared
    exact List.append_ne_nil_of_right_ne_nil after (further compared)
  · have start : cat.Locates joinsReverse collection (.root collection) := locates_root collection
    exact arrival_true (start.course led)

/-- A collection that is required and not there is none of the catalog. -/
theorem requireCollection_raises (name : String) :
    Raises (cat.requireCollection name) fun e =>
      e = .unknownCollection name ∧ name ∉ cat.names := by
  unfold requireCollection
  split
  · exact .ok _
  · next missing =>
      refine .error ⟨rfl, ?_⟩
      intro mem
      obtain ⟨c, among, named⟩ := List.mem_map.mp mem
      exact absurd named (by simpa using List.find?_eq_none.mp missing c among)

end Catalog

/-! ### The walk that makes the predicates -/

namespace Leaf

/-- A comparison fails with an operand that its operator cannot take. -/
theorem predicate_raises (column : ColumnRef) (localType : LocalType) (operator : Operator)
    (operand : Json) :
    Raises (predicate column localType operator operand) fun e =>
      ∃ fault, e = .invalidOperand operator column.column fault := by
  have range (negated : Bool) : Raises (range column localType operator operand negated) fun e =>
      ∃ fault, e = .invalidOperand operator column.column fault := by
    unfold Leaf.range
    split
    · exact .ok _
    · exact .error ⟨_, rfl⟩
  cases operator with
  | between => exact range false
  | notBetween => exact range true
  | _ => cases operand <;> exact .ok _

end Leaf

namespace Walk

/-- A walk along a path ends where the course of the path does, whatever the table. -/
theorem follow_resolution (cat : Catalog) (scope : Scope) (hops : List String) :
    ∀ {here : Place} {anchor : Anchor}, anchor.collection = here.collection →
    ∀ (consumed : Nat) (w : Walk), ∃ names,
      (w.follow cat scope consumed anchor hops).1 =
        (cat.course scope.joinsReverse consumed here hops).resolution names := by
  induction hops with
  | nil =>
      intro here anchor same consumed w
      refine ⟨fun _ => anchor.qualifier, ?_⟩
      simp [follow_nil, Catalog.course, Course.resolution, Place.anchor, ← same]
  | cons field rest ih =>
      intro here anchor same consumed w
      rw [follow_cons, Catalog.course, same]
      cases cat.link? scope.joinsReverse here.collection field with
      | some link => exact ih rfl _ _
      | none =>
          refine ⟨fun _ => anchor.qualifier, ?_⟩
          cases cat.relationFor here.collection field <;>
            simp [Course.resolution, Place.anchor, ← same]

end Walk

namespace Compile

variable {f : Frame} {delegate : Option Delegate} {collection : String}

/-- What is asked of a delegate: a filter behind a reverse hop fails with a fault of its fields. -/
def Blames (cat : Catalog) (policy : PathPolicy) (collection : String)
    (delegate : Option Delegate) : Prop :=
  ∀ d ∈ delegate, ∀ (there : Anchor) (r : Relation) (child : Filter) (before : List String),
    r ∈ cat.relations → cat.arrival true collection before = some r.manyCollection →
    (d there r child).Fails (cat.Fault policy collection (Filter.fields before child))

/-- A path that is followed from an anchor ends where its course does. -/
theorem Frame.follow_course (f : Frame) (here : Anchor) (hops : List String) (w : Walk) :
    ∃ names, (f.follow here hops w).1 =
      (f.catalog.course f.scope.joinsReverse 0 (.root here.collection) hops).resolution names :=
  @Walk.follow_resolution f.catalog f.scope hops (.root here.collection) here rfl 0 w

/-- A path is followed from a collection, and what is done then may fail. -/
theorem follow_fails {α : Type} {P : CompileError → Prop} {here : Anchor} {hops : List String}
    {k : Resolution → Step Walk α}
    (next : ∀ names, (k ((f.catalog.course f.scope.joinsReverse 0 (.root here.collection)
      hops).resolution names)).Fails P) :
    (Step.ofTotal (f.follow here hops) >>= k).Fails P := by
  refine .ofTotal_bind fun w => ?_
  obtain ⟨names, led⟩ := f.follow_course here hops w
  rw [led]
  exact next names

section Emission

variable {policy : PathPolicy}

/-- A comparison whose hops are joined fails with its operand or with its column. -/
theorem emitLeaf_raises {before path : List String} {start : String} {there : Anchor}
    {operator : Operator} {operand : Json}
    (behind : f.catalog.arrival true collection before = some start)
    (arrives : f.catalog.arrival true start path.dropLast = some there.collection) :
    Raises (f.emitLeaf start there path operator operand)
      (f.catalog.Fault f.policy collection [⟨before ++ path, true⟩]) := by
  unfold Frame.emitLeaf
  split
  · exact .ok _
  · next column ended =>
      split
      · exact .error (.operand _ _ _)
      · split
        · next lacking =>
            rw [Bool.and_eq_true, beq_iff_eq] at lacking
            obtain ⟨lacks, strict⟩ := lacking
            have split : path = path.dropLast ++ [column] :=
              (List.dropLast_append_getLast? column ended).symm
            unfold Frame.lacksColumn at lacks
            split at lacks
            · next c known =>
                refine .error (.astray strict (List.mem_singleton.mpr rfl) rfl behind ?_)
                exact .column rfl split arrives known (by simpa using lacks)
            · cases lacks
        · cases compared : Leaf.predicate (there.column column)
            (f.catalog.localType there.collection column) operator operand with
          | ok p => exact .ok _
          | error e =>
              obtain ⟨fault, rfl⟩ := Leaf.predicate_raises _ _ _ _ e compared
              exact .error (.operand _ _ _)

/-- A path that strays fails where nothing is ignored. -/
theorem emitUnresolved_raises {before path : List String} {start segment : String}
    {compares : Bool} (behind : f.catalog.arrival true collection before = some start)
    (strays : f.catalog.Strays start path compares segment) :
    Raises (f.emitUnresolved start path segment)
      (f.catalog.Fault f.policy collection [⟨before ++ path, compares⟩]) := by
  unfold Frame.emitUnresolved
  split
  · exact .ok _
  · next strict => exact .error (.astray strict (List.mem_singleton.mpr rfl) rfl behind strays)

/-- A filter behind a reverse hop fails with a fault of its fields. -/
theorem delegated_fails (blames : Blames f.catalog f.policy collection delegate)
    {before hops : List String} {here : Anchor}
    (behind : f.catalog.arrival true collection before = some here.collection)
    (names : List String → String) {there : Place} {r : Relation} {consumed : Nat}
    (led : f.catalog.course f.scope.joinsReverse 0 (.root here.collection) hops =
      .deferred there r consumed) (child : Filter) :
    (delegated delegate (there.anchor names) r child).Fails (f.catalog.Fault f.policy collection
      (Filter.fields (before ++ hops.take consumed) child)) := by
  obtain ⟨known, arrives⟩ := Catalog.arrival_of_course_deferred led
  cases delegate with
  | none => exact .pure _
  | some d =>
      have many : f.catalog.arrival true collection (before ++ hops.take consumed) =
          some r.manyCollection := by
        rw [Catalog.arrival_append, behind, Option.bind_some, arrives]
      refine .bind (.within (blames d rfl _ r child _ known many)) fun _ => .pure _

mutual

/-- The second walk fails with a fault of the fields of the filter. -/
theorem emit_fails (blames : Blames f.catalog f.policy collection delegate) :
    ∀ (entries : List Entry) {here : Anchor} {before : List String},
    f.catalog.arrival true collection before = some here.collection →
    (emit f delegate here entries).Fails
      (f.catalog.Fault f.policy collection (Filter.fields before entries))
  | [], _, _, _ => .pure _
  | e :: rest, here, before, behind => by
      have first := (emitEntry_fails blames e behind).mono fun _ fault =>
        fault.mono (List.subset_append_left _ (Filter.fields before rest))
      have later := (emit_fails blames rest behind).mono fun _ fault =>
        fault.mono (List.subset_append_right (Filter.fieldsEntry before e) _)
      exact .bind first fun _ => .bind later fun _ => .pure _

theorem emitEntry_fails (blames : Blames f.catalog f.policy collection delegate) :
    ∀ (e : Entry) {here : Anchor} {before : List String},
    f.catalog.arrival true collection before = some here.collection →
    (emitEntry f delegate here e).Fails
      (f.catalog.Fault f.policy collection (Filter.fieldsEntry before e))
  | .group op children, here, before, behind => by
      simp only [emitEntry, Filter.fieldsEntry]
      split
      · exact .pure _
      · exact .bind (emitAll_fails blames children behind) fun _ => .pure _
  | .leaf path operator operand, here, before, behind => by
      refine follow_fails fun names => ?_
      cases led : f.catalog.course f.scope.joinsReverse 0 (.root here.collection) path.dropLast with
      | reached there =>
          have arrives := Catalog.arrival_of_course_reached led
          exact .ofExcept (emitLeaf_raises behind arrives)
      | deferred there r consumed =>
          have whole : path.dropLast.take consumed ++ path.drop consumed = path := by
            have short := (Catalog.consumed_of_course_deferred led).2
            rw [Nat.zero_add, List.length_dropLast] at short
            rw [List.dropLast_eq_take, List.take_take, Nat.min_eq_left short,
              List.take_append_drop]
          have behindHop := delegated_fails blames behind names led
            [.leaf (path.drop consumed) operator operand]
          rw [Filter.fields, Filter.fields, Filter.fieldsEntry, List.append_nil,
            List.append_assoc, whole] at behindHop
          exact behindHop
      | unresolved there segment =>
          have further : path ≠ [] := by
            rintro rfl
            cases led
          have strays := Catalog.strays_of_course [path.getLast further] true led
            fun _ => List.cons_ne_nil _ _
          rw [List.dropLast_append_getLast further] at strays
          exact .ofExcept (emitUnresolved_raises behind strays)
  | .nested path body, here, before, behind => by
      refine follow_fails fun names => ?_
      cases led : f.catalog.course f.scope.joinsReverse 0 (.root here.collection) path with
      | reached there =>
          have arrives := Catalog.arrival_of_course_reached led
          have further : f.catalog.arrival true collection (before ++ path) =
              some there.collection := by
            rw [Catalog.arrival_append, behind, Option.bind_some, arrives]
          exact (emit_fails blames body further).mono fun _ fault =>
            fault.mono (List.subset_cons_self _ _)
      | deferred there r consumed =>
          have behindHop := delegated_fails blames behind names led
            (if (path.drop consumed).isEmpty then body else [.nested (path.drop consumed) body])
          refine behindHop.mono fun _ fault => fault.mono ?_
          split
          · next ended =>
              have whole : path.take consumed = path :=
                List.take_of_length_le (List.drop_eq_nil_iff.mp (List.isEmpty_iff.mp ended))
              rw [whole]
              exact List.subset_cons_self _ _
          · rw [Filter.fields, Filter.fields, List.append_nil, Filter.fieldsEntry,
              List.append_assoc, List.take_append_drop]
            exact List.Subset.refl _
      | unresolved there segment =>
          have strays := Catalog.strays_of_course [] false led
            fun compared => Bool.noConfusion compared
          rw [List.append_nil] at strays
          refine .ofExcept ((emitUnresolved_raises behind strays).mono fun _ fault =>
            fault.mono ?_)
          simp [Filter.fieldsEntry]

theorem emitAll_fails (blames : Blames f.catalog f.policy collection delegate) :
    ∀ (children : List (List Entry)) {here : Anchor} {before : List String},
    f.catalog.arrival true collection before = some here.collection →
    (emitAll f delegate here children).Fails
      (f.catalog.Fault f.policy collection (Filter.fieldsAll before children))
  | [], _, _, _ => .pure _
  | child :: rest, here, before, behind => by
      have first := (emit_fails blames child behind).mono fun _ fault =>
        fault.mono (List.subset_append_left _ (Filter.fieldsAll before rest))
      have later := (emitAll_fails blames rest behind).mono fun _ fault =>
        fault.mono (List.subset_append_right (Filter.fields before child) _)
      exact .bind first fun _ => .bind later fun _ => .pure _

end

/-- Compiling in a scope fails as the second walk does. -/
theorem inScope_fails (blames : Blames f.catalog f.policy collection delegate)
    {before : List String} {start : String}
    (behind : f.catalog.arrival true collection before = some start) (filter : Filter) :
    (inScope f delegate start filter).Fails
      (f.catalog.Fault f.policy collection (Filter.fields before filter)) := by
  intro t e failed
  have second : (emit f delegate (.root start) filter).Fails _ := emit_fails blames filter behind
  simp only [inScope] at failed
  split at failed <;> cases failed
  next ran => exact second (discover f (.root start) filter ⟨t, []⟩) e (by rw [ran])

end Emission

end Compile

/-! ### Whole filters -/

namespace Filter

variable {cat : Catalog} {policy : PathPolicy} {collection : String}

/-- What is wrong when a filter that is compiled on a collection fails: the collection is not there,
or there is a fault of some fields, which are given by their paths from where a statement starts. -/
def Failing (cat : Catalog) (policy : PathPolicy) (start collection : String) (fields : List Field)
    (e : CompileError) : Prop :=
  e = .unknownCollection start ∧ start ∉ cat.names ∨ cat.Fault policy collection fields e

/-- Compiling a filter for a sub-select behind a path. -/
theorem compileInner_fails {before : List String} {start : String}
    (behind : cat.arrival true collection before = some start) (filter : Filter) :
    (compileInner cat policy start filter).Fails
      (Failing cat policy start collection (fields before filter)) := by
  have required : Raises (cat.requireCollection start)
      (Failing cat policy start collection (fields before filter)) :=
    (Catalog.requireCollection_raises start).mono fun _ => .inl
  refine .bind (.ofExcept required) fun _ => .ofTotal_bind fun t => ?_
  have none_blames : Compile.Blames cat policy collection none := fun d none => by cases none
  exact (Compile.inScope_fails (f := ⟨cat, policy, ⟨_, true⟩⟩) none_blames behind filter).mono
    fun _ => .inr

/-- A filter behind a reverse hop fails with a fault of its fields. -/
theorem subselect_fails {r : Relation} (known : r ∈ cat.relations) {before : List String}
    (behind : cat.arrival true collection before = some r.manyCollection) (filter : Filter) :
    (subselect cat policy r filter).Fails (cat.Fault policy collection (fields before filter)) := by
  refine .bind ((compileInner_fails behind filter).mono ?_) fun _ => .pure _
  rintro e (⟨rfl, gone⟩ | fault)
  · exact .missing known gone
  · exact fault

theorem blames_membership (cat : Catalog) (policy : PathPolicy) (collection : String) :
    Compile.Blames cat policy collection (some (membership cat policy)) := by
  rintro d mem there r child before known behind
  cases mem
  exact .bind (subselect_fails known behind child) fun _ => .pure _

theorem compileOuter_fails (filter : Filter) :
    (compileOuter cat policy collection filter).Fails
      (Failing cat policy collection collection (fields [] filter)) := by
  refine .bind (.ofExcept ((Catalog.requireCollection_raises collection).mono fun _ => .inl))
    fun _ => ?_
  exact (Compile.inScope_fails (f := ⟨cat, policy, Scope.root⟩)
    (blames_membership cat policy collection) rfl filter).mono fun _ => .inr

/-- A compilation fails with a collection that is missing or with a fault of the filter's fields. -/
theorem compile_fails (subQuery : Bool) (filter : Filter) :
    (filter.compile cat policy subQuery collection).Fails
      (Failing cat policy collection collection (fields [] filter)) := by
  unfold compile
  split
  · exact compileInner_fails rfl filter
  · exact compileOuter_fails filter

end Filter

end FilterSql
