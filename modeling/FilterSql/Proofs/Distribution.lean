import FilterSql.Proofs.Following

/-!
Nested filters on joined paths distribute.

A nested filter may be replaced by its entries with the path in front of each of their fields
(`Filter.behind`), in any place of a filter (`Filter.Distributed`), if all hops of the path are
joined there and the nested filter has a field that matters. Both walks treat the two alike: the
path is followed by the first field, and from then on all of its aliases are given out
(`Compile.Spreads`). So the joins, the predicate and the aliases are the same
(`Filter.compile_distributed`). Only the wording of an error may differ, since it names the path.
-/

namespace FilterSql

namespace Step

variable {σ τ α β : Type}

instance : LawfulMonad (Step σ) := by
  refine .mk' _ (fun m => ?_) (fun _ _ => rfl) (fun m _ _ => ?_)
  · funext s
    change (m >>= pure) s = m s
    rw [bind_apply]
    rcases m s with ⟨e | a, s'⟩ <;> rfl
  · funext s
    simp only [bind_apply]
    rcases m s with ⟨e | a, s'⟩ <;> rfl

/-- Computations that leave the same state behind and give the same result, or that both fail, with
whatever error. -/
def Agrees (m m' : Step σ α) : Prop :=
  ∀ s, m s = m' s ∨ ∃ e e' s', m s = (.error e, s') ∧ m' s = (.error e', s')

namespace Agrees

theorem refl (m : Step σ α) : m.Agrees m := fun _ => .inl rfl

theorem bind {m m' : Step σ α} {k k' : α → Step σ β} (first : m.Agrees m')
    (second : ∀ a, (k a).Agrees (k' a)) : (m >>= k).Agrees (m' >>= k') := by
  intro s
  rw [bind_apply, bind_apply]
  rcases first s with same | ⟨e, e', s', failed, failed'⟩
  · rw [same]
    rcases m' s with ⟨e | a, s'⟩
    · exact .inl rfl
    · exact second a s'
  · rw [failed, failed']
    exact .inr ⟨e, e', s', rfl, rfl⟩

/-- Results are rewritten alike. -/
theorem map {m m' : Step σ α} (agrees : m.Agrees m') (g : α → β) :
    (m >>= fun a => Pure.pure (g a)).Agrees (m' >>= fun a => Pure.pure (g a)) :=
  agrees.bind fun a => refl (Pure.pure (g a))

theorem ofExcept {x x' : Except CompileError α}
    (agrees : x = x' ∨ ∃ e e', x = .error e ∧ x' = .error e') :
    (Step.ofExcept x : Step σ α).Agrees (Step.ofExcept x') := by
  intro s
  rcases agrees with rfl | ⟨e, e', rfl, rfl⟩
  · exact .inl rfl
  · exact .inr ⟨e, e', s, rfl, rfl⟩

theorem within {m m' : Step σ α} (agrees : m.Agrees m') (get : τ → σ) (put : σ → τ → τ) :
    (Step.within get put m).Agrees (Step.within get put m') := by
  intro t
  unfold Step.within
  rcases agrees (get t) with same | ⟨e, e', s', failed, failed'⟩
  · exact .inl (by rw [same])
  · rw [failed, failed']
    exact .inr ⟨e, e', _, rfl, rfl⟩

end Agrees

end Step

/-! ### A path in front of a filter -/

namespace Filter

mutual

/-- A filter with a path in front of each of its fields. -/
def behind (path : List String) : List Entry → List Entry
  | [] => []
  | e :: rest => behindEntry path e :: behind path rest

/-- An entry with a path in front of each of its fields. A filter under a field stays as it is. -/
def behindEntry (path : List String) : Entry → Entry
  | .group op children => .group op (behindAll path children)
  | .leaf further operator operand => .leaf (path ++ further) operator operand
  | .nested further body => .nested (path ++ further) body

/-- Combined filters with a path in front of each field. -/
def behindAll (path : List String) : List (List Entry) → List (List Entry)
  | [] => []
  | child :: rest => behind path child :: behindAll path rest

end

theorem any_isEmpty_behindAll (path : List String) (children : List Filter) :
    (behindAll path children).any Filter.isEmpty = children.any Filter.isEmpty := by
  induction children with
  | nil => rfl
  | cons child rest ih =>
      have same : Filter.isEmpty (behind path child) = Filter.isEmpty child := by
        cases child <;> rfl
      simp only [behindAll, List.any_cons, same, ih]

theorem shortCircuits_behindAll (path : List String) (op : Connective) (children : List Filter) :
    Entry.shortCircuits op (behindAll path children) = Entry.shortCircuits op children := by
  simp only [Entry.shortCircuits, any_isEmpty_behindAll]

end Filter

namespace Compile

variable {f : Frame} {α β : Type} {here : Anchor} {path : List String}

/-- A computation at the end of a path, which is the same as another one that starts in front of the
path; if nothing is alive in it, both do nothing. -/
structure Spreads (f : Frame) (here : Anchor) (path : List String) (live : Prop)
    (inner : Anchor → Step Walk α) (outer : Step Walk α) : Prop where
  alive : live → (f.ahead here path inner).Agrees outer
  dead : ¬ live → ∃ a, (∀ there, inner there = pure a) ∧ outer = pure a

namespace Spreads

variable {live live' : Prop} {inner : Anchor → Step Walk α} {outer : Step Walk α}

theorem congr (spreads : Spreads f here path live inner outer) (same : live ↔ live') :
    Spreads f here path live' inner outer :=
  ⟨fun alive => spreads.alive (same.mpr alive), fun dead => spreads.dead fun alive =>
    dead (same.mp alive)⟩

theorem pure (a : α) : Spreads f here path False (fun _ => Pure.pure a) (Pure.pure a) :=
  ⟨False.elim, fun _ => ⟨a, fun _ => rfl, rfl⟩⟩

theorem of_agrees (agrees : (f.ahead here path inner).Agrees outer) :
    Spreads f here path True inner outer :=
  ⟨fun _ => agrees, fun dead => absurd trivial dead⟩

/-- In a computation in two steps the path is followed by the first step that is alive. -/
theorem bind {k : α → Anchor → Step Walk β} {k' : α → Step Walk β}
    (first : Spreads f here path live inner outer)
    (second : ∀ a, Spreads f here path live' (k a) (k' a))
    (growing : ∀ there, Growing (inner there)) :
    Spreads f here path (live ∨ live') (fun there => inner there >>= fun a => k a there)
      (outer >>= k') := by
  by_cases early : live
  · refine ⟨fun _ => ?_, fun dead => absurd (.inl early) dead⟩
    by_cases late : live'
    · rw [ahead_bind growing]
      exact (first.alive early).bind fun a => (second a).alive late
    · choose b inert inert' using fun a => (second a).dead late
      simp only [inert, funext inert']
      have once : (f.ahead here path fun there => inner there >>= fun a => Pure.pure (b a)) =
          f.ahead here path inner >>= fun a => Pure.pure (b a) := by
        funext w
        rfl
      rw [once]
      exact (first.alive early).map b
  · obtain ⟨a, inert, inert'⟩ := first.dead early
    simp only [inert, inert', pure_bind]
    exact (second a).congr (by simp [early])

/-- Results are rewritten alike. -/
theorem map (spreads : Spreads f here path live inner outer)
    (growing : ∀ there, Growing (inner there)) (g : α → β) :
    Spreads f here path live (fun there => inner there >>= fun a => Pure.pure (g a))
      (outer >>= fun a => Pure.pure (g a)) :=
  (spreads.bind (fun a => pure (g a)) growing).congr (iff_of_eq (or_false live))

end Spreads

/-! ### The first walk -/

/-- The first walk as a step. -/
def discovers (f : Frame) (here : Anchor) (entries : List Entry) : Step Walk Unit :=
  Step.modify (discover f here entries)

/-- The first walk on combined filters as a step. -/
def discoversAll (f : Frame) (here : Anchor) (children : List (List Entry)) : Step Walk Unit :=
  Step.modify (discoverAll f here children)

/-- The first walk on one entry as a step. -/
def discoversEntry (f : Frame) (here : Anchor) (e : Entry) : Step Walk Unit :=
  Step.modify (discoverEntry f here e)

theorem discovers_growing (f : Frame) (here : Anchor) (entries : List Entry) :
    Growing (discovers f here entries) := fun t _ grows => (kept_grows f t).discover entries grows

theorem discoversEntry_growing (f : Frame) (here : Anchor) (e : Entry) :
    Growing (discoversEntry f here e) := fun t _ grows => (kept_grows f t).discoverEntry e grows

/-- What the first walk does at the end of the path of a nested filter. -/
def discoversAt (f : Frame) (body : List Entry) : Resolution → Step Walk Unit
  | .reached there => discovers f there body
  | _ => pure ()

theorem discoversEntry_nested (f : Frame) (here : Anchor) (path : List String)
    (body : List Entry) : discoversEntry f here (.nested path body) =
      Step.ofTotal (f.follow here path) >>= discoversAt f body := by
  funext w
  simp only [discoversEntry, Step.modify, discoverEntry, Step.bind_apply, Step.ofTotal]
  rcases f.follow here path w with ⟨_ | _ | _, w'⟩ <;> rfl

@[simp] theorem discoversAt_shift (f : Frame) (body : List Entry) (n : Nat)
    (resolution : Resolution) :
    discoversAt f body (resolution.shift n) = discoversAt f body resolution := by
  cases resolution <;> rfl

theorem discoversEntry_group (f : Frame) (here : Anchor) (op : Connective)
    (children : List Filter) : discoversEntry f here (.group op children) =
      if Entry.shortCircuits op children then pure () else discoversAll f here children := by
  funext w
  simp only [discoversEntry, Step.modify, discoverEntry]
  split <;> rfl

mutual

/-- The joins of a filter at the end of a path are those of the filter with the path in front. -/
theorem discovers_spreads {table : String}
    (joined : f.catalog.arrival f.scope.joinsReverse here.collection path = some table) :
    ∀ (entries : List Entry), Filter.Pathed entries →
    Spreads f here path (Filter.fields [] entries ≠ []) (fun there => discovers f there entries)
      (discovers f here (Filter.behind path entries))
  | [], _ => (Spreads.pure ()).congr (by simp [Filter.fields])
  | e :: rest, proper => by
      have first := discoversEntry_spreads joined e proper.1
      have later := discovers_spreads joined rest proper.2
      refine (first.bind (fun _ => later) fun there => discoversEntry_growing f there e).congr ?_
      rw [Filter.fields, ne_eq, ne_eq, ne_eq, List.append_eq_nil_iff, not_and_or]

theorem discoversEntry_spreads {table : String}
    (joined : f.catalog.arrival f.scope.joinsReverse here.collection path = some table) :
    ∀ (e : Entry), Filter.PathedEntry e →
    Spreads f here path (Filter.fieldsEntry [] e ≠ []) (fun there => discoversEntry f there e)
      (discoversEntry f here (Filter.behindEntry path e))
  | .group op children, proper => by
      simp only [discoversEntry_group, Filter.behindEntry, Filter.shortCircuits_behindAll,
        Filter.fieldsEntry]
      split
      · exact (Spreads.pure ()).congr (by simp)
      · exact discoversAll_spreads joined children proper
  | .leaf further operator operand, proper => by
      have same := follow_append joined further.dropLast fun _ => (pure () : Step Walk Unit)
      rw [← List.dropLast_append_of_ne_nil proper] at same
      exact (Spreads.of_agrees (same ▸ .refl _)).congr (by simp [Filter.fieldsEntry])
  | .nested further body, proper => by
      have same := follow_append joined further (discoversAt f body)
      simp only [discoversAt_shift, ← discoversEntry_nested] at same
      exact (Spreads.of_agrees (same ▸ .refl _)).congr (by simp [Filter.fieldsEntry])

theorem discoversAll_spreads {table : String}
    (joined : f.catalog.arrival f.scope.joinsReverse here.collection path = some table) :
    ∀ (children : List (List Entry)), Filter.PathedAll children →
    Spreads f here path (Filter.fieldsAll [] children ≠ [])
      (fun there => discoversAll f there children)
      (discoversAll f here (Filter.behindAll path children))
  | [], _ => (Spreads.pure ()).congr (by simp [Filter.fieldsAll])
  | child :: rest, proper => by
      have first := discovers_spreads joined child proper.1
      have later := discoversAll_spreads joined rest proper.2
      refine (first.bind (fun _ => later) fun there => discovers_growing f there child).congr ?_
      rw [Filter.fieldsAll, ne_eq, ne_eq, ne_eq, List.append_eq_nil_iff, not_and_or]

end

/-! ### The second walk -/

section Emission

variable {delegate : Option Delegate}

theorem emitUnresolved_agrees (f : Frame) (start start' : String) (path path' : List String)
    (segment : String) :
    (Step.ofExcept (f.emitUnresolved start path segment) : Step Walk _).Agrees
      (Step.ofExcept (f.emitUnresolved start' path' segment)) := by
  refine .ofExcept ?_
  unfold Frame.emitUnresolved
  cases f.policy
  · exact .inl rfl
  · exact .inr ⟨_, _, rfl, rfl⟩

theorem emitLeaf_agrees (f : Frame) (start start' : String) (there : Anchor)
    {path path' : List String} (same : path'.getLast? = path.getLast?) (operator : Operator)
    (operand : Json) :
    (Step.ofExcept (f.emitLeaf start there path operator operand) : Step Walk _).Agrees
      (Step.ofExcept (f.emitLeaf start' there path' operator operand)) := by
  refine .ofExcept ?_
  unfold Frame.emitLeaf
  rw [same]
  split
  · exact .inl rfl
  · split
    · exact .inr ⟨_, _, rfl, rfl⟩
    · split
      · exact .inr ⟨_, _, rfl, rfl⟩
      · exact .inl rfl

theorem comparesAt_agrees (f : Frame) (delegate : Option Delegate) (start start' : String)
    (before : List String) {path : List String} (proper : path ≠ []) (operator : Operator)
    (operand : Json) (resolution : Resolution) :
    (comparesAt f delegate start path operator operand resolution).Agrees
      (comparesAt f delegate start' (before ++ path) operator operand
        (resolution.shift before.length)) := by
  cases resolution with
  | reached there =>
      refine emitLeaf_agrees f start start' there ?_ operator operand
      rw [List.getLast?_append_of_ne_nil _ proper]
  | deferred there r consumed =>
      simp only [comparesAt, Resolution.shift, Nat.add_comm consumed, ← List.drop_drop,
        List.drop_left]
      exact .refl _
  | unresolved there segment => exact emitUnresolved_agrees f start start' _ _ segment

theorem nestsAt_agrees (f : Frame) (delegate : Option Delegate) (start start' : String)
    (before path : List String) (body : List Entry) (resolution : Resolution) :
    (nestsAt f delegate start path body resolution).Agrees
      (nestsAt f delegate start' (before ++ path) body (resolution.shift before.length)) := by
  cases resolution with
  | reached there => exact .refl _
  | deferred there r consumed =>
      simp only [nestsAt, Resolution.shift, Nat.add_comm consumed, ← List.drop_drop,
        List.drop_left]
      exact .refl _
  | unresolved there segment => exact emitUnresolved_agrees f start start' _ _ segment

mutual

/-- The predicates of a filter at the end of a path are those of the filter with the path in
front. -/
theorem emit_spreads {table : String} (delivering : Delivering delegate)
    (joined : f.catalog.arrival f.scope.joinsReverse here.collection path = some table) :
    ∀ (entries : List Entry), Filter.Pathed entries →
    Spreads f here path (Filter.fields [] entries ≠ []) (fun there => emit f delegate there entries)
      (emit f delegate here (Filter.behind path entries))
  | [], _ => (Spreads.pure []).congr (by simp [Filter.fields])
  | e :: rest, proper => by
      have first := emitEntry_spreads delivering joined e proper.1
      have later := emit_spreads delivering joined rest proper.2
      refine (first.bind (fun ps => later.map (fun there => emit_growing delivering rest there)
        (ps ++ ·)) fun there => emitEntry_growing delivering e there).congr ?_
      rw [Filter.fields, ne_eq, ne_eq, ne_eq, List.append_eq_nil_iff, not_and_or]

theorem emitEntry_spreads {table : String} (delivering : Delivering delegate)
    (joined : f.catalog.arrival f.scope.joinsReverse here.collection path = some table) :
    ∀ (e : Entry), Filter.PathedEntry e →
    Spreads f here path (Filter.fieldsEntry [] e ≠ []) (fun there => emitEntry f delegate there e)
      (emitEntry f delegate here (Filter.behindEntry path e))
  | .group op children, proper => by
      simp only [emitEntry, Filter.behindEntry, Filter.shortCircuits_behindAll,
        Filter.fieldsEntry]
      split
      · exact (Spreads.pure []).congr (by simp)
      · exact (emitAll_spreads delivering joined children proper).map
          (fun there => emitAll_growing delivering children there) _
  | .leaf further operator operand, proper => by
      refine (Spreads.of_agrees ?_).congr (by simp [Filter.fieldsEntry])
      simp only [Filter.behindEntry, emitEntry_leaf]
      rw [List.dropLast_append_of_ne_nil proper, ← follow_append joined]
      exact .bind (.refl _) fun there => .bind (.refl _) fun led =>
        comparesAt_agrees f delegate _ _ path proper operator operand led
  | .nested further body, proper => by
      refine (Spreads.of_agrees ?_).congr (by simp [Filter.fieldsEntry])
      simp only [Filter.behindEntry, emitEntry_nested]
      rw [← follow_append joined]
      exact .bind (.refl _) fun there => .bind (.refl _) fun led =>
        nestsAt_agrees f delegate _ _ path further body led

theorem emitAll_spreads {table : String} (delivering : Delivering delegate)
    (joined : f.catalog.arrival f.scope.joinsReverse here.collection path = some table) :
    ∀ (children : List (List Entry)), Filter.PathedAll children →
    Spreads f here path (Filter.fieldsAll [] children ≠ [])
      (fun there => emitAll f delegate there children)
      (emitAll f delegate here (Filter.behindAll path children))
  | [], _ => (Spreads.pure []).congr (by simp [Filter.fieldsAll])
  | child :: rest, proper => by
      have first := emit_spreads delivering joined child proper.1
      have later := emitAll_spreads delivering joined rest proper.2
      refine (first.bind (fun ps => later.map (fun there => emitAll_growing delivering rest there)
        fun items => if ps.isEmpty then items else Predicate.group .and ps :: items)
        fun there => emit_growing delivering child there).congr ?_
      rw [Filter.fieldsAll, ne_eq, ne_eq, ne_eq, List.append_eq_nil_iff, not_and_or]

end

end Emission

end Compile

/-! ### One place -/

namespace Filter

/-- In one place of a filter on a collection, a nested filter on a joined path has become its
entries, with the path in front of each field. Something must be there that follows the path, or no
join would be made for it. -/
inductive Distributed (cat : Catalog) : Bool → String → Filter → Filter → Prop where
  | here {joinsReverse : Bool} {collection table : String} (before after : Filter)
      {path : List String} {body : Filter}
      (joined : cat.arrival joinsReverse collection path = some table)
      (proper : Pathed body) (some : fields [] body ≠ []) :
      Distributed cat joinsReverse collection (before ++ .nested path body :: after)
        (before ++ (behind path body ++ after))
  /-- in one of combined filters -/
  | group {joinsReverse : Bool} {collection : String} (before after : Filter) (op : Connective)
      (earlier later : List Filter) {child child' : Filter}
      (inside : Distributed cat joinsReverse collection child child') :
      Distributed cat joinsReverse collection
        (before ++ .group op (earlier ++ child :: later) :: after)
        (before ++ .group op (earlier ++ child' :: later) :: after)
  /-- in a nested filter whose path is joined -/
  | nested {joinsReverse : Bool} {collection table : String} (before after : Filter)
      {path : List String} {body body' : Filter}
      (joined : cat.arrival joinsReverse collection path = some table)
      (inside : Distributed cat joinsReverse table body body') :
      Distributed cat joinsReverse collection (before ++ .nested path body :: after)
        (before ++ .nested path body' :: after)
  /-- in a nested filter behind a reverse hop, which becomes a sub-select -/
  | deferred {collection table : String} (before after : Filter) {path : List String}
      {body body' : Filter} (stops : cat.arrival false collection path = none)
      (leads : cat.arrival true collection path = some table)
      (inside : Distributed cat true table body body') :
      Distributed cat false collection (before ++ .nested path body :: after)
        (before ++ .nested path body' :: after)

end Filter

namespace Compile

variable {f : Frame} {delegate : Option Delegate} {here : Anchor} {α : Type}

theorem discovers_append (f : Frame) (here : Anchor) (es es' : List Entry) :
    discovers f here (es ++ es') = discovers f here es >>= fun _ => discovers f here es' := by
  induction es with
  | nil => rfl
  | cons e rest ih =>
      have first : discovers f here (e :: rest ++ es') =
          discoversEntry f here e >>= fun _ => discovers f here (rest ++ es') := rfl
      rw [first, ih]
      rfl

theorem emit_append (f : Frame) (delegate : Option Delegate) (here : Anchor)
    (es es' : List Entry) : emit f delegate here (es ++ es') =
      emit f delegate here es >>= fun ps => emit f delegate here es' >>= fun qs =>
        pure (ps ++ qs) := by
  induction es with
  | nil =>
      rw [List.nil_append, emit, pure_bind]
      simp only [List.nil_append]
      exact (bind_pure _).symm
  | cons e rest ih =>
      rw [List.cons_append, emit, emit, ih]
      simp only [bind_assoc, pure_bind, List.append_assoc]

theorem discovers_singleton (f : Frame) (here : Anchor) (e : Entry) :
    discovers f here [e] = discoversEntry f here e := rfl

theorem emit_singleton (f : Frame) (delegate : Option Delegate) (here : Anchor) (e : Entry) :
    emit f delegate here [e] = emitEntry f delegate here e := by
  simp only [emit, pure_bind, List.append_nil]
  exact bind_pure _

/-- Filters that both walks treat alike. -/
structure Matches (f : Frame) (delegate : Option Delegate) (here : Anchor)
    (filter filter' : Filter) : Prop where
  discovers : (discovers f here filter).Agrees (discovers f here filter')
  emits : (emit f delegate here filter).Agrees (emit f delegate here filter')
  isEmpty_eq : Filter.isEmpty filter = Filter.isEmpty filter'

theorem Matches.among {es es' : List Entry} (one : Matches f delegate here es es')
    (before after : Filter) :
    Matches f delegate here (before ++ (es ++ after)) (before ++ (es' ++ after)) where
  discovers := by
    simp only [discovers_append]
    exact .bind (.refl _) fun _ => .bind one.discovers fun _ => .refl _
  emits := by
    simp only [emit_append]
    exact .bind (.refl _) fun _ => .map (.bind one.emits fun _ => .refl _) _
  isEmpty_eq := by
    have same := one.isEmpty_eq
    rw [Bool.eq_iff_iff] at same ⊢
    simp only [Filter.isEmpty, List.isEmpty_iff, List.append_eq_nil_iff] at same ⊢
    rw [same]

section Joined

variable {path : List String} {table : String}
  (joined : f.catalog.arrival f.scope.joinsReverse here.collection path = some table)

include joined

/-- A path whose hops are all joined is followed to its end. -/
theorem bind_follow_joined (k : Resolution → Step Walk α) :
    Step.ofTotal (f.follow here path) >>= k =
      f.ahead here path fun there => k (.reached there) := by
  funext w
  obtain ⟨there, -, led⟩ := Walk.follow_joined f.catalog f.scope joined 0 w
  have led : (f.follow here path w).1 = .reached there := led
  rw [ahead_apply, Step.bind_apply, led]
  simp only [Step.ofTotal, led, Resolution.anchor]

theorem ahead_agrees {k k' : Anchor → Step Walk α}
    (agrees : ∀ there : Anchor, there.collection = table → (k there).Agrees (k' there)) :
    (f.ahead here path k).Agrees (f.ahead here path k') := by
  intro w
  obtain ⟨there, arrived, led⟩ := Walk.follow_joined f.catalog f.scope joined 0 w
  have led : (f.follow here path w).1 = .reached there := led
  rw [ahead_apply, ahead_apply, led]
  exact agrees there arrived _

/-- A nested filter on a joined path is walked like its entries with the path in front. -/
theorem matches_behind (delivering : Delivering delegate) {body : Filter}
    (proper : Filter.Pathed body) (some : Filter.fields [] body ≠ []) :
    Matches f delegate here [.nested path body] (Filter.behind path body) where
  discovers := by
    rw [discovers_singleton, discoversEntry_nested, bind_follow_joined joined]
    exact (discovers_spreads joined body proper).alive some
  emits := by
    rw [emit_singleton, emitEntry_nested, bind_follow_joined joined]
    exact (emit_spreads delivering joined body proper).alive some
  isEmpty_eq := by
    cases body with
    | nil => exact absurd rfl some
    | cons e rest => rfl

/-- Nested filters on a joined path are walked alike if they are at the end of it. -/
theorem matches_nested {body body' : Filter}
    (inside : ∀ there : Anchor, there.collection = table → Matches f delegate there body body') :
    Matches f delegate here [.nested path body] [.nested path body'] where
  discovers := by
    rw [discovers_singleton, discovers_singleton, discoversEntry_nested, discoversEntry_nested,
      bind_follow_joined joined, bind_follow_joined joined]
    exact ahead_agrees joined fun there arrived => (inside there arrived).discovers
  emits := by
    rw [emit_singleton, emit_singleton, emitEntry_nested, emitEntry_nested,
      bind_follow_joined joined, bind_follow_joined joined]
    exact ahead_agrees joined fun there arrived => (inside there arrived).emits
  isEmpty_eq := rfl

end Joined

section Combined

variable {child child' : Filter} (one : Matches f delegate here child child')
  (earlier later : List Filter)

include one

theorem Matches.discoversAll :
    (discoversAll f here (earlier ++ child :: later)).Agrees
      (discoversAll f here (earlier ++ child' :: later)) := by
  induction earlier with
  | nil => exact Step.Agrees.bind one.discovers fun _ => .refl (Compile.discoversAll f here later)
  | cons first rest ih =>
      exact Step.Agrees.bind (.refl (Compile.discovers f here first)) fun _ => ih

theorem Matches.emitAll :
    (emitAll f delegate here (earlier ++ child :: later)).Agrees
      (emitAll f delegate here (earlier ++ child' :: later)) := by
  induction earlier with
  | nil => exact .bind one.emits fun _ => .refl _
  | cons first rest ih => exact .bind (.refl _) fun _ => .bind ih fun _ => .refl _

theorem Matches.group (op : Connective) :
    Matches f delegate here [.group op (earlier ++ child :: later)]
      [.group op (earlier ++ child' :: later)] := by
  have short : Entry.shortCircuits op (earlier ++ child :: later) =
      Entry.shortCircuits op (earlier ++ child' :: later) := by
    simp [Entry.shortCircuits, one.isEmpty_eq]
  refine ⟨?_, ?_, rfl⟩
  · rw [discovers_singleton, discovers_singleton, discoversEntry_group, discoversEntry_group, short]
    split
    · exact .refl _
    · exact one.discoversAll earlier later
  · rw [emit_singleton, emit_singleton, emitEntry, emitEntry, short]
    split
    · exact .refl _
    · exact .map (one.emitAll earlier later) _

end Combined

/-- A path with a reverse hop that is not joined stops there, and the rest of it leads on from the
many side. -/
theorem follow_deferred {path : List String} {table : String}
    (outer : f.scope.joinsReverse = false)
    (stops : f.catalog.arrival false here.collection path = none)
    (leads : f.catalog.arrival true here.collection path = some table) (w : Walk) :
    ∃ there r consumed, (f.follow here path w).1 = .deferred there r consumed ∧
      f.catalog.arrival true r.manyCollection (path.drop consumed) = some table := by
  obtain ⟨names, led⟩ := f.follow_course here path w
  rw [outer] at led
  cases course : f.catalog.course false 0 (.root here.collection) path with
  | reached there =>
      have located := (Catalog.locates_root here.collection).course course
      rw [Course.place, Catalog.Locates, Catalog.hops_of_course_reached course, Place.root,
        List.nil_append, stops] at located
      cases located
  | unresolved there segment =>
      have located := (Catalog.locates_root here.collection).course course
      obtain ⟨⟨after, eq⟩, unrelated⟩ := Catalog.hops_of_course_unresolved course
      rw [Place.root, List.nil_append] at eq
      rw [Course.place, Catalog.Locates] at located
      simp [eq, Catalog.arrival_append, Catalog.arrival_true located, Catalog.arrival,
        Catalog.link?, unrelated] at leads
  | deferred there r consumed =>
      rw [course] at led
      refine ⟨_, r, consumed, led, ?_⟩
      have arrived := (Catalog.arrival_of_course_deferred course).2
      rw [← List.take_append_drop consumed path, Catalog.arrival_append, arrived] at leads
      exact leads

/-- What is asked of a delegate: it makes no difference between filters of which one is distributed
and the other one is not. -/
def Uniform (cat : Catalog) (delegate : Option Delegate) : Prop :=
  ∀ d ∈ delegate, ∀ (there : Anchor) (r : Relation) (child child' : Filter),
    Filter.Distributed cat true r.manyCollection child child' →
    (d there r child).Agrees (d there r child')

/-- Nested filters behind a reverse hop become sub-selects, which differ in nothing. -/
theorem matches_deferred {cat : Catalog} (uniform : Uniform cat delegate) {path : List String}
    {table : String} {body body' : Filter} (catalog : f.catalog = cat)
    (outer : f.scope.joinsReverse = false)
    (stops : cat.arrival false here.collection path = none)
    (leads : cat.arrival true here.collection path = some table)
    (inside : Filter.Distributed cat true table body body') :
    Matches f delegate here [.nested path body] [.nested path body'] := by
  subst catalog
  refine ⟨?_, ?_, rfl⟩
  · intro w
    rw [discovers_singleton, discovers_singleton, discoversEntry_nested, discoversEntry_nested]
    obtain ⟨there, r, consumed, led, -⟩ := follow_deferred outer stops leads w
    refine .inl ?_
    simp only [Step.bind_apply, Step.ofTotal, led, discoversAt]
  · intro w
    rw [emit_singleton, emit_singleton, emitEntry_nested, emitEntry_nested]
    obtain ⟨there, r, consumed, led, rest⟩ := follow_deferred outer stops leads w
    simp only [Step.bind_apply, Step.ofTotal, led, nestsAt]
    have children : Filter.Distributed f.catalog true r.manyCollection
        (if (path.drop consumed).isEmpty then body else [.nested (path.drop consumed) body])
        (if (path.drop consumed).isEmpty then body' else [.nested (path.drop consumed) body']) := by
      split
      · next none =>
          rw [List.isEmpty_iff.mp none] at rest
          cases rest
          exact inside
      · exact .nested [] [] rest inside
    cases delegate with
    | none => exact .inl rfl
    | some d =>
        exact Step.Agrees.bind ((uniform d rfl there r _ _ children).within _ _)
          (fun _ => .refl _) _

/-- Both walks treat a filter and its distributed form alike. -/
theorem matches_distributed {cat : Catalog} (uniform : Uniform cat delegate)
    (delivering : Delivering delegate) {joinsReverse : Bool} {collection : String}
    {filter filter' : Filter}
    (distributed : Filter.Distributed cat joinsReverse collection filter filter')
    (catalog : f.catalog = cat) (mode : f.scope.joinsReverse = joinsReverse)
    (start : here.collection = collection) : Matches f delegate here filter filter' := by
  induction distributed generalizing here with
  | here before after joined proper some =>
      subst catalog mode start
      exact (matches_behind joined delivering proper some).among before after
  | group before after op earlier later _ ih =>
      exact ((ih mode start).group earlier later op).among before after
  | nested before after joined _ ih =>
      subst catalog mode start
      exact (matches_nested joined fun there arrived => ih rfl arrived).among before after
  | deferred before after stops leads inside _ =>
      subst start
      exact (matches_deferred uniform catalog mode stops leads inside).among before after

theorem Matches.discover_eq {filter filter' : Filter}
    (alike : Matches f delegate here filter filter') (w : Walk) :
    discover f here filter w = discover f here filter' w := by
  rcases alike.discovers w with same | ⟨e, e', w', failed, -⟩
  · exact congrArg Prod.snd same
  · cases failed

theorem inScope_agrees {cat : Catalog} (uniform : Uniform cat delegate)
    (delivering : Delivering delegate) {joinsReverse : Bool} {collection : String}
    {filter filter' : Filter}
    (distributed : Filter.Distributed cat joinsReverse collection filter filter')
    (catalog : f.catalog = cat) (mode : f.scope.joinsReverse = joinsReverse) :
    (inScope f delegate collection filter).Agrees (inScope f delegate collection filter') := by
  have alike : Matches f delegate (.root collection) filter filter' :=
    matches_distributed uniform delivering distributed catalog mode rfl
  intro t
  simp only [inScope, alike.discover_eq]
  rcases alike.emits (discover f (.root collection) filter' ⟨t, []⟩) with
    same | ⟨e, e', w, failed, failed'⟩
  · rw [same]
    exact .inl rfl
  · rw [failed, failed']
    exact .inr ⟨e, e', _, rfl, rfl⟩

theorem inScope_grows (delivering : Delivering delegate) (collection : String) (filter : Filter)
    (t : AliasTable) : t.Grows (inScope f delegate collection filter t).2 := by
  have found : t.Grows (discover f (.root collection) filter ⟨t, []⟩).aliases :=
    (kept_grows f t).discover filter (.refl t)
  have grown := emit_growing (f := f) delivering filter (.root collection) t _ found
  simp only [inScope]
  generalize emit f delegate (.root collection) filter
    (discover f (.root collection) filter ⟨t, []⟩) = ran at grown
  rcases ran with ⟨e | ps, w⟩ <;> exact grown

end Compile

namespace Filter

variable {cat : Catalog} (policy : PathPolicy) {collection : String} {filter filter' : Filter}

theorem compileInner_agrees (distributed : Distributed cat true collection filter filter') :
    (compileInner cat policy collection filter).Agrees
      (compileInner cat policy collection filter') := by
  have uniform : Compile.Uniform cat none := nofun
  have delivering : Compile.Delivering none := nofun
  exact .bind (.refl _) fun _ => .bind (.refl _) fun id =>
    Compile.inScope_agrees (f := ⟨cat, policy, ⟨id, true⟩⟩) uniform delivering distributed rfl rfl

theorem uniform_membership : Compile.Uniform cat (some (membership cat policy)) := by
  rintro _ ⟨⟩ there r child child' distributed
  exact ((compileInner_agrees policy distributed).map _).map _

theorem delivering_membership : Compile.Delivering (some (membership cat policy)) := by
  rintro _ ⟨⟩ there r child t
  have inner : (compileInner cat policy r.manyCollection child).Keeps (t.Grows ·) := by
    refine .bind (.ofExcept _) fun _ => .bind ?_ fun id => ?_
    · intro s grows
      exact grows.trans (AliasTable.grows_newScope s)
    · intro s grows
      have none : Compile.Delivering none := nofun
      exact grows.trans (Compile.inScope_grows none _ child s)
  have kept : (membership cat policy there r child).Keeps (t.Grows ·) :=
    .bind (.bind inner fun _ => .pure _) fun _ => .pure _
  exact kept t (.refl t)

theorem compileOuter_agrees (distributed : Distributed cat false collection filter filter') :
    (compileOuter cat policy collection filter).Agrees
      (compileOuter cat policy collection filter') :=
  .bind (.refl _) fun _ => Compile.inScope_agrees (uniform_membership policy)
    (delivering_membership policy) distributed rfl rfl

/-- A nested filter on a joined path distributes over its entries: with the path in front of each of
its fields they are compiled to the same joins and the same predicate, with the same aliases, in any
place of a filter and from any table. -/
theorem compile_distributed {subQuery : Bool}
    (distributed : Distributed cat subQuery collection filter filter') (t : AliasTable) :
    (∀ c t', filter.compile cat policy subQuery collection t = (.ok c, t') ↔
      filter'.compile cat policy subQuery collection t = (.ok c, t')) ∧
    (filter.compile cat policy subQuery collection t).2 =
      (filter'.compile cat policy subQuery collection t).2 := by
  have agrees : (filter.compile cat policy subQuery collection).Agrees
      (filter'.compile cat policy subQuery collection) := by
    cases subQuery with
    | false => exact compileOuter_agrees policy distributed
    | true => exact compileInner_agrees policy distributed
  rcases agrees t with same | ⟨e, e', s, failed, failed'⟩
  · simp [same]
  · simp [failed, failed']

/-- Books of which the title or the author is known, the author with a nested filter. -/
def authored : Filter :=
  [.group .or [[.leaf ["title"] .eq (.string "Emma")],
    [.nested ["author"] [.leaf ["name"] .eq (.string "Ann"),
      .nested ["books"] [.leaf ["title"] .eq (.string "Persuasion")]]]]]

/-- The same with the path of the author in front of each field. -/
def authoredFlat : Filter :=
  [.group .or [[.leaf ["title"] .eq (.string "Emma")],
    [.leaf ["author", "name"] .eq (.string "Ann"),
      .nested ["author", "books"] [.leaf ["title"] .eq (.string "Persuasion")]]]]

/-- Both join the authors once and ask for the other books of the author in one sub-select. -/
theorem compile_distributed_authored :
    Distributed .library false "books" authored authoredFlat ∧
    ∃ c t', authored.compile .library .reject false "books"
        (.fresh .sequential (fun _ => 0) Catalog.library.names) = (.ok c, t') ∧
      authoredFlat.compile .library .reject false "books"
        (.fresh .sequential (fun _ => 0) Catalog.library.names) = (.ok c, t') ∧
      c.joins.map (·.qualifier) = ["aaaaa"] ∧
      (Predicate.statementsAll c.predicate.toList).map (·.collection) = ["books"] := by
  have joined : Catalog.library.arrival false "books" ["author"] = some "authors" := by decide
  have distributed : Distributed .library false "books" authored authoredFlat :=
    .group [] [] .or [[.leaf ["title"] .eq (.string "Emma")]] []
      (.here [] [] joined (by simp [Pathed, PathedEntry]) (by decide))
  refine ⟨distributed, ?_⟩
  have outcome : (authored.compile .library .reject false "books"
      (.fresh .sequential (fun _ => 0) Catalog.library.names)).1.toOption.map
        (fun c => (c.joins.map (·.qualifier),
          (Predicate.statementsAll c.predicate.toList).map (·.collection))) =
      some (["aaaaa"], ["books"]) := by decide +kernel
  rcases compiled : authored.compile .library .reject false "books"
      (.fresh .sequential (fun _ => 0) Catalog.library.names) with ⟨_ | c, t'⟩
  · simp [compiled, Except.toOption] at outcome
  · have flat := ((compile_distributed .reject distributed _).1 c t').mp compiled
    simp only [compiled, Except.toOption, Option.map_some, Option.some.injEq, Prod.mk.injEq]
      at outcome
    exact ⟨c, t', rfl, flat, outcome.1, outcome.2⟩

end Filter

end FilterSql
