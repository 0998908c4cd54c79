import FilterSql.Proofs.Discovery
import FilterSql.Proofs.Statement

/-!
What the walk that makes the predicates produces.

`Emits` relates a part of a filter to its predicates. Names of hop sequences are given to it, so it
speaks of neither alias tables nor joins; what is behind a reverse hop is left to a relation `sub`
between filters and statements. `emit_spec` shows that the second walk makes such predicates once
the first one has seen all hops, that it adds no join, and that all it does to the table is to give
out the aliases of the statements inside its predicates (`AliasTable.Opens`).
-/

namespace FilterSql

namespace Step

variable {σ α β : Type}

/-- A computation in two steps has a result if both have. -/
theorem bind_eq_ok {m : Step σ α} {k : α → Step σ β} {s s' : σ} {b : β}
    (ran : (m >>= k) s = (.ok b, s')) :
    ∃ a s₁, m s = (.ok a, s₁) ∧ k a s₁ = (.ok b, s') := by
  rw [bind_apply] at ran
  split at ran
  · next a s₁ first => exact ⟨a, s₁, first, ran⟩
  · cases ran

theorem ofExcept_eq_ok {x : Except CompileError α} {s s' : σ} {a : α}
    (ran : ofExcept x s = (.ok a, s')) : x = .ok a ∧ s' = s := by
  cases x <;> cases ran
  exact ⟨rfl, rfl⟩

end Step

namespace AliasTable

/-! ### Tables after sub-selects -/

/-- Aliases are given out in scopes of their own. -/
structure Opens (reserved : List String) (t t' : AliasTable) (given : List String) : Prop where
  sound : t'.Sound reserved
  grows : t.Grows t'
  /-- scopes opened before are left alone -/
  kept : ∀ k : AliasKey, k.scope < t.nextScope → t'.issued[k]? = t.issued[k]?
  nodup : given.Nodup
  fresh : ∀ a ∈ given, a ∉ t.taken
  taken : ∀ a ∈ given, a ∈ t'.taken

namespace Opens

variable {reserved : List String} {t t' t'' : AliasTable} {as bs : List String}

theorem refl (sound : t.Sound reserved) : t.Opens reserved t [] :=
  ⟨sound, .refl t, fun _ _ => rfl, .nil, by simp, by simp⟩

theorem trans (first : t.Opens reserved t' as) (second : t'.Opens reserved t'' bs) :
    t.Opens reserved t'' (as ++ bs) where
  sound := second.sound
  grows := first.grows.trans second.grows
  kept k early := by
    rw [second.kept k (Nat.lt_of_lt_of_le early first.grows.scopes), first.kept k early]
  nodup := by
    refine List.nodup_append.mpr ⟨first.nodup, second.nodup, ?_⟩
    rintro a mem b mem' rfl
    exact second.fresh a mem' (first.taken a mem)
  fresh a mem := by
    rcases List.mem_append.mp mem with early | late
    · exact first.fresh a early
    · intro taken
      exact second.fresh a late (first.grows.taken taken)
  taken a mem := by
    rcases List.mem_append.mp mem with early | late
    · exact second.grows.taken (first.taken a early)
    · exact second.taken a late

theorem unreserved (opens : t.Opens reserved t' as) (sound : t.Sound reserved) :
    ∀ a ∈ as, a ∉ reserved := by
  intro a mem known
  exact opens.fresh a mem (sound.reserved_taken a known)

/-- Names in scopes opened before stay as they are. -/
theorem name?_eq (opens : t.Opens reserved t' as) {scope : Nat} (early : scope < t.nextScope)
    (root : String) : t'.name? scope root = t.name? scope root := by
  funext hops
  unfold name?
  congr
  funext name field
  congr
  funext a
  exact opens.kept _ early

theorem naming_eq (opens : t.Opens reserved t' as) {scope : Nat} (early : scope < t.nextScope)
    (root : String) : t'.naming scope root = t.naming scope root := by
  funext hops
  simp [naming, opens.name?_eq early]

end Opens

end AliasTable

namespace Walk

/-- What the second walk does to the state while it makes predicates. -/
structure Emitted (reserved : List String) (w w' : Walk) (ps : List Predicate) : Prop where
  joins_eq : w'.joins = w.joins
  opens : w.aliases.Opens reserved w'.aliases (Predicate.aliasesAll ps)

namespace Emitted

variable {reserved : List String} {w w' w'' : Walk} {ps qs : List Predicate}

/-- Predicates that hold no statement leave the state alone. -/
theorem refl (sound : w.aliases.Sound reserved) (plain : Predicate.statementsAll ps = []) :
    w.Emitted reserved w ps :=
  ⟨rfl, by simpa [Predicate.aliasesAll, plain] using .refl sound⟩

theorem trans (first : w.Emitted reserved w' ps) (second : w'.Emitted reserved w'' qs) :
    w.Emitted reserved w'' (ps ++ qs) :=
  ⟨second.joins_eq.trans first.joins_eq, by
    simpa [Predicate.aliasesAll] using first.opens.trans second.opens⟩

/-- Only the statements inside the predicates count. -/
theorem congr (emitted : w.Emitted reserved w' ps)
    (same : Predicate.statementsAll qs = Predicate.statementsAll ps) : w.Emitted reserved w' qs :=
  ⟨emitted.joins_eq, by simpa [Predicate.aliasesAll, same] using emitted.opens⟩

end Emitted

/-- What is known of a walk stays known while predicates are made. -/
theorem Tracks.reopen {cat : Catalog} {reserved : List String} {base : AliasTable} {scope : Scope}
    {root : String} {w w' : Walk} {seen : List (List String)} {ps : List Predicate}
    (tracks : Tracks cat reserved base scope root w seen) (emitted : w.Emitted reserved w' ps) :
    Tracks cat reserved base scope root w' seen where
  sound := emitted.opens.sound
  rooted := tracks.rooted
  opened := Nat.lt_of_lt_of_le tracks.opened emitted.opens.grows.scopes
  grows := tracks.grows.trans emitted.opens.grows
  grown := tracks.grown
  named := by simpa [emitted.opens.name?_eq tracks.opened] using tracks.named
  linked := tracks.linked
  covered := by
    intro a field b
    rw [emitted.opens.kept _ tracks.opened, emitted.opens.name?_eq tracks.opened]
    exact tracks.covered
  joins_eq := by
    rw [emitted.joins_eq, tracks.joins_eq, emitted.opens.naming_eq tracks.opened]
  fresh := by simpa [emitted.opens.naming_eq tracks.opened] using tracks.fresh
  elsewhere k early other := by
    rw [emitted.opens.kept k (Nat.lt_of_lt_of_le early tracks.grows.scopes)]
    exact tracks.elsewhere k early other

end Walk

/-! ### The predicates of a filter -/

/-- A part of a filter: all of it, one entry, or filters that are combined. -/
inductive Part where
  | entries (entries : List Entry)
  | entry (e : Entry)
  | children (children : List (List Entry))

namespace Compile

/-- A part of a filter at a place has the given predicates, where hop sequences that are seen have
names and `sub` tells the statements of the filters behind a reverse hop. -/
inductive Emits (f : Frame) (names : List String → String) (seen : List (List String))
    (sub : Relation → Filter → Select → Prop) : Place → Part → List Predicate → Prop where
  | nil {here : Place} : Emits f names seen sub here (.entries []) []
  | cons {here : Place} {e : Entry} {rest : List Entry} {ps qs : List Predicate}
      (first : Emits f names seen sub here (.entry e) ps)
      (later : Emits f names seen sub here (.entries rest) qs) :
      Emits f names seen sub here (.entries (e :: rest)) (ps ++ qs)
  | skipped {here : Place} {op : Connective} {children : List (List Entry)}
      (short : Entry.shortCircuits op children = true) :
      Emits f names seen sub here (.entry (.group op children)) []
  | group {here : Place} {op : Connective} {children : List (List Entry)} {items : List Predicate}
      (long : Entry.shortCircuits op children = false)
      (parts : Emits f names seen sub here (.children children) items) :
      Emits f names seen sub here (.entry (.group op children))
        (if items.isEmpty then [] else [Predicate.group op items])
  | leaf {here there : Place} {path : List String} {operator : Operator} {operand : Json}
      {ps : List Predicate}
      (led : f.catalog.course f.scope.joinsReverse 0 here path.dropLast = .reached there)
      (stood : there.hops = [] ∨ there.hops ∈ seen)
      (made : f.emitLeaf here.collection (there.anchor names) path operator operand = .ok ps) :
      Emits f names seen sub here (.entry (.leaf path operator operand)) ps
  | leafDeferred {here there : Place} {path : List String} {operator : Operator} {operand : Json}
      {r : Relation} {consumed : Nat} {s : Select}
      (led : f.catalog.course f.scope.joinsReverse 0 here path.dropLast =
        .deferred there r consumed)
      (stood : there.hops = [] ∨ there.hops ∈ seen)
      (selected : sub r [.leaf (path.drop consumed) operator operand] s) :
      Emits f names seen sub here (.entry (.leaf path operator operand))
        [.inSelect ((there.anchor names).column r.onePrimary) s]
  | leafUnresolved {here there : Place} {path : List String} {operator : Operator} {operand : Json}
      {segment : String}
      (led : f.catalog.course f.scope.joinsReverse 0 here path.dropLast =
        .unresolved there segment)
      (ignored : f.policy = .ignore) :
      Emits f names seen sub here (.entry (.leaf path operator operand)) []
  | nested {here there : Place} {path : List String} {body : List Entry} {ps : List Predicate}
      (led : f.catalog.course f.scope.joinsReverse 0 here path = .reached there)
      (inside : Emits f names seen sub there (.entries body) ps) :
      Emits f names seen sub here (.entry (.nested path body)) ps
  | nestedDeferred {here there : Place} {path : List String} {body : List Entry} {r : Relation}
      {consumed : Nat} {s : Select}
      (led : f.catalog.course f.scope.joinsReverse 0 here path = .deferred there r consumed)
      (stood : there.hops = [] ∨ there.hops ∈ seen)
      (selected : sub r
        (if (path.drop consumed).isEmpty then body else [.nested (path.drop consumed) body]) s) :
      Emits f names seen sub here (.entry (.nested path body))
        [.inSelect ((there.anchor names).column r.onePrimary) s]
  | nestedUnresolved {here there : Place} {path : List String} {body : List Entry}
      {segment : String}
      (led : f.catalog.course f.scope.joinsReverse 0 here path = .unresolved there segment)
      (ignored : f.policy = .ignore) :
      Emits f names seen sub here (.entry (.nested path body)) []
  | done {here : Place} : Emits f names seen sub here (.children []) []
  | child {here : Place} {first : List Entry} {rest : List (List Entry)}
      {ps items : List Predicate}
      (inside : Emits f names seen sub here (.entries first) ps)
      (later : Emits f names seen sub here (.children rest) items) :
      Emits f names seen sub here (.children (first :: rest))
        (if ps.isEmpty then items else Predicate.group .and ps :: items)

/-- What is asked of the delegate of a walk: a reverse hop becomes a test against a statement. A
walk that joins reverse hops needs no delegate. -/
def Serves (reserved : List String) (f : Frame) (sub : Relation → Filter → Select → Prop) :
    Option Delegate → Prop
  | none => f.scope.joinsReverse = true
  | some d => ∀ (there : Anchor) (r : Relation) (child : Filter) (t t' : AliasTable)
      (p : Predicate), t.Sound reserved → d there r child t = (.ok p, t') →
      ∃ s : Select, p = .inSelect (there.column r.onePrimary) s ∧ sub r child s ∧
        t.Opens reserved t' s.aliases

section Spec

variable {reserved : List String} {base : AliasTable} {root : String} {f : Frame}
  {delegate : Option Delegate} {sub : Relation → Filter → Select → Prop}
  {names : List String → String} {seen : List (List String)}

/-- The predicate of a filter behind a reverse hop. -/
theorem delegated_spec (serves : Serves reserved f sub delegate)
    (outer : f.scope.joinsReverse = false) {there : Anchor} {r : Relation} {child : Filter}
    {w w' : Walk} {ps : List Predicate} (sound : w.aliases.Sound reserved)
    (ran : delegated delegate there r child w = (.ok ps, w')) :
    ∃ s : Select, ps = [.inSelect (there.column r.onePrimary) s] ∧ sub r child s ∧
      w.Emitted reserved w' ps := by
  cases delegate with
  | none => simp [Serves, outer] at serves
  | some d =>
      obtain ⟨p, w₁, inside, gave⟩ := Step.bind_eq_ok ran
      cases gave
      simp only [Step.within, Prod.mk.injEq] at inside
      obtain ⟨made, rfl⟩ := inside
      obtain ⟨s, rfl, selected, opens⟩ := serves there r child _ _ _ sound (Prod.ext made rfl)
      refine ⟨s, rfl, selected, rfl, ?_⟩
      simpa [Predicate.aliasesAll, Predicate.statementsAll, Predicate.statements, Select.aliases]
        using opens

/-- The state of the second walk: names and seen hop sequences are those of the first one. -/
structure Resumes (reserved : List String) (base : AliasTable) (root : String) (f : Frame)
    (names : List String → String) (seen : List (List String)) (w : Walk) : Prop where
  tracks : w.Tracks f.catalog reserved base f.scope root seen
  naming_eq : w.aliases.naming f.scope.id root = names

theorem Resumes.later {w w' : Walk} {ps : List Predicate}
    (resumes : Resumes reserved base root f names seen w) (emitted : w.Emitted reserved w' ps) :
    Resumes reserved base root f names seen w' :=
  ⟨resumes.tracks.reopen emitted, by
    rw [emitted.opens.naming_eq resumes.tracks.opened, resumes.naming_eq]⟩

/-- A path of the second walk leads where its course does, and adds nothing. -/
theorem Resumes.follow {w : Walk} {here : Place} {anchor : Anchor}
    (resumes : Resumes reserved base root f names seen w)
    (stands : w.Stands f.catalog f.scope root here anchor) {hops : List String}
    (known : f.catalog.joined f.scope.joinsReverse here hops ⊆ seen) :
    f.follow anchor hops w =
        ((f.catalog.course f.scope.joinsReverse 0 here hops).resolution names, w) ∧
      w.Stands f.catalog f.scope root (f.catalog.course f.scope.joinsReverse 0 here hops).place
        ((f.catalog.course f.scope.joinsReverse 0 here hops).place.anchor names) := by
  have run := resumes.tracks.follow_seen stands 0 known
  obtain ⟨w₁, run₁, -, stands₁, -⟩ := resumes.tracks.follow stands 0 hops
  obtain rfl : w = w₁ := congrArg Prod.snd (run.symm.trans run₁)
  rw [resumes.naming_eq] at run stands₁
  exact ⟨run, stands₁⟩

/-- A comparison has one predicate, that of its operator for the column that the path ends with. -/
theorem emitLeaf_eq_ok {start : String} {there : Anchor} {path : List String}
    {operator : Operator} {operand : Json} {ps : List Predicate}
    (made : f.emitLeaf start there path operator operand = .ok ps) :
    path = [] ∧ ps = [] ∨ ∃ column p, path.getLast? = some column ∧
      Leaf.predicate (there.column column) (f.catalog.localType there.collection column) operator
        operand = .ok p ∧ ps = [p] := by
  unfold Frame.emitLeaf at made
  split at made
  · next ended =>
      cases made
      exact .inl ⟨List.getLast?_eq_none_iff.mp ended, rfl⟩
  · next column ended =>
      split at made
      · cases made
      · split at made
        · cases made
        · cases compared : Leaf.predicate (there.column column) _ operator operand with
          | error e =>
              rw [compared] at made
              cases made
          | ok p =>
              rw [compared] at made
              cases made
              exact .inr ⟨column, p, ended, compared, rfl⟩

/-- The predicates of a comparison hold no statement. -/
theorem statementsAll_emitLeaf {start : String} {there : Anchor} {path : List String}
    {operator : Operator} {operand : Json} {ps : List Predicate}
    (made : f.emitLeaf start there path operator operand = .ok ps) :
    Predicate.statementsAll ps = [] := by
  rcases emitLeaf_eq_ok made with ⟨-, rfl⟩ | ⟨column, p, -, compared, rfl⟩
  · rfl
  · obtain ⟨test, isTest, rfl, -⟩ := Leaf.predicate_isTest compared
    simp [Predicate.statementsAll, isTest.statements]

/-- A path that leads nowhere has a result only where it may be ignored, which is no predicate. -/
theorem emitUnresolved_eq_ok {start segment : String} {path : List String} {w w' : Walk}
    {ps : List Predicate}
    (ran : Step.ofExcept (f.emitUnresolved start path segment) w = (.ok ps, w')) :
    f.policy = .ignore ∧ ps = [] ∧ w' = w := by
  obtain ⟨made, rfl⟩ := Step.ofExcept_eq_ok ran
  unfold Frame.emitUnresolved at made
  split at made <;> cases made
  exact ⟨‹_›, rfl, rfl⟩

mutual

/-- The second walk makes the predicates of a filter. -/
theorem emit_spec (serves : Serves reserved f sub delegate) : ∀ (entries : List Entry)
    {w w' : Walk} {here : Place} {anchor : Anchor} {ps : List Predicate},
    Resumes reserved base root f names seen w →
    w.Stands f.catalog f.scope root here anchor →
    f.catalog.visits f.scope.joinsReverse here entries ⊆ seen →
    emit f delegate anchor entries w = (.ok ps, w') →
    Emits f names seen sub here (.entries entries) ps ∧ w.Emitted reserved w' ps
  | [], w, w', here, anchor, ps, resumes, _, _, ran => by
      cases ran
      exact ⟨.nil, .refl resumes.tracks.sound rfl⟩
  | e :: rest, w, w', here, anchor, ps, resumes, stands, known, ran => by
      rw [Catalog.visits, List.append_subset] at known
      obtain ⟨qs, w₁, first, more⟩ := Step.bind_eq_ok ran
      obtain ⟨rs, w₂, second, gave⟩ := Step.bind_eq_ok more
      cases gave
      obtain ⟨emits₁, emitted₁⟩ := emitEntry_spec serves e resumes stands known.1 first
      obtain ⟨emits₂, emitted₂⟩ := emit_spec serves rest (resumes.later emitted₁)
        (stands.later emitted₁.opens.grows) known.2 second
      exact ⟨.cons emits₁ emits₂, emitted₁.trans emitted₂⟩

theorem emitEntry_spec (serves : Serves reserved f sub delegate) : ∀ (e : Entry)
    {w w' : Walk} {here : Place} {anchor : Anchor} {ps : List Predicate},
    Resumes reserved base root f names seen w →
    w.Stands f.catalog f.scope root here anchor →
    f.catalog.visitsEntry f.scope.joinsReverse here e ⊆ seen →
    emitEntry f delegate anchor e w = (.ok ps, w') →
    Emits f names seen sub here (.entry e) ps ∧ w.Emitted reserved w' ps
  | .group op children, w, w', here, anchor, ps, resumes, stands, known, ran => by
      simp only [emitEntry, Catalog.visitsEntry] at ran known
      split at ran
      · next short =>
          cases ran
          exact ⟨.skipped short, .refl resumes.tracks.sound rfl⟩
      · next long =>
          rw [if_neg long] at known
          obtain ⟨items, w₁, inside, gave⟩ := Step.bind_eq_ok ran
          cases gave
          obtain ⟨parts, emitted⟩ := emitAll_spec serves children resumes stands known inside
          refine ⟨.group (by simpa using long) parts, emitted.congr ?_⟩
          cases items <;> simp [Predicate.statementsAll]
  | .leaf path operator operand, w, w', here, anchor, ps, resumes, stands, known, ran => by
      obtain ⟨run, stands₁⟩ := resumes.follow stands known
      have stood := resumes.tracks.reached stands₁
      simp only [emitEntry, Step.bind_apply, Step.ofTotal, run] at ran
      cases led : f.catalog.course f.scope.joinsReverse 0 here path.dropLast with
      | reached there =>
          rw [led] at ran stood
          obtain ⟨made, rfl⟩ := Step.ofExcept_eq_ok ran
          rw [stands.collection_eq] at made
          exact ⟨.leaf led stood made,
            .refl resumes.tracks.sound (statementsAll_emitLeaf made)⟩
      | deferred there r consumed =>
          rw [led] at ran stood
          have outer := (Catalog.relationFor_of_course_deferred led).1
          obtain ⟨s, rfl, selected, emitted⟩ :=
            delegated_spec serves outer resumes.tracks.sound ran
          exact ⟨.leafDeferred led stood selected, emitted⟩
      | unresolved there segment =>
          rw [led] at ran
          obtain ⟨ignored, rfl, rfl⟩ := emitUnresolved_eq_ok ran
          exact ⟨.leafUnresolved led ignored, .refl resumes.tracks.sound rfl⟩
  | .nested path body, w, w', here, anchor, ps, resumes, stands, known, ran => by
      rw [Catalog.visitsEntry, List.append_subset] at known
      obtain ⟨run, stands₁⟩ := resumes.follow stands known.1
      have stood := resumes.tracks.reached stands₁
      simp only [emitEntry, Step.bind_apply, Step.ofTotal, run] at ran
      cases led : f.catalog.course f.scope.joinsReverse 0 here path with
      | reached there =>
          rw [led] at ran stands₁ known
          obtain ⟨inside, emitted⟩ := emit_spec serves body resumes stands₁ known.2 ran
          exact ⟨.nested led inside, emitted⟩
      | deferred there r consumed =>
          rw [led] at ran stood
          have outer := (Catalog.relationFor_of_course_deferred led).1
          obtain ⟨s, rfl, selected, emitted⟩ :=
            delegated_spec serves outer resumes.tracks.sound ran
          exact ⟨.nestedDeferred led stood selected, emitted⟩
      | unresolved there segment =>
          rw [led] at ran
          obtain ⟨ignored, rfl, rfl⟩ := emitUnresolved_eq_ok ran
          exact ⟨.nestedUnresolved led ignored, .refl resumes.tracks.sound rfl⟩

theorem emitAll_spec (serves : Serves reserved f sub delegate) :
    ∀ (children : List (List Entry)) {w w' : Walk} {here : Place} {anchor : Anchor}
    {items : List Predicate},
    Resumes reserved base root f names seen w →
    w.Stands f.catalog f.scope root here anchor →
    f.catalog.visitsAll f.scope.joinsReverse here children ⊆ seen →
    emitAll f delegate anchor children w = (.ok items, w') →
    Emits f names seen sub here (.children children) items ∧ w.Emitted reserved w' items
  | [], w, w', here, anchor, items, resumes, _, _, ran => by
      cases ran
      exact ⟨.done, .refl resumes.tracks.sound rfl⟩
  | child :: rest, w, w', here, anchor, items, resumes, stands, known, ran => by
      rw [Catalog.visitsAll, List.append_subset] at known
      obtain ⟨ps, w₁, first, more⟩ := Step.bind_eq_ok ran
      obtain ⟨later, w₂, second, gave⟩ := Step.bind_eq_ok more
      cases gave
      obtain ⟨emits₁, emitted₁⟩ := emit_spec serves child resumes stands known.1 first
      obtain ⟨emits₂, emitted₂⟩ := emitAll_spec serves rest (resumes.later emitted₁)
        (stands.later emitted₁.opens.grows) known.2 second
      refine ⟨.child emits₁ emits₂, (emitted₁.trans emitted₂).congr ?_⟩
      cases ps <;> simp [Predicate.statementsAll]

end

end Spec

end Compile

end FilterSql
