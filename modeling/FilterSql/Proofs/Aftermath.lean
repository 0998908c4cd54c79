import FilterSql.Proofs.Plan

/-!
What a compilation leaves behind, whether it fails or not.

Both walks of a filter do the same after other joins were made (`discover_behind`, `emit_local`), so
what is known of one walk passes to several filters that are compiled in one scope one after the
other. The second walk leaves the names of its scope alone, also where it fails (`emit_keeps`), and
a sub-select that fails has opened scopes like one that does not (`compileInner_opens`). Hence the
table of a failed compilation is that of a walk that made all joins of its filter (`inScope_after`).
-/

namespace FilterSql

/-! ### Joins made before -/

/-- A walk with joins made before its own. -/
def Walk.behind (joins : List Join) (w : Walk) : Walk := { w with joins := joins ++ w.joins }

namespace Step

variable {σ τ α β : Type}

/-- A computation on a walk to which joins made before make no difference. -/
def Local (m : Step Walk α) : Prop :=
  ∀ joins w, m (w.behind joins) = ((m w).1, (m w).2.behind joins)

namespace Local

theorem pure (a : α) : Local (Pure.pure a : Step Walk α) := fun _ _ => rfl

theorem bind {m : Step Walk α} {k : α → Step Walk β} (first : m.Local)
    (second : ∀ a, (k a).Local) : (m >>= k).Local := by
  intro joins w
  rw [bind_apply, bind_apply, first joins w]
  rcases m w with ⟨e | a, w'⟩
  · rfl
  · exact second a joins w'

theorem ofExcept (x : Except CompileError α) : Local (Step.ofExcept x : Step Walk α) := by
  intro joins w
  cases x <;> rfl

/-- A computation on the aliases. -/
theorem within (m : Step AliasTable α) :
    Local (Step.within Walk.aliases (fun aliases w => { w with aliases := aliases }) m) :=
  fun _ _ => rfl

end Local

/-- What a computation keeps of its state, also where it fails. -/
def Keeps (m : Step σ α) (P : σ → Prop) : Prop := ∀ s, P s → P (m s).2

namespace Keeps

variable {P : σ → Prop}

theorem pure (a : α) : Keeps (Pure.pure a : Step σ α) P := fun _ holds => holds

theorem bind {m : Step σ α} {k : α → Step σ β} (first : m.Keeps P) (second : ∀ a, (k a).Keeps P) :
    (m >>= k).Keeps P := by
  intro s holds
  have early := first s holds
  rw [bind_apply]
  rcases ran : m s with ⟨e | a, s'⟩
  · rwa [ran] at early
  · rw [ran] at early
    exact second a s' early

theorem ofExcept (x : Except CompileError α) : Keeps (Step.ofExcept x : Step σ α) P := by
  intro s holds
  cases x <;> exact holds

end Keeps

/-- A result that is only rewritten leaves the state as it was. -/
theorem bind_pure_state (m : Step σ α) (g : α → β) (s : σ) :
    ((m >>= fun a => pure (g a)) s).2 = (m s).2 := by
  rw [bind_apply]
  rcases m s with ⟨e | a, s'⟩ <;> rfl

end Step

namespace Walk

theorem hop_behind (joins : List Join) (w : Walk) (scope : Scope) (here : Anchor)
    (field table left right : String) :
    (w.behind joins).hop scope here field table left right =
      ((w.hop scope here field table left right).1,
        (w.hop scope here field table left right).2.behind joins) := by
  simp only [hop, behind]
  split
  · next created => simp [created]
  · next known => simp [known]

theorem follow_behind (joins : List Join) (cat : Catalog) (scope : Scope) (hops : List String) :
    ∀ (consumed : Nat) (here : Anchor) (w : Walk),
    (w.behind joins).follow cat scope consumed here hops =
      ((w.follow cat scope consumed here hops).1,
        (w.follow cat scope consumed here hops).2.behind joins) := by
  induction hops with
  | nil => exact fun _ _ _ => rfl
  | cons field rest ih =>
      intro consumed here w
      rw [follow_cons, follow_cons]
      split
      · next link _ =>
          simp only [hop_behind]
          exact ih _ _ _
      · split <;> rfl

end Walk

namespace Compile

mutual

/-- The first walk joins after other joins what it joins without them. -/
theorem discover_behind (f : Frame) (joins : List Join) :
    ∀ (entries : List Entry) (here : Anchor) (w : Walk),
    discover f here entries (w.behind joins) = (discover f here entries w).behind joins
  | [], _, _ => rfl
  | e :: rest, here, w => by
      rw [discover, discover, discoverEntry_behind f joins e, discover_behind f joins rest]

theorem discoverEntry_behind (f : Frame) (joins : List Join) :
    ∀ (e : Entry) (here : Anchor) (w : Walk),
    discoverEntry f here e (w.behind joins) = (discoverEntry f here e w).behind joins
  | .group op children, here, w => by
      simp only [discoverEntry]
      split
      · rfl
      · exact discoverAll_behind f joins children here w
  | .leaf path _ _, here, w => by
      simp only [discoverEntry, Frame.follow, Walk.follow_behind]
  | .nested path body, here, w => by
      simp only [discoverEntry, Frame.follow, Walk.follow_behind]
      rcases w.follow f.catalog f.scope 0 here path with ⟨resolution, w'⟩
      cases resolution with
      | reached there => exact discover_behind f joins body there w'
      | deferred _ _ _ => rfl
      | unresolved _ _ => rfl

theorem discoverAll_behind (f : Frame) (joins : List Join) :
    ∀ (children : List (List Entry)) (here : Anchor) (w : Walk),
    discoverAll f here children (w.behind joins) = (discoverAll f here children w).behind joins
  | [], _, _ => rfl
  | child :: rest, here, w => by
      rw [discoverAll, discoverAll, discover_behind f joins child, discoverAll_behind f joins rest]

end

theorem follow_local (f : Frame) (here : Anchor) (hops : List String) :
    (Step.ofTotal (f.follow here hops)).Local := by
  intro joins w
  simp only [Step.ofTotal, Frame.follow, Walk.follow_behind]

theorem delegated_local (delegate : Option Delegate) (there : Anchor) (r : Relation)
    (child : Filter) : (delegated delegate there r child).Local := by
  cases delegate with
  | none => exact .pure _
  | some d => exact .bind (.within _) fun _ => .pure _

mutual

/-- The second walk makes after other joins what it makes without them. -/
theorem emit_local (f : Frame) (delegate : Option Delegate) :
    ∀ (entries : List Entry) (here : Anchor), (emit f delegate here entries).Local
  | [], _ => .pure _
  | e :: rest, here =>
      .bind (emitEntry_local f delegate e here) fun _ =>
        .bind (emit_local f delegate rest here) fun _ => .pure _

theorem emitEntry_local (f : Frame) (delegate : Option Delegate) :
    ∀ (e : Entry) (here : Anchor), (emitEntry f delegate here e).Local
  | .group op children, here => by
      unfold emitEntry
      split
      · exact .pure _
      · exact .bind (emitAll_local f delegate children here) fun _ => .pure _
  | .leaf path operator operand, here => by
      refine .bind (follow_local f here path.dropLast) fun resolution => ?_
      cases resolution with
      | reached there => exact .ofExcept _
      | deferred there r consumed => exact delegated_local delegate there r _
      | unresolved _ segment => exact .ofExcept _
  | .nested path body, here => by
      refine .bind (follow_local f here path) fun resolution => ?_
      cases resolution with
      | reached there => exact emit_local f delegate body there
      | deferred there r consumed => exact delegated_local delegate there r _
      | unresolved _ segment => exact .ofExcept _

theorem emitAll_local (f : Frame) (delegate : Option Delegate) :
    ∀ (children : List (List Entry)) (here : Anchor), (emitAll f delegate here children).Local
  | [], _ => .pure _
  | child :: rest, here =>
      .bind (emit_local f delegate child here) fun _ =>
        .bind (emitAll_local f delegate rest here) fun _ => .pure _

end

end Compile

/-! ### Scopes after a failure -/

/-- Which aliases were given out in scopes of their own may be forgotten. -/
theorem AliasTable.Opens.forget {reserved : List String} {t t' : AliasTable} {given : List String}
    (opens : t.Opens reserved t' given) : t.Opens reserved t' [] :=
  ⟨opens.sound, opens.grows, opens.kept, .nil, by simp, by simp⟩

namespace Compile

variable {reserved : List String} {base : AliasTable} {root : String} {f : Frame}
  {delegate : Option Delegate} {names : List String → String} {seen : List (List String)}

/-- What is asked of a delegate that may fail: it gives out aliases in scopes of their own only. -/
def Settles (reserved : List String) (delegate : Option Delegate) : Prop :=
  ∀ d ∈ delegate, ∀ (there : Anchor) (r : Relation) (child : Filter) (t : AliasTable),
    t.Sound reserved → t.Opens reserved (d there r child t).2 []

theorem delegated_keeps (settles : Settles reserved delegate) (there : Anchor) (r : Relation)
    (child : Filter) :
    (delegated delegate there r child).Keeps (Resumes reserved base root f names seen) := by
  cases delegate with
  | none => exact .pure _
  | some d =>
      refine .bind ?_ fun _ => .pure _
      intro w resumes
      have opens := settles d rfl there r child w.aliases resumes.tracks.sound
      have emitted : w.Emitted reserved { w with aliases := (d there r child w.aliases).2 } [] :=
        ⟨rfl, opens⟩
      exact resumes.later emitted

/-- An anchor at a place that was reached stands for the place throughout the second walk. -/
theorem Resumes.stands {w : Walk} (resumes : Resumes reserved base root f names seen w)
    {here : Place} (located : f.catalog.Locates f.scope.joinsReverse root here)
    (stood : here.hops = [] ∨ here.hops ∈ seen) :
    w.Stands f.catalog f.scope root here (here.anchor names) := by
  refine ⟨located, rfl, ?_⟩
  rw [resumes.tracks.names _ stood, resumes.naming_eq]
  rfl

/-- A path of the second walk is followed to the end of its course, and then the walk goes on. -/
theorem follow_keeps {α : Type} {here : Place}
    (located : f.catalog.Locates f.scope.joinsReverse root here)
    (stood : here.hops = [] ∨ here.hops ∈ seen) {hops : List String}
    (known : f.catalog.joined f.scope.joinsReverse here hops ⊆ seen)
    {k : Resolution → Step Walk α}
    (next : ((f.catalog.course f.scope.joinsReverse 0 here hops).place.hops = [] ∨
        (f.catalog.course f.scope.joinsReverse 0 here hops).place.hops ∈ seen) →
      (k ((f.catalog.course f.scope.joinsReverse 0 here hops).resolution names)).Keeps
        (Resumes reserved base root f names seen)) :
    (Step.ofTotal (f.follow (here.anchor names) hops) >>= k).Keeps
      (Resumes reserved base root f names seen) := by
  intro w resumes
  obtain ⟨run, stands⟩ := resumes.follow (resumes.stands located stood) known
  rw [Step.bind_apply, Step.ofTotal, run]
  exact next (resumes.tracks.reached stands) w resumes

mutual

/-- The second walk leaves the names of its scope alone. -/
theorem emit_keeps (settles : Settles reserved delegate) : ∀ (entries : List Entry) {here : Place},
    f.catalog.Locates f.scope.joinsReverse root here → here.hops = [] ∨ here.hops ∈ seen →
    f.catalog.visits f.scope.joinsReverse here entries ⊆ seen →
    (emit f delegate (here.anchor names) entries).Keeps (Resumes reserved base root f names seen)
  | [], _, _, _, _ => .pure _
  | e :: rest, here, located, stood, known => by
      rw [Catalog.visits, List.append_subset] at known
      exact .bind (emitEntry_keeps settles e located stood known.1) fun _ =>
        .bind (emit_keeps settles rest located stood known.2) fun _ => .pure _

theorem emitEntry_keeps (settles : Settles reserved delegate) : ∀ (e : Entry) {here : Place},
    f.catalog.Locates f.scope.joinsReverse root here → here.hops = [] ∨ here.hops ∈ seen →
    f.catalog.visitsEntry f.scope.joinsReverse here e ⊆ seen →
    (emitEntry f delegate (here.anchor names) e).Keeps (Resumes reserved base root f names seen)
  | .group op children, here, located, stood, known => by
      simp only [emitEntry, Catalog.visitsEntry] at known ⊢
      split
      · exact .pure _
      · next long =>
          rw [if_neg long] at known
          exact .bind (emitAll_keeps settles children located stood known) fun _ => .pure _
  | .leaf path operator operand, here, located, stood, known => by
      refine follow_keeps located stood known fun _ => ?_
      cases f.catalog.course f.scope.joinsReverse 0 here path.dropLast with
      | reached there => exact .ofExcept _
      | deferred there r consumed => exact delegated_keeps settles _ r _
      | unresolved there segment => exact .ofExcept _
  | .nested path body, here, located, stood, known => by
      rw [Catalog.visitsEntry, List.append_subset] at known
      refine follow_keeps located stood known.1 fun reached => ?_
      have behind : f.catalog.Locates f.scope.joinsReverse root
          (f.catalog.course f.scope.joinsReverse 0 here path).place := located.course rfl
      cases led : f.catalog.course f.scope.joinsReverse 0 here path with
      | reached there =>
          rw [led] at reached behind known
          exact emit_keeps settles body behind reached known.2
      | deferred there r consumed => exact delegated_keeps settles _ r _
      | unresolved there segment => exact .ofExcept _

theorem emitAll_keeps (settles : Settles reserved delegate) :
    ∀ (children : List (List Entry)) {here : Place},
    f.catalog.Locates f.scope.joinsReverse root here → here.hops = [] ∨ here.hops ∈ seen →
    f.catalog.visitsAll f.scope.joinsReverse here children ⊆ seen →
    (emitAll f delegate (here.anchor names) children).Keeps
      (Resumes reserved base root f names seen)
  | [], _, _, _, _ => .pure _
  | child :: rest, here, located, stood, known => by
      rw [Catalog.visitsAll, List.append_subset] at known
      exact .bind (emit_keeps settles child located stood known.1) fun _ =>
        .bind (emitAll_keeps settles rest located stood known.2) fun _ => .pure _

end

/-- Compiling a filter in a scope that other filters may have been compiled in, whose walk is known.
The table afterwards is that of the same walk after the hops of the filter too, also where the
compilation fails; where it does not, its joins are those that the walk has made since. -/
theorem inScope_after {sub : Relation → Filter → Select → Prop}
    (serves : Serves reserved f sub delegate) (settles : Settles reserved delegate) {w : Walk}
    (tracks : w.Tracks f.catalog reserved base f.scope root seen) (filter : Filter) :
    let more := (f.catalog.visits f.scope.joinsReverse (.root root) filter).foldl note seen
    ∃ w' : Walk, (inScope f delegate root filter w.aliases).2 = w'.aliases ∧
      w'.Tracks f.catalog reserved base f.scope root more ∧
      (∀ path, path = [] ∨ path ∈ seen →
        w'.aliases.naming f.scope.id root path = w.aliases.naming f.scope.id root path) ∧
      ∀ c, (inScope f delegate root filter w.aliases).1 = .ok c →
        w'.joins = w.joins ++ c.joins ∧ ∃ ps, c.predicate = conjunction ps ∧
          Emits f (w'.aliases.naming f.scope.id root) more sub (.root root) (.entries filter)
            ps := by
  intro more
  have stands := Walk.stands_root f.catalog f.scope root w
  obtain ⟨tracks₁, grows⟩ := discover_tracks f filter tracks stands
  have later := stands.later grows
  generalize alone : discover f (.root root) filter ⟨w.aliases, []⟩ = own
  have whole : discover f (.root root) filter w = own.behind w.joins := by
    rw [← alone, ← discover_behind]
    simp [Walk.behind]
  rw [whole] at tracks₁ grows later
  have all : f.catalog.visits f.scope.joinsReverse (.root root) filter ⊆ more := by
    intro path mem
    exact mem_foldl_note mem
  have kept := emit_keeps settles filter (Catalog.locates_root root) (.inl rfl) all _ ⟨tracks₁, rfl⟩
  rcases ran : emit f delegate (.root root) filter own with ⟨outcome, final⟩
  have same : emit f delegate ((Place.root root).anchor
      ((own.behind w.joins).aliases.naming f.scope.id root)) filter (own.behind w.joins) =
        (outcome, final.behind w.joins) := by
    have apart := emit_local f delegate filter (.root root) w.joins own
    rw [ran] at apart
    exact apart
  rw [same] at kept
  refine ⟨final.behind w.joins, ?_, kept.tracks, ?_, ?_⟩
  · simp only [inScope, alone, ran]
    cases outcome <;> rfl
  · intro path known
    rw [kept.naming_eq]
    exact AliasTable.naming_eq (grows.name? (tracks.names path known))
  · intro c compiled
    simp only [inScope, alone, ran] at compiled
    cases outcome with
    | error e => cases compiled
    | ok ps =>
        cases compiled
        obtain ⟨emits, -⟩ := emit_spec serves filter ⟨tracks₁, rfl⟩ later all same
        rw [kept.naming_eq]
        exact ⟨rfl, ps, rfl, emits⟩

end Compile

namespace Filter

variable {cat : Catalog} {policy : PathPolicy}

/-- A filter for a sub-select gives out aliases in a scope of its own only, also where it fails. -/
theorem compileInner_opens (collection : String) (filter : Filter) {t : AliasTable}
    (sound : t.Sound cat.names) :
    t.Opens cat.names (compileInner cat policy collection filter t).2 [] := by
  unfold compileInner
  cases required : cat.requireCollection collection with
  | error e => exact .refl sound
  | ok c =>
      let f : Compile.Frame := ⟨cat, policy, ⟨t.nextScope, true⟩⟩
      have rooted := Catalog.mem_names_of_requireCollection required
      have serves : Compile.Serves cat.names f (fun _ _ _ => False) none := rfl
      have settles : Compile.Settles cat.names none := fun _ none => by cases none
      have start := Compile.tracks_start cat f.scope sound rooted rfl
      obtain ⟨w, after, tracks, -, -⟩ := Compile.inScope_after serves settles start filter
      have opens := (tracks.opens rfl).forget
      rwa [← after] at opens

theorem settles_membership (cat : Catalog) (policy : PathPolicy) :
    Compile.Settles cat.names (some (membership cat policy)) := by
  rintro d mem there r child t sound
  cases mem
  have opens : t.Opens cat.names (compileInner cat policy r.manyCollection child t).2 [] :=
    compileInner_opens r.manyCollection child sound
  rwa [membership, Step.bind_pure_state, subselect, Step.bind_pure_state]

end Filter

end FilterSql
