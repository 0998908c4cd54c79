import FilterSql.Proofs.Naming

/-!
What the walk that finds the joins leaves behind.

`Walk.Tracks` ties the state of a walk to the list of the hop sequences seen so far: all of them are
named, they are the only ones with an alias in the scope, and the joins are theirs in that order.
One hop keeps it (`Tracks.hop`), so a path does (`Tracks.follow`), and so does a whole filter
(`discover_tracks`). A path whose hops are all seen changes nothing (`Tracks.follow_seen`), which is
why the second walk adds no join.
-/

namespace FilterSql

/-- Hop sequences, each one hop longer than an earlier one and none listed twice. -/
inductive Grown : List (List String) → Prop where
  | nil : Grown []
  | snoc {seen : List (List String)} {before : List String} {field : String} (rest : Grown seen)
      (reached : before = [] ∨ before ∈ seen) (new : before ++ [field] ∉ seen) :
      Grown (seen ++ [before ++ [field]])

namespace Grown

theorem nodup {seen : List (List String)} (grown : Grown seen) : seen.Nodup := by
  induction grown with
  | nil => exact List.nodup_nil
  | snoc _ _ new ih =>
      rw [← List.concat_eq_append]
      exact ih.concat new

theorem ne_nil {seen : List (List String)} (grown : Grown seen) {path : List String}
    (mem : path ∈ seen) : path ≠ [] := by
  induction grown with
  | nil => cases mem
  | snoc _ _ _ ih =>
      rcases List.mem_append.mp mem with old | new
      · exact ih old
      · simp [List.mem_singleton.mp new]

/-- What stands before the last hop was listed before. -/
theorem dropLast_mem {seen : List (List String)} (grown : Grown seen) {path : List String}
    (mem : path ∈ seen) : path.dropLast = [] ∨ path.dropLast ∈ seen := by
  induction grown with
  | nil => cases mem
  | snoc _ reached _ ih =>
      rcases List.mem_append.mp mem with old | new
      · exact (ih old).imp_right (List.mem_append_left _)
      · rw [List.mem_singleton.mp new, List.dropLast_concat]
        exact reached.imp_right (List.mem_append_left _)

end Grown

/-- The hop sequences seen after one more is met. -/
def note (seen : List (List String)) (path : List String) : List (List String) :=
  if path ∈ seen then seen else seen ++ [path]

theorem note_of_mem {seen : List (List String)} {path : List String} (mem : path ∈ seen) :
    note seen path = seen := if_pos mem

theorem subset_note (seen : List (List String)) (path : List String) : seen ⊆ note seen path := by
  unfold note
  split
  · exact List.Subset.refl _
  · exact List.subset_append_left _ _

theorem mem_note_self (seen : List (List String)) (path : List String) :
    path ∈ note seen path := by
  unfold note
  split
  · assumption
  · simp

theorem subset_foldl_note (seen paths : List (List String)) : seen ⊆ paths.foldl note seen := by
  induction paths generalizing seen with
  | nil => exact List.Subset.refl _
  | cons path rest ih => exact List.Subset.trans (subset_note seen path) (ih _)

/-- All hop sequences met are seen. -/
theorem mem_foldl_note {seen paths : List (List String)} {path : List String}
    (mem : path ∈ paths) : path ∈ paths.foldl note seen := by
  induction paths generalizing seen with
  | nil => cases mem
  | cons first rest ih =>
      rcases List.mem_cons.mp mem with rfl | later
      · exact subset_foldl_note _ rest (mem_note_self seen path)
      · exact ih later

/-- The hop sequences seen after more were met: those seen before, and then the new ones. -/
theorem foldl_note_eq_append (seen paths : List (List String)) :
    ∃ new, paths.foldl note seen = seen ++ new ∧
      ∀ path, path ∈ new ↔ path ∈ paths ∧ path ∉ seen := by
  induction paths generalizing seen with
  | nil => exact ⟨[], by simp⟩
  | cons first rest ih =>
      by_cases known : first ∈ seen
      · obtain ⟨new, eq, mem⟩ := ih seen
        refine ⟨new, by rw [List.foldl_cons, note_of_mem known, eq], ?_⟩
        grind
      · obtain ⟨new, eq, mem⟩ := ih (seen ++ [first])
        refine ⟨first :: new, by rw [List.foldl_cons, note, if_neg known, eq]; simp, ?_⟩
        grind

/-! ### The state of a walk -/

/-- The anchor at a place. -/
def Place.anchor (here : Place) (names : List String → String) : Anchor :=
  ⟨here.collection, names here.hops⟩

/-- The resolution that a course stands for once hop sequences have names. -/
def Course.resolution (names : List String → String) : Course → Resolution
  | .reached there => .reached (there.anchor names)
  | .deferred there r consumed => .deferred (there.anchor names) r consumed
  | .unresolved there segment => .unresolved (there.anchor names) segment

/-- The names that a table gives to hop sequences agree with given ones. -/
def AliasTable.Names (t : AliasTable) (scope : Nat) (root : String) (seen : List (List String))
    (names : List String → String) : Prop :=
  ∀ path, path = [] ∨ path ∈ seen → t.name? scope root path = some (names path)

namespace Walk

/-- What is known of a walk in a scope that starts from a collection, when it began with the table
`base` and has seen the given hop sequences. -/
structure Tracks (cat : Catalog) (reserved : List String) (base : AliasTable) (scope : Scope)
    (root : String) (w : Walk) (seen : List (List String)) : Prop where
  sound : w.aliases.Sound reserved
  rooted : root ∈ reserved
  opened : scope.id < w.aliases.nextScope
  grows : base.Grows w.aliases
  grown : Grown seen
  named : ∀ path ∈ seen, (w.aliases.name? scope.id root path).isSome
  linked : ∀ path ∈ seen, (cat.lastLink scope.joinsReverse root path).isSome
  /-- nothing else has an alias in the scope -/
  covered : ∀ {a field b : String}, w.aliases.issued[(⟨scope.id, a, field⟩ : AliasKey)]? = some b →
    ∃ before, before ++ [field] ∈ seen ∧ w.aliases.name? scope.id root before = some a
  joins_eq : w.joins =
    seen.map (cat.joinOf scope.joinsReverse root (w.aliases.naming scope.id root))
  /-- aliases of the scope are new -/
  fresh : ∀ path ∈ seen, w.aliases.naming scope.id root path ∉ base.taken
  /-- scopes opened before are left alone -/
  elsewhere : ∀ k : AliasKey, k.scope < base.nextScope → k.scope ≠ scope.id →
    w.aliases.issued[k]? = base.issued[k]?

/-- An anchor stands for a place that hops lead to. -/
structure Stands (cat : Catalog) (scope : Scope) (root : String) (w : Walk) (here : Place)
    (anchor : Anchor) : Prop where
  located : cat.Locates scope.joinsReverse root here
  collection_eq : anchor.collection = here.collection
  named : w.aliases.name? scope.id root here.hops = some anchor.qualifier

theorem Stands.later {cat : Catalog} {scope : Scope} {root : String} {w w' : Walk} {here : Place}
    {anchor : Anchor} (stands : Stands cat scope root w here anchor)
    (grows : w.aliases.Grows w'.aliases) : Stands cat scope root w' here anchor :=
  ⟨stands.located, stands.collection_eq, grows.name? stands.named⟩

theorem stands_root (cat : Catalog) (scope : Scope) (root : String) (w : Walk) :
    Stands cat scope root w (.root root) (.root root) :=
  ⟨Catalog.locates_root root, rfl, rfl⟩

theorem Stands.eq_anchor {cat : Catalog} {scope : Scope} {root : String} {w : Walk} {here : Place}
    {anchor : Anchor} (stands : Stands cat scope root w here anchor) :
    anchor = here.anchor (w.aliases.naming scope.id root) := by
  obtain ⟨collection, qualifier⟩ := anchor
  simp [Place.anchor, AliasTable.naming_eq stands.named, ← stands.collection_eq]

/-- The name of a place that was reached is that of a hop sequence seen, or of the root. -/
theorem Tracks.names {cat : Catalog} {reserved : List String} {base : AliasTable} {scope : Scope}
    {root : String} {w : Walk} {seen : List (List String)}
    (tracks : Tracks cat reserved base scope root w seen) :
    w.aliases.Names scope.id root seen (w.aliases.naming scope.id root) := by
  rintro path (rfl | mem)
  · rfl
  · obtain ⟨a, named⟩ := Option.isSome_iff_exists.mp (tracks.named path mem)
    rw [named, AliasTable.naming_eq named]

/-- The joins of a walk are qualified by the names of the hop sequences seen. -/
theorem Tracks.map_qualifier {cat : Catalog} {reserved : List String} {base : AliasTable}
    {scope : Scope} {root : String} {w : Walk} {seen : List (List String)}
    (tracks : w.Tracks cat reserved base scope root seen) :
    w.joins.map (·.qualifier) = seen.map (w.aliases.naming scope.id root) := by
  rw [tracks.joins_eq]
  simp [Catalog.joinOf, Function.comp_def]

section Hop

variable {cat : Catalog} {reserved : List String} {base : AliasTable} {scope : Scope}
  {root : String} {w : Walk} {seen : List (List String)} {here : Place} {anchor : Anchor}
  {field : String} {link : Link}

/-- A hop that has an alias is seen. -/
theorem Tracks.seen_of_issued (tracks : Tracks cat reserved base scope root w seen)
    (stands : Stands cat scope root w here anchor) {b : String}
    (issued : w.aliases.issued[(⟨scope.id, anchor.qualifier, field⟩ : AliasKey)]? = some b) :
    here.hops ++ [field] ∈ seen := by
  obtain ⟨before, mem, named⟩ := tracks.covered issued
  rwa [tracks.sound.name?_injective tracks.rooted stands.named named]

/-- A hop that is seen has an alias, its name. -/
theorem Tracks.issued_of_seen (tracks : Tracks cat reserved base scope root w seen)
    (stands : Stands cat scope root w here anchor) (mem : here.hops ++ [field] ∈ seen) :
    w.aliases.issued[(⟨scope.id, anchor.qualifier, field⟩ : AliasKey)]? =
      some (w.aliases.naming scope.id root (here.hops ++ [field])) := by
  have named := tracks.names _ (.inr mem)
  rwa [AliasTable.name?_snoc, stands.named, Option.bind_some] at named

/-- A hop that is seen changes nothing. -/
theorem Tracks.hop_seen (tracks : Tracks cat reserved base scope root w seen)
    (stands : Stands cat scope root w here anchor) (mem : here.hops ++ [field] ∈ seen) :
    w.hop scope anchor field link.table link.near link.far =
      ((here.next field link).anchor (w.aliases.naming scope.id root), w) := by
  simp only [hop, AliasTable.aliasFor_of_issued (tracks.issued_of_seen stands mem)]
  rfl

/-- A place that was reached is the root or behind a hop that is seen. -/
theorem Tracks.reached (tracks : Tracks cat reserved base scope root w seen)
    (stands : Stands cat scope root w here anchor) : here.hops = [] ∨ here.hops ∈ seen := by
  rcases List.eq_nil_or_concat here.hops with start | ⟨before, last, eq⟩
  · exact .inl start
  · have stood := stands.named
    rw [eq, List.concat_eq_append, AliasTable.name?_snoc, Option.bind_eq_some_iff] at stood
    obtain ⟨a, first, issued⟩ := stood
    obtain ⟨before', mem, first'⟩ := tracks.covered issued
    rw [eq, List.concat_eq_append, tracks.sound.name?_injective tracks.rooted first first']
    exact .inr mem

/-- What is known of a walk after a hop was joined under a new alias. -/
theorem Tracks.issue (tracks : Tracks cat reserved base scope root w seen)
    (stands : Stands cat scope root w here anchor) (new : here.hops ++ [field] ∉ seen)
    (linked : cat.link? scope.joinsReverse here.collection field = some link) {b : String}
    {t' : AliasTable} (issues : w.aliases.Issues ⟨scope.id, anchor.qualifier, field⟩ b t') :
    Tracks cat reserved base scope root
      ⟨t', w.joins ++ [⟨link.table, b, ⟨anchor.qualifier, link.near⟩, ⟨b, link.far⟩⟩]⟩
      (seen ++ [here.hops ++ [field]]) := by
  have named : t'.name? scope.id root (here.hops ++ [field]) = some b := by
    rw [AliasTable.name?_snoc, issues.grows.name? stands.named, Option.bind_some, issues.issued,
      if_pos rfl]
  have old : ∀ path, path = [] ∨ path ∈ seen →
      t'.naming scope.id root path = w.aliases.naming scope.id root path := by
    intro path mem
    exact AliasTable.naming_eq (issues.grows.name? (tracks.names path mem))
  refine
    { sound := issues.sound tracks.opened tracks.sound
      rooted := tracks.rooted
      opened := issues.nextScope ▸ tracks.opened
      grows := tracks.grows.trans issues.grows
      grown := tracks.grown.snoc (tracks.reached stands) new
      named := ?_
      linked := ?_
      covered := ?_
      joins_eq := ?_
      fresh := ?_
      elsewhere := ?_ }
  · intro path mem
    rcases List.mem_append.mp mem with before | last
    · obtain ⟨a, known⟩ := Option.isSome_iff_exists.mp (tracks.named path before)
      exact Option.isSome_iff_exists.mpr ⟨a, issues.grows.name? known⟩
    · rw [List.mem_singleton.mp last]
      exact Option.isSome_iff_exists.mpr ⟨b, named⟩
  · intro path mem
    rcases List.mem_append.mp mem with before | last
    · exact tracks.linked path before
    · rw [List.mem_singleton.mp last, stands.located.lastLink_next linked]
      rfl
  · intro a f c issued
    rw [issues.issued] at issued
    split at issued
    · next same =>
        cases same
        exact ⟨here.hops, by simp, issues.grows.name? stands.named⟩
    · obtain ⟨before, mem, known⟩ := tracks.covered issued
      exact ⟨before, List.mem_append_left _ mem, issues.grows.name? known⟩
  · show w.joins ++ _ = _
    rw [tracks.joins_eq, List.map_append, List.map_singleton,
      Catalog.joinOf_next _ stands.located linked, AliasTable.naming_eq named,
      AliasTable.naming_eq (issues.grows.name? stands.named)]
    refine congrArg (· ++ _) (List.map_congr_left fun path mem => ?_)
    exact Catalog.joinOf_congr (old _ (.inr mem)).symm (old _ (tracks.grown.dropLast_mem mem)).symm
  · intro path mem
    rcases List.mem_append.mp mem with before | last
    · rw [old path (.inr before)]
      exact tracks.fresh path before
    · rw [List.mem_singleton.mp last, AliasTable.naming_eq named]
      intro taken
      exact issues.free (tracks.grows.taken taken)
  · intro k early other
    have apart : k ≠ ⟨scope.id, anchor.qualifier, field⟩ := by
      rintro rfl
      exact other rfl
    rw [issues.issued, if_neg apart]
    exact tracks.elsewhere k early other

/-- A hop that is not seen is joined under a new alias. -/
theorem Tracks.hop_new (tracks : Tracks cat reserved base scope root w seen)
    (stands : Stands cat scope root w here anchor) (new : here.hops ++ [field] ∉ seen)
    (linked : cat.link? scope.joinsReverse here.collection field = some link) :
    ∃ there w', w.hop scope anchor field link.table link.near link.far = (there, w') ∧
      Tracks cat reserved base scope root w' (seen ++ [here.hops ++ [field]]) ∧
      Stands cat scope root w' (here.next field link) there ∧ w.aliases.Grows w'.aliases := by
  have unissued : w.aliases.issued[(⟨scope.id, anchor.qualifier, field⟩ : AliasKey)]? = none := by
    by_contra issued
    obtain ⟨b, issued⟩ := Option.ne_none_iff_exists'.mp issued
    exact new (tracks.seen_of_issued stands issued)
  obtain ⟨t', call, issues⟩ := AliasTable.aliasFor_of_unissued unissued
  have next := tracks.issue stands new linked issues
  refine ⟨_, _, by simp only [hop, call, if_true]; rfl, next,
    ⟨stands.located.next linked, rfl, ?_⟩, issues.grows⟩
  rw [Place.next, AliasTable.name?_snoc, issues.grows.name? stands.named, Option.bind_some,
    issues.issued, if_pos rfl]

/-- One hop. -/
theorem Tracks.hop (tracks : Tracks cat reserved base scope root w seen)
    (stands : Stands cat scope root w here anchor)
    (linked : cat.link? scope.joinsReverse here.collection field = some link) :
    ∃ there w', w.hop scope anchor field link.table link.near link.far = (there, w') ∧
      Tracks cat reserved base scope root w' (note seen (here.hops ++ [field])) ∧
      Stands cat scope root w' (here.next field link) there ∧ w.aliases.Grows w'.aliases := by
  by_cases mem : here.hops ++ [field] ∈ seen
  · rw [note_of_mem mem]
    exact ⟨_, w, tracks.hop_seen stands mem, tracks,
      ⟨stands.located.next linked, rfl, tracks.names _ (.inr mem)⟩, .refl _⟩
  · rw [note, if_neg mem]
    exact tracks.hop_new stands mem linked

end Hop

section Path

variable {cat : Catalog} {reserved : List String} {base : AliasTable} {scope : Scope}
  {root : String}

/-- A path: each hop is seen afterwards, and the resolution is that of the course. -/
theorem Tracks.follow {w : Walk} {seen : List (List String)} {here : Place} {anchor : Anchor}
    (tracks : Tracks cat reserved base scope root w seen)
    (stands : Stands cat scope root w here anchor) (consumed : Nat) (hops : List String) :
    ∃ w', w.follow cat scope consumed anchor hops =
        ((cat.course scope.joinsReverse consumed here hops).resolution
          (w'.aliases.naming scope.id root), w') ∧
      Tracks cat reserved base scope root w'
        ((cat.joined scope.joinsReverse here hops).foldl note seen) ∧
      Stands cat scope root w' (cat.course scope.joinsReverse consumed here hops).place
        ((cat.course scope.joinsReverse consumed here hops).place.anchor
          (w'.aliases.naming scope.id root)) ∧
      w.aliases.Grows w'.aliases := by
  induction hops generalizing w seen here anchor consumed with
  | nil =>
      refine ⟨w, ?_, tracks, ?_, .refl _⟩
      · rw [follow_nil, stands.eq_anchor]
        rfl
      · exact stands.eq_anchor ▸ stands
  | cons field rest ih =>
      rw [follow_cons, stands.collection_eq]
      simp only [Catalog.course, Catalog.joined]
      cases linked : cat.link? scope.joinsReverse here.collection field with
      | none =>
          have same := stands.eq_anchor
          cases known : cat.relationFor here.collection field with
          | none => exact ⟨w, by rw [same]; rfl, tracks, same ▸ stands, .refl _⟩
          | some exposed => exact ⟨w, by rw [same]; rfl, tracks, same ▸ stands, .refl _⟩
      | some link =>
          obtain ⟨there, w₁, step, tracks₁, stands₁, grows₁⟩ := tracks.hop stands linked
          obtain ⟨w₂, run, tracks₂, stands₂, grows₂⟩ := ih tracks₁ stands₁ (consumed + 1)
          exact ⟨w₂, by simpa only [step] using run, tracks₂, stands₂, grows₁.trans grows₂⟩

/-- A path whose hops are all seen changes nothing. -/
theorem Tracks.follow_seen {w : Walk} {seen : List (List String)} {here : Place} {anchor : Anchor}
    (tracks : Tracks cat reserved base scope root w seen)
    (stands : Stands cat scope root w here anchor) (consumed : Nat) {hops : List String}
    (known : cat.joined scope.joinsReverse here hops ⊆ seen) :
    w.follow cat scope consumed anchor hops =
      ((cat.course scope.joinsReverse consumed here hops).resolution
        (w.aliases.naming scope.id root), w) := by
  induction hops generalizing here anchor consumed with
  | nil =>
      rw [follow_nil, stands.eq_anchor]
      rfl
  | cons field rest ih =>
      rw [follow_cons, stands.collection_eq]
      simp only [Catalog.course, Catalog.joined] at known ⊢
      cases linked : cat.link? scope.joinsReverse here.collection field with
      | none =>
          rw [stands.eq_anchor]
          cases cat.relationFor here.collection field with
          | none => rfl
          | some exposed => rfl
      | some link =>
          simp only [linked, List.cons_subset] at known
          simp only [tracks.hop_seen stands known.1]
          have stands₁ : Stands cat scope root w (here.next field link)
              ((here.next field link).anchor (w.aliases.naming scope.id root)) :=
            ⟨stands.located.next linked, rfl, tracks.names _ (.inr known.1)⟩
          exact ih stands₁ _ known.2

end Path

end Walk

/-! ### Whole filters -/

namespace Compile

variable {reserved : List String} {base : AliasTable} {root : String}

mutual

/-- After the first walk all hops of the filter are seen. -/
theorem discover_tracks (f : Frame) : ∀ (entries : List Entry) {w : Walk}
    {seen : List (List String)} {here : Place} {anchor : Anchor},
    w.Tracks f.catalog reserved base f.scope root seen →
    w.Stands f.catalog f.scope root here anchor →
    (discover f anchor entries w).Tracks f.catalog reserved base f.scope root
        ((f.catalog.visits f.scope.joinsReverse here entries).foldl note seen) ∧
      w.aliases.Grows (discover f anchor entries w).aliases
  | [], _, _, _, _, tracks, _ => ⟨tracks, .refl _⟩
  | e :: rest, w, seen, here, anchor, tracks, stands => by
      obtain ⟨tracks₁, grows₁⟩ := discoverEntry_tracks f e tracks stands
      obtain ⟨tracks₂, grows₂⟩ := discover_tracks f rest tracks₁ (stands.later grows₁)
      rw [Catalog.visits, List.foldl_append]
      exact ⟨tracks₂, grows₁.trans grows₂⟩

theorem discoverEntry_tracks (f : Frame) : ∀ (e : Entry) {w : Walk}
    {seen : List (List String)} {here : Place} {anchor : Anchor},
    w.Tracks f.catalog reserved base f.scope root seen →
    w.Stands f.catalog f.scope root here anchor →
    (discoverEntry f anchor e w).Tracks f.catalog reserved base f.scope root
        ((f.catalog.visitsEntry f.scope.joinsReverse here e).foldl note seen) ∧
      w.aliases.Grows (discoverEntry f anchor e w).aliases
  | .group op children, w, seen, here, anchor, tracks, stands => by
      simp only [discoverEntry, Catalog.visitsEntry]
      split
      · exact ⟨tracks, .refl _⟩
      · exact discoverAll_tracks f children tracks stands
  | .leaf path _ _, w, seen, here, anchor, tracks, stands => by
      obtain ⟨w₁, run, tracks₁, -, grows₁⟩ := tracks.follow stands 0 path.dropLast
      simp only [discoverEntry, Catalog.visitsEntry, Frame.follow, run]
      exact ⟨tracks₁, grows₁⟩
  | .nested path body, w, seen, here, anchor, tracks, stands => by
      obtain ⟨w₁, run, tracks₁, stands₁, grows₁⟩ := tracks.follow stands 0 path
      simp only [discoverEntry, Catalog.visitsEntry, Frame.follow, run, List.foldl_append]
      cases led : f.catalog.course f.scope.joinsReverse 0 here path with
      | reached there =>
          rw [led] at stands₁
          obtain ⟨tracks₂, grows₂⟩ := discover_tracks f body tracks₁ stands₁
          exact ⟨tracks₂, grows₁.trans grows₂⟩
      | deferred _ _ _ => exact ⟨tracks₁, grows₁⟩
      | unresolved _ _ => exact ⟨tracks₁, grows₁⟩

theorem discoverAll_tracks (f : Frame) : ∀ (children : List (List Entry)) {w : Walk}
    {seen : List (List String)} {here : Place} {anchor : Anchor},
    w.Tracks f.catalog reserved base f.scope root seen →
    w.Stands f.catalog f.scope root here anchor →
    (discoverAll f anchor children w).Tracks f.catalog reserved base f.scope root
        ((f.catalog.visitsAll f.scope.joinsReverse here children).foldl note seen) ∧
      w.aliases.Grows (discoverAll f anchor children w).aliases
  | [], _, _, _, _, tracks, _ => ⟨tracks, .refl _⟩
  | child :: rest, w, seen, here, anchor, tracks, stands => by
      obtain ⟨tracks₁, grows₁⟩ := discover_tracks f child tracks stands
      obtain ⟨tracks₂, grows₂⟩ := discoverAll_tracks f rest tracks₁ (stands.later grows₁)
      rw [Catalog.visitsAll, List.foldl_append]
      exact ⟨tracks₂, grows₁.trans grows₂⟩

end

/-! ### The first join -/

/-- What a hop keeps, the walks of filters keep. -/
structure Kept (f : Frame) (P : Walk → Prop) : Prop where
  hop : ∀ {w : Walk} (here : Anchor) (field table left right : String), P w →
    P (w.hop f.scope here field table left right).2

theorem Kept.follow {f : Frame} {P : Walk → Prop} (kept : Kept f P) (here : Anchor)
    (hops : List String) {w : Walk} (holds : P w) : P (f.follow here hops w).2 := by
  have general : ∀ consumed, P (w.follow f.catalog f.scope consumed here hops).2 := by
    induction hops generalizing w here with
    | nil =>
        intro _
        exact holds
    | cons field rest ih =>
        intro consumed
        rw [Walk.follow_cons]
        split
        · exact ih _ (kept.hop here field _ _ _ holds) _
        · split <;> exact holds
  exact general 0

mutual

theorem Kept.discover {f : Frame} {P : Walk → Prop} (kept : Kept f P) :
    ∀ (entries : List Entry) {w : Walk} {here : Anchor}, P w → P (discover f here entries w)
  | [], _, _, holds => holds
  | e :: rest, _, _, holds => Kept.discover kept rest (Kept.discoverEntry kept e holds)

theorem Kept.discoverEntry {f : Frame} {P : Walk → Prop} (kept : Kept f P) :
    ∀ (e : Entry) {w : Walk} {here : Anchor}, P w → P (discoverEntry f here e w)
  | .group op children, w, here, holds => by
      simp only [Compile.discoverEntry]
      split
      · exact holds
      · exact Kept.discoverAll kept children holds
  | .leaf path _ _, w, here, holds => kept.follow here path.dropLast holds
  | .nested path body, w, here, holds => by
      have reached := kept.follow here path holds
      simp only [Compile.discoverEntry]
      split
      · next run =>
          rw [run] at reached
          exact Kept.discover kept body reached
      · next run =>
          rw [run] at reached
          exact reached

theorem Kept.discoverAll {f : Frame} {P : Walk → Prop} (kept : Kept f P) :
    ∀ (children : List (List Entry)) {w : Walk} {here : Anchor}, P w →
      P (discoverAll f here children w)
  | [], _, _, holds => holds
  | child :: rest, _, _, holds => Kept.discoverAll kept rest (Kept.discover kept child holds)

end

/-- Nothing was joined yet, or the first join has the alias that was the next one of the table that
the walk began with. -/
def LedBy (base : AliasTable) (w : Walk) : Prop :=
  w.joins = [] ∧ w.aliases = base ∨ w.joins.head?.map (·.qualifier) = some base.next.1

theorem kept_ledBy (f : Frame) (base : AliasTable) : Kept f (LedBy base) where
  hop {w} here field table left right led := by
    rcases led with ⟨none, rfl⟩ | first
    · rcases w.aliases.aliasFor_cases ⟨f.scope.id, here.qualifier, field⟩ with
        ⟨name, -, call⟩ | ⟨t', call, -⟩
      · exact .inl (by simp [Walk.hop, call, none])
      · exact .inr (by simp [Walk.hop, call, none])
    · refine .inr ?_
      simp only [Walk.hop]
      split
      · rw [List.head?_append, Option.map_or, first, Option.some_or]
      · exact first

/-- The first join of a filter, if there is any, has the first alias. -/
theorem head_discover (f : Frame) (base : AliasTable) (here : Anchor) (filter : Filter) :
    ∀ j ∈ (discover f here filter ⟨base, []⟩).joins.head?, j.qualifier = base.next.1 := by
  intro j mem
  have start : LedBy base ⟨base, []⟩ := .inl ⟨rfl, rfl⟩
  have led : LedBy base (discover f here filter ⟨base, []⟩) :=
    (kept_ledBy f base).discover filter start
  rcases led with ⟨none, -⟩ | first
  · simp [none] at mem
  · simpa [Option.mem_def.mp mem] using first

end Compile

end FilterSql
