import FilterSql.Compile.Filter
import FilterSql.Schema.System

/-!
Where field paths lead, aliases left aside.

The walks of a filter are described by hop sequences from the collection they start from: `course`
is what a walk along a path ends in, `joined` lists the prefixes of a path that it joins, and
`visits` lists them for a filter in the order of the walk. A hop sequence determines the collection
it leads to (`arrival`) and the relation of its last hop (`lastLink`), so that the join of a hop
sequence is a function of the names given to hop sequences (`joinOf`).
-/

namespace FilterSql

/-- The other end of a relation: its table, and the columns that are compared there and on the near
side. -/
structure Link where
  table : String
  near : String
  far : String
  deriving DecidableEq, Repr, Inhabited

namespace Relation

/-- From the many side to the one side. -/
def forward (r : Relation) : Link := ⟨r.oneCollection, r.manyField, r.onePrimary⟩

/-- From the one side to the many side. -/
def backward (r : Relation) : Link := ⟨r.manyCollection, r.onePrimary, r.manyField⟩

end Relation

/-- A place in a scope: a collection, and the hops that lead there. -/
structure Place where
  collection : String
  hops : List String
  deriving DecidableEq, Repr

namespace Place

/-- The beginning of all paths of a scope. -/
def root (collection : String) : Place := ⟨collection, []⟩

/-- The place one hop further. -/
def next (here : Place) (field : String) (link : Link) : Place :=
  ⟨link.table, here.hops ++ [field]⟩

end Place

/-- What a path leads to, as `Resolution` but for the aliases. -/
inductive Course where
  | reached (there : Place)
  | deferred (there : Place) (relation : Relation) (consumed : Nat)
  | unresolved (there : Place) (segment : String)
  deriving DecidableEq, Repr

/-- Where a walk along a path ends. -/
def Course.place : Course → Place
  | .reached there | .deferred there _ _ | .unresolved there _ => there

namespace Catalog

variable (cat : Catalog) (joinsReverse : Bool)

/-- The link of a hop that is joined: forward ones always, reverse ones in a sub-select. -/
def link? (collection field : String) : Option Link :=
  match cat.relationFor collection field with
  | some (r, .forward) => some r.forward
  | some (r, .reverse) => if joinsReverse then some r.backward else none
  | none => none

/-- What a path leads to; `consumed` counts the hops already followed. -/
def course (consumed : Nat) (here : Place) : List String → Course
  | [] => .reached here
  | field :: rest =>
    match cat.link? joinsReverse here.collection field with
    | some link => course (consumed + 1) (here.next field link) rest
    | none =>
      match cat.relationFor here.collection field with
      | some (r, _) => .deferred here r (consumed + 1)
      | none => .unresolved here field

/-- Books with an author, and the books of an author on the other end. -/
def library : Catalog where
  collections :=
    [ .ofFields "books" "id" [("id", "integer"), ("title", "text"), ("author", "integer")],
      .ofFields "authors" "id" [("id", "integer"), ("name", "text")] ] ++ systemCollections
  relations := ⟨"books", "author", "authors", "id", some "books"⟩ :: systemRelations

/-- The catalog that its own collections and relations are accepted as. -/
theorem build_library :
    build (library.collections.take 2) (library.relations.take 1) = .ok library :=
  rfl

-- The second hop is a reverse one: a whole statement stops there, a sub-select goes on.
example : library.course false 0 (.root "books") ["author", "books"] =
    .deferred ⟨"authors", ["author"]⟩ ⟨"books", "author", "authors", "id", some "books"⟩ 2 := by
  decide

example : library.course true 0 (.root "books") ["author", "books"] =
    .reached ⟨"books", ["author", "books"]⟩ := by
  decide

/-- The hop sequences that a walk along a path joins. -/
def joined (here : Place) : List String → List (List String)
  | [] => []
  | field :: rest =>
    match cat.link? joinsReverse here.collection field with
    | some link => (here.hops ++ [field]) :: joined (here.next field link) rest
    | none => []

mutual

/-- The hop sequences that the walks of a filter join, in order and with repetitions. -/
def visits (here : Place) : List Entry → List (List String)
  | [] => []
  | e :: rest => visitsEntry here e ++ visits here rest

/-- The hop sequences of an entry. -/
def visitsEntry (here : Place) : Entry → List (List String)
  | .group op children =>
    if Entry.shortCircuits op children then [] else visitsAll here children
  | .leaf path _ _ => cat.joined joinsReverse here path.dropLast
  | .nested path body =>
    cat.joined joinsReverse here path ++
      match cat.course joinsReverse 0 here path with
      | .reached there => visits there body
      | _ => []

/-- The hop sequences of combined filters. -/
def visitsAll (here : Place) : List (List Entry) → List (List String)
  | [] => []
  | child :: rest => visits here child ++ visitsAll here rest

end

/-- The collection that joined hops lead to. -/
def arrival : (collection : String) → List String → Option String
  | collection, [] => some collection
  | collection, field :: rest =>
    (cat.link? joinsReverse collection field).bind fun link => arrival link.table rest

/-- The link of the last hop of a hop sequence. -/
def lastLink (root : String) (path : List String) : Option Link :=
  path.getLast?.bind fun field =>
    (cat.arrival joinsReverse root path.dropLast).bind (cat.link? joinsReverse · field)

/-- The join of a hop sequence, given the names of hop sequences. -/
def joinOf (root : String) (names : List String → String) (path : List String) : Join :=
  let link := (cat.lastLink joinsReverse root path).getD default
  { table := link.table
    qualifier := names path
    left := ⟨names path.dropLast, link.near⟩
    right := ⟨names path, link.far⟩ }

/-- A place that its hops lead to. -/
def Locates (root : String) (here : Place) : Prop :=
  cat.arrival joinsReverse root here.hops = some here.collection

variable {cat joinsReverse}

theorem link?_eq_none_iff {collection field : String} :
    cat.link? joinsReverse collection field = none ↔
      cat.relationFor collection field = none ∨
        joinsReverse = false ∧ ∃ r, cat.relationFor collection field = some (r, .reverse) := by
  unfold link?
  split <;> simp_all

/-- Outside of sub-selects only forward relations are joined. -/
theorem link?_false_eq_some {collection field : String} {link : Link}
    (linked : cat.link? false collection field = some link) :
    ∃ r ∈ cat.relations, link = r.forward := by
  unfold link? at linked
  split at linked
  · next r exposed =>
      cases linked
      obtain ⟨r', mem, found⟩ := List.exists_of_findSome?_eq_some exposed
      obtain ⟨_, _, same⟩ := Option.map_eq_some_iff.mp found
      cases same
      exact ⟨r, mem, rfl⟩
  · cases linked
  · cases linked

theorem arrival_append (collection : String) (p q : List String) :
    cat.arrival joinsReverse collection (p ++ q) =
      (cat.arrival joinsReverse collection p).bind (cat.arrival joinsReverse · q) := by
  induction p generalizing collection with
  | nil => rfl
  | cons field rest ih =>
      simp only [List.cons_append, arrival]
      cases cat.link? joinsReverse collection field with
      | none => rfl
      | some link => simp [ih]

@[simp] theorem lastLink_snoc (root : String) (path : List String) (field : String) :
    cat.lastLink joinsReverse root (path ++ [field]) =
      (cat.arrival joinsReverse root path).bind (cat.link? joinsReverse · field) := by
  simp [lastLink]

theorem locates_root (root : String) : cat.Locates joinsReverse root (.root root) := rfl

theorem Locates.next {root field : String} {here : Place} {link : Link}
    (located : cat.Locates joinsReverse root here)
    (linked : cat.link? joinsReverse here.collection field = some link) :
    cat.Locates joinsReverse root (here.next field link) := by
  unfold Locates at *
  simp [Place.next, arrival_append, located, arrival, linked]

theorem Locates.lastLink_next {root field : String} {here : Place} {link : Link}
    (located : cat.Locates joinsReverse root here)
    (linked : cat.link? joinsReverse here.collection field = some link) :
    cat.lastLink joinsReverse root (here.hops ++ [field]) = some link := by
  unfold Locates at located
  simp [located, linked]

theorem joinOf_next {root field : String} {here : Place} {link : Link}
    (names : List String → String) (located : cat.Locates joinsReverse root here)
    (linked : cat.link? joinsReverse here.collection field = some link) :
    cat.joinOf joinsReverse root names (here.hops ++ [field]) =
      { table := link.table
        qualifier := names (here.hops ++ [field])
        left := ⟨names here.hops, link.near⟩
        right := ⟨names (here.hops ++ [field]), link.far⟩ } := by
  simp [joinOf, located.lastLink_next linked]

theorem joinOf_congr {root : String} {names names' : List String → String} {path : List String}
    (last : names path = names' path) (before : names path.dropLast = names' path.dropLast) :
    cat.joinOf joinsReverse root names path = cat.joinOf joinsReverse root names' path := by
  simp [joinOf, last, before]

/-- A walk ends at a place that its hops lead to. -/
theorem Locates.course {root : String} {here : Place} (located : cat.Locates joinsReverse root here)
    {start : Nat} {hops : List String} {led : Course}
    (ran : cat.course joinsReverse start here hops = led) :
    cat.Locates joinsReverse root led.place := by
  subst ran
  induction hops generalizing here start with
  | nil => exact located
  | cons field rest ih =>
      simp only [Catalog.course]
      split
      · next linked => exact ih (located.next linked)
      · split <;> exact located

/-- A reverse hop is deferred only where reverse hops are not joined. -/
theorem relationFor_of_course_deferred {here there : Place} {consumed used : Nat} {r : Relation}
    {hops : List String}
    (led : cat.course joinsReverse consumed here hops = .deferred there r used) :
    joinsReverse = false ∧
      ∃ field, cat.relationFor there.collection field = some (r, .reverse) := by
  induction hops generalizing here consumed with
  | nil => cases led
  | cons field rest ih =>
      simp only [course] at led
      split at led
      · exact ih led
      · next unlinked =>
          split at led
          · next direction known =>
              cases led
              rcases link?_eq_none_iff.mp unlinked with missing | ⟨outer, r', exposed⟩
              · simp [missing] at known
              · rw [exposed] at known
                cases known
                exact ⟨outer, field, exposed⟩
          · cases led

/-- A path is left behind up to the reverse hop in front of which the walk stops, and no further. -/
theorem consumed_of_course_deferred {here there : Place} {start consumed : Nat} {r : Relation}
    {hops : List String}
    (led : cat.course joinsReverse start here hops = .deferred there r consumed) :
    start < consumed ∧ consumed ≤ start + hops.length := by
  induction hops generalizing here start with
  | nil => cases led
  | cons field rest ih =>
      simp only [course] at led
      rw [List.length_cons]
      split at led
      · have := ih led
        omega
      · split at led
        · cases led
          omega
        · cases led

/-- A path whose hops are all joined leads as far as its hops. -/
theorem hops_of_course_reached {here there : Place} {consumed : Nat} {hops : List String}
    (led : cat.course joinsReverse consumed here hops = .reached there) :
    there.hops = here.hops ++ hops := by
  induction hops generalizing here consumed with
  | nil =>
      cases led
      simp
  | cons field rest ih =>
      simp only [course] at led
      split at led
      · rw [ih led, Place.next, List.append_assoc, List.singleton_append]
      · split at led <;> cases led

/-- A deferred path stops in front of the reverse hop that it consumes last. -/
theorem hops_of_course_deferred {here there : Place} {start consumed : Nat} {r : Relation}
    {hops : List String}
    (led : cat.course joinsReverse start here hops = .deferred there r consumed) :
    ∃ field, cat.relationFor there.collection field = some (r, .reverse) ∧
      there.hops ++ [field] = here.hops ++ hops.take (consumed - start) := by
  induction hops generalizing here start with
  | nil => cases led
  | cons field rest ih =>
      simp only [course] at led
      split at led
      · have := (consumed_of_course_deferred led).1
        obtain ⟨last, exposed, eq⟩ := ih led
        refine ⟨last, exposed, ?_⟩
        rw [eq, Place.next, List.append_assoc, List.singleton_append,
          show consumed - start = consumed - (start + 1) + 1 by omega, List.take_succ_cons]
      · next unlinked =>
          split at led
          · next direction known =>
              cases led
              rcases link?_eq_none_iff.mp unlinked with missing | ⟨-, r', exposed⟩
              · simp [missing] at known
              · rw [exposed] at known
                cases known
                exact ⟨field, exposed, by simp⟩
          · cases led

/-- Hops that lead somewhere outside of a sub-select lead there inside of one. -/
theorem arrival_true {collection table : String} {hops : List String}
    (arrives : cat.arrival joinsReverse collection hops = some table) :
    cat.arrival true collection hops = some table := by
  induction hops generalizing collection with
  | nil => exact arrives
  | cons field rest ih =>
      simp only [arrival, Option.bind_eq_some_iff] at arrives ⊢
      obtain ⟨link, linked, arrives⟩ := arrives
      refine ⟨link, ?_, ih arrives⟩
      unfold link? at linked ⊢
      split at linked
      · exact linked
      · cases joinsReverse <;> simp_all
      · cases linked

end Catalog

/-! ### Following hops, case by case -/

namespace Walk

theorem follow_nil (cat : Catalog) (scope : Scope) (consumed : Nat) (here : Anchor) (w : Walk) :
    w.follow cat scope consumed here [] = (.reached here, w) := rfl

/-- A hop that is joined goes on behind the join, and any other one ends the walk. -/
theorem follow_cons (cat : Catalog) (scope : Scope) (consumed : Nat) (here : Anchor)
    (field : String) (rest : List String) (w : Walk) :
    w.follow cat scope consumed here (field :: rest) =
      match cat.link? scope.joinsReverse here.collection field with
      | some link =>
        let stepped := w.hop scope here field link.table link.near link.far
        stepped.2.follow cat scope (consumed + 1) stepped.1 rest
      | none =>
        match cat.relationFor here.collection field with
        | some (r, _) => (.deferred here r (consumed + 1), w)
        | none => (.unresolved here field, w) := by
  simp only [follow, Catalog.link?]
  cases cat.relationFor here.collection field with
  | none => rfl
  | some exposed =>
      obtain ⟨r, direction⟩ := exposed
      cases direction with
      | forward => rfl
      | reverse => cases scope.joinsReverse <;> rfl

end Walk

end FilterSql
