import FilterSql.Proofs.Aftermath
import FilterSql.Proofs.Failure
import FilterSql.Proofs.Strictness

/-!
Paths that are followed in two parts, and again.

A path behind another one whose hops are all joined is followed from where that one ends
(`Walk.follow_append`). A path that is followed again leads to the same end, and no join is made for
it (`Walk.follow_again`), since no walk takes an alias back (`Compile.emit_growing`). So a
computation in two steps at the end of a path may as well follow the path twice
(`Compile.ahead_bind`).
-/

namespace FilterSql

/-! ### Paths in front of paths -/

/-- The anchor at which a walk along a path ends. -/
def Resolution.anchor : Resolution → Anchor
  | .reached there | .deferred there _ _ | .unresolved there _ => there

/-- A resolution of which more hops were followed before. -/
def Resolution.shift (n : Nat) : Resolution → Resolution
  | .deferred there r consumed => .deferred there r (consumed + n)
  | other => other

namespace Walk

variable (cat : Catalog) (scope : Scope)

theorem follow_shift (n : Nat) (hops : List String) (consumed : Nat) (here : Anchor) (w : Walk) :
    w.follow cat scope (consumed + n) here hops =
      ((w.follow cat scope consumed here hops).1.shift n,
        (w.follow cat scope consumed here hops).2) := by
  induction hops generalizing consumed here w with
  | nil => rfl
  | cons field rest ih =>
      rw [follow_cons, follow_cons]
      split
      · rw [Nat.add_right_comm, ih]
      · split
        · rw [Nat.add_right_comm]
          rfl
        · rfl

/-- A path behind another one whose hops are all joined is followed from where that one ends. -/
theorem follow_append {path : List String} {table : String} {here : Anchor}
    (joined : cat.arrival scope.joinsReverse here.collection path = some table)
    (hops : List String) (consumed : Nat) (w : Walk) :
    w.follow cat scope consumed here (path ++ hops) =
      (w.follow cat scope consumed here path).2.follow cat scope (consumed + path.length)
        (w.follow cat scope consumed here path).1.anchor hops := by
  induction path generalizing consumed here w with
  | nil => rfl
  | cons field rest ih =>
      obtain ⟨link, linked, joined⟩ := Option.bind_eq_some_iff.mp joined
      rw [List.cons_append, follow_cons, follow_cons, linked]
      dsimp only
      rw [ih joined, List.length_cons, Nat.add_right_comm, Nat.add_assoc]

/-- A path whose hops are all joined is followed to its end. -/
theorem follow_joined {path : List String} {table : String} {here : Anchor}
    (joined : cat.arrival scope.joinsReverse here.collection path = some table)
    (consumed : Nat) (w : Walk) : ∃ there : Anchor, there.collection = table ∧
      (w.follow cat scope consumed here path).1 = .reached there := by
  induction path generalizing consumed here w with
  | nil =>
      cases joined
      exact ⟨here, rfl, rfl⟩
  | cons field rest ih =>
      obtain ⟨link, linked, joined⟩ := Option.bind_eq_some_iff.mp joined
      rw [follow_cons, linked]
      exact ih joined (consumed + 1) _

theorem hop_of_issued {here : Anchor} {field name : String} {w : Walk}
    (issued : w.aliases.issued[(⟨scope.id, here.qualifier, field⟩ : AliasKey)]? = some name)
    (table left right : String) :
    w.hop scope here field table left right = (⟨table, name⟩, w) := by
  simp [hop, AliasTable.aliasFor_of_issued issued]

/-- A hop ends under the alias that is given out for it. -/
theorem issued_hop (here : Anchor) (field table left right : String) (w : Walk) :
    ∃ name, (w.hop scope here field table left right).1 = ⟨table, name⟩ ∧
      (w.hop scope here field table left right).2.aliases.issued[
        (⟨scope.id, here.qualifier, field⟩ : AliasKey)]? = some name := by
  rcases w.aliases.aliasFor_cases ⟨scope.id, here.qualifier, field⟩ with
    ⟨name, known, call⟩ | ⟨t', call, issues⟩
  · exact ⟨name, by simp [hop, call], by simpa [hop, call] using known⟩
  · exact ⟨w.aliases.next.1, by simp [hop, call], by simp [hop, call, issues.issued]⟩

theorem grows_follow (hops : List String) (consumed : Nat) (here : Anchor) (w : Walk) :
    w.aliases.Grows (w.follow cat scope consumed here hops).2.aliases := by
  have start : w.aliases.Grows (w.follow cat scope 0 here hops).2.aliases :=
    (Compile.kept_grows ⟨cat, .ignore, scope⟩ w.aliases).follow here hops (.refl _)
  rwa [← Nat.zero_add consumed, follow_shift]

/-- A path that is followed again leads to the same end, and no join is made for it. -/
theorem follow_again (hops : List String) (consumed : Nat) (here : Anchor) {w w' : Walk}
    (grows : (w.follow cat scope consumed here hops).2.aliases.Grows w'.aliases) :
    w'.follow cat scope consumed here hops =
      ((w.follow cat scope consumed here hops).1, w') := by
  induction hops generalizing consumed here w with
  | nil => rfl
  | cons field rest ih =>
      rw [follow_cons] at grows ⊢
      rw [follow_cons cat scope consumed here field rest w]
      cases linked : cat.link? scope.joinsReverse here.collection field with
      | none => cases cat.relationFor here.collection field <;> rfl
      | some link =>
          simp only [linked] at grows ⊢
          obtain ⟨name, led, issued⟩ :=
            issued_hop scope here field link.table link.near link.far w
          have again := hop_of_issued scope
            (grows.issued ((grows_follow cat scope rest (consumed + 1) _ _).issued issued))
            link.table link.near link.far
          rw [again, ← led]
          exact ih _ _ grows

end Walk

/-! ### Computations behind a path -/

namespace Compile

variable {f : Frame} {α β : Type}

/-- Follows hops and goes on where they end. -/
def Frame.ahead (f : Frame) (here : Anchor) (hops : List String)
    (k : Anchor → Step Walk α) : Step Walk α := do
  let resolution ← Step.ofTotal (f.follow here hops)
  k resolution.anchor

theorem ahead_apply (here : Anchor) (hops : List String) (k : Anchor → Step Walk α) (w : Walk) :
    f.ahead here hops k w =
      k (f.follow here hops w).1.anchor (f.follow here hops w).2 := rfl

/-- Steps that take no alias back. -/
def Growing (m : Step Walk α) : Prop := ∀ t : AliasTable, m.Keeps fun w => t.Grows w.aliases

/-- To go on behind a path in two steps is to follow it twice. -/
theorem ahead_bind {m : Anchor → Step Walk α} (growing : ∀ there, Growing (m there))
    (here : Anchor) (hops : List String) (k : α → Anchor → Step Walk β) :
    (f.ahead here hops fun there => m there >>= fun a => k a there) =
      f.ahead here hops m >>= fun a => f.ahead here hops (k a) := by
  funext w
  rw [Step.bind_apply, ahead_apply, ahead_apply, Step.bind_apply]
  rcases ran : m (f.follow here hops w).1.anchor (f.follow here hops w).2 with ⟨e | a, w'⟩
  · rfl
  · have grows := growing (f.follow here hops w).1.anchor _ (f.follow here hops w).2 (.refl _)
    rw [ran] at grows
    have again : f.follow here hops w' = ((f.follow here hops w).1, w') :=
      Walk.follow_again f.catalog f.scope hops 0 here grows
    dsimp only
    rw [ahead_apply, again]

/-- A path behind another one, as it is followed from where that one ends. -/
theorem follow_append {path : List String} {table : String} {here : Anchor}
    (joined : f.catalog.arrival f.scope.joinsReverse here.collection path = some table)
    (hops : List String) (k : Resolution → Step Walk α) :
    (f.ahead here path fun there => Step.ofTotal (f.follow there hops) >>= fun resolution =>
        k (resolution.shift path.length)) =
      Step.ofTotal (f.follow here (path ++ hops)) >>= k := by
  funext w
  have led := Walk.follow_append f.catalog f.scope joined hops 0 w
  rw [Walk.follow_shift] at led
  rw [ahead_apply, Step.bind_apply, Step.bind_apply]
  simp only [Step.ofTotal, Frame.follow, led]

/-! ### Fields by where their paths end -/

/-- What the second walk makes of a comparison at the end of its hops. -/
def comparesAt (f : Frame) (delegate : Option Delegate) (start : String) (path : List String)
    (operator : Operator) (operand : Json) : Resolution → Step Walk (List Predicate)
  | .reached there => Step.ofExcept (f.emitLeaf start there path operator operand)
  | .deferred there r consumed =>
    delegated delegate there r [.leaf (path.drop consumed) operator operand]
  | .unresolved _ segment => Step.ofExcept (f.emitUnresolved start path segment)

/-- What the second walk makes of a nested filter at the end of its path. -/
def nestsAt (f : Frame) (delegate : Option Delegate) (start : String) (path : List String)
    (body : List Entry) : Resolution → Step Walk (List Predicate)
  | .reached there => emit f delegate there body
  | .deferred there r consumed =>
    let rest := path.drop consumed
    delegated delegate there r (if rest.isEmpty then body else [.nested rest body])
  | .unresolved _ segment => Step.ofExcept (f.emitUnresolved start path segment)

theorem emitEntry_leaf (f : Frame) (delegate : Option Delegate) (here : Anchor)
    (path : List String) (operator : Operator) (operand : Json) :
    emitEntry f delegate here (.leaf path operator operand) =
      Step.ofTotal (f.follow here path.dropLast) >>=
        comparesAt f delegate here.collection path operator operand := by
  rw [emitEntry]
  congr 1

theorem emitEntry_nested (f : Frame) (delegate : Option Delegate) (here : Anchor)
    (path : List String) (body : List Entry) :
    emitEntry f delegate here (.nested path body) =
      Step.ofTotal (f.follow here path) >>= nestsAt f delegate here.collection path body := by
  rw [emitEntry]
  congr 1

/-! ### The walks take no alias back -/

/-- What is asked of a delegate: it takes no alias back. -/
def Delivering (delegate : Option Delegate) : Prop :=
  ∀ d ∈ delegate, ∀ (there : Anchor) (r : Relation) (child : Filter) (t : AliasTable),
    t.Grows (d there r child t).2

variable {delegate : Option Delegate}

theorem follow_growing (f : Frame) (here : Anchor) (hops : List String) :
    Growing (Step.ofTotal (f.follow here hops)) := fun t _ grows =>
  (kept_grows f t).follow here hops grows

theorem delegated_growing (delivering : Delivering delegate) (there : Anchor) (r : Relation)
    (child : Filter) : Growing (delegated delegate there r child) := by
  intro t
  cases delegate with
  | none => exact .pure _
  | some d =>
      refine .bind ?_ fun _ => .pure _
      intro w grows
      exact grows.trans (delivering d rfl there r child w.aliases)

mutual

theorem emit_growing (delivering : Delivering delegate) : ∀ (entries : List Entry) (here : Anchor),
    Growing (emit f delegate here entries)
  | [], _ => fun _ => .pure _
  | e :: rest, here => fun t =>
      .bind (emitEntry_growing delivering e here t) fun _ =>
        .bind (emit_growing delivering rest here t) fun _ => .pure _

theorem emitEntry_growing (delivering : Delivering delegate) : ∀ (e : Entry) (here : Anchor),
    Growing (emitEntry f delegate here e)
  | .group op children, here => fun t => by
      simp only [emitEntry]
      split
      · exact .pure _
      · exact .bind (emitAll_growing delivering children here t) fun _ => .pure _
  | .leaf path operator operand, here => fun t =>
      .bind (follow_growing f here path.dropLast t) fun resolution => by
        cases resolution with
        | reached there => exact .ofExcept _
        | deferred there r consumed => exact delegated_growing delivering there r _ t
        | unresolved _ segment => exact .ofExcept _
  | .nested path body, here => fun t =>
      .bind (follow_growing f here path t) fun resolution => by
        cases resolution with
        | reached there => exact emit_growing delivering body there t
        | deferred there r consumed => exact delegated_growing delivering there r _ t
        | unresolved _ segment => exact .ofExcept _

theorem emitAll_growing (delivering : Delivering delegate) :
    ∀ (children : List (List Entry)) (here : Anchor), Growing (emitAll f delegate here children)
  | [], _ => fun _ => .pure _
  | child :: rest, here => fun t =>
      .bind (emit_growing delivering child here t) fun _ =>
        .bind (emitAll_growing delivering rest here t) fun _ => .pure _

end

end Compile

end FilterSql
