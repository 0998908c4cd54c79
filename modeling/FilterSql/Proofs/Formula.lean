import FilterSql.Filter.Document
import FilterSql.Proofs.Fidelity

/-!
Compiled filters as formulas.

The predicate of a filter that compares columns of its own collection only (`Filter.isFlat`) is a
formula, whose atoms may have any truth values. It is made without regard to aliases
(`Filter.compile_flat`), its value depends on the atoms only (`Predicate.value_congr`), and it has
the value that all of its atoms share if they do (`Predicate.Solid`).
-/

namespace FilterSql

namespace Predicate

mutual

/-- The value of a predicate as a formula, given those of its atoms. -/
def value (v : Predicate → Prop) : Predicate → Prop
  | .and items => allValues v items
  | .or items => someValue v items
  | .compare c op value => v (.compare c op value)
  | .like c pattern negated insensitive => v (.like c pattern negated insensitive)
  | .inList c values negated => v (.inList c values negated)
  | .between c low high negated => v (.between c low high negated)
  | .isNull c negated => v (.isNull c negated)
  | .inSelect c select => v (.inSelect c select)

def allValues (v : Predicate → Prop) : List Predicate → Prop
  | [] => True
  | p :: rest => value v p ∧ allValues v rest

def someValue (v : Predicate → Prop) : List Predicate → Prop
  | [] => False
  | p :: rest => value v p ∨ someValue v rest

end

mutual

/-- The atoms of a predicate as a formula, with repetitions. -/
def atoms : Predicate → List Predicate
  | .and items => atomsAll items
  | .or items => atomsAll items
  | .compare c op value => [.compare c op value]
  | .like c pattern negated insensitive => [.like c pattern negated insensitive]
  | .inList c values negated => [.inList c values negated]
  | .between c low high negated => [.between c low high negated]
  | .isNull c negated => [.isNull c negated]
  | .inSelect c select => [.inSelect c select]

/-- The atoms of several predicates. -/
def atomsAll : List Predicate → List Predicate
  | [] => []
  | p :: rest => atoms p ++ atomsAll rest

end

@[simp] theorem atomsAll_append (ps qs : List Predicate) :
    atomsAll (ps ++ qs) = atomsAll ps ++ atomsAll qs := by
  induction ps with
  | nil => rfl
  | cons p rest ih => simp [atomsAll, ih]

@[simp] theorem atoms_group (op : Connective) (items : List Predicate) :
    (group op items).atoms = atomsAll items := by
  cases op <;> rcases items with _ | ⟨p, _ | ⟨q, rest⟩⟩ <;> simp [group, atoms, atomsAll]

theorem mem_atomsAll {a : Predicate} {ps : List Predicate} :
    a ∈ atomsAll ps ↔ ∃ p ∈ ps, a ∈ atoms p := by
  induction ps with
  | nil => simp [atomsAll]
  | cons p rest ih => simp [atomsAll, ih]

theorem interprets_value (v : Predicate → Prop) : Interprets (value v) where
  and items := by
    rw [value]
    induction items with
    | nil => simp [allValues]
    | cons p rest ih => simp [allValues, ih]
  or items := by
    rw [value]
    induction items with
    | nil => simp [someValue]
    | cons p rest ih => simp [someValue, ih]

mutual

/-- The value of a predicate depends on its atoms only. -/
theorem value_congr {v v' : Predicate → Prop} : ∀ (p : Predicate),
    (∀ a ∈ atoms p, v a ↔ v' a) → (value v p ↔ value v' p)
  | .and items, same => by
      simpa only [value] using allValues_congr items same
  | .or items, same => by
      simpa only [value] using someValue_congr items same
  | .compare _ _ _, same | .like _ _ _ _, same | .inList _ _ _, same | .between _ _ _ _, same
  | .isNull _ _, same | .inSelect _ _, same => same _ (by simp [atoms])

theorem allValues_congr {v v' : Predicate → Prop} : ∀ (ps : List Predicate),
    (∀ a ∈ atomsAll ps, v a ↔ v' a) → (allValues v ps ↔ allValues v' ps)
  | [], _ => Iff.rfl
  | p :: rest, same => by
      have first := value_congr p fun a mem => same a (List.mem_append_left _ mem)
      have later := allValues_congr rest fun a mem => same a (List.mem_append_right _ mem)
      exact and_congr first later

theorem someValue_congr {v v' : Predicate → Prop} : ∀ (ps : List Predicate),
    (∀ a ∈ atomsAll ps, v a ↔ v' a) → (someValue v ps ↔ someValue v' ps)
  | [], _ => Iff.rfl
  | p :: rest, same => by
      have first := value_congr p fun a mem => same a (List.mem_append_left _ mem)
      have later := someValue_congr rest fun a mem => same a (List.mem_append_right _ mem)
      exact or_congr first later

end

/-- A predicate has the value that all of its atoms have. -/
def Solid (p : Predicate) : Prop :=
  ∀ (v : Predicate → Prop) (b : Prop), (∀ a ∈ atoms p, v a ↔ b) → (value v p ↔ b)

theorem solid_test {test : ColumnRef → Predicate} (isTest : Leaf.IsTest test) (c : ColumnRef) :
    (test c).Solid := by
  intro v b same
  cases isTest <;>
    simp_all [atoms, atomsAll, value, allValues, someValue, isEmpty, isNotEmpty]

/-- Predicates under a connective have the value that all of their atoms have, unless there are
none of them. -/
theorem solid_group (op : Connective) {items : List Predicate} (some : items ≠ [])
    (solid : ∀ p ∈ items, p.Solid) : (group op items).Solid := by
  intro v b same
  rw [atoms_group] at same
  have each : ∀ p ∈ items, (value v p ↔ b) := by
    intro p mem
    exact solid p mem v b fun a inside => same a (mem_atomsAll.mpr ⟨p, mem, inside⟩)
  obtain ⟨p, rest, rfl⟩ := List.exists_cons_of_ne_nil some
  cases op with
  | and =>
      rw [(interprets_value v).group_and]
      constructor
      · intro all
        exact (each p (by simp)).mp (all p (by simp))
      · intro holds q mem
        exact (each q mem).mpr holds
  | or =>
      rw [(interprets_value v).group_or]
      constructor
      · rintro ⟨q, mem, holds⟩
        exact (each q mem).mp holds
      · intro holds
        exact ⟨p, by simp, (each p (by simp)).mpr holds⟩

end Predicate

/-- The value of a compiled filter as a formula. -/
def CompiledFilter.value (c : CompiledFilter) (v : Predicate → Prop) : Prop :=
  ∀ p ∈ c.predicate, p.value v

/-! ### Filters without paths -/

namespace Filter

mutual

/-- Whether a filter compares columns of its own collection only. -/
def isFlat : List Entry → Bool
  | [] => true
  | e :: rest => isFlatEntry e && isFlat rest

def isFlatEntry : Entry → Bool
  | .group _ children => isFlatAll children
  | .leaf [_] _ _ => true
  | .leaf _ _ _ => false
  | .nested _ _ => false

def isFlatAll : List (List Entry) → Bool
  | [] => true
  | child :: rest => isFlat child && isFlatAll rest

end

/-- How a filter on a collection reads as a formula over the predicates of its comparisons. -/
def formula (cat : Catalog) (root : String) (v : Predicate → Prop) : Reading Unit where
  test _ there column operator operand :=
    ∃ p, Leaf.predicate ⟨root, column⟩ (cat.localType there.collection column) operator operand =
      .ok p ∧ p.value v
  far _ _ _ _ := True
  far_mono _ _ := trivial

/-- The Boolean reading of a filter on a collection, where the given alternatives count. -/
def Means (cat : Catalog) (counts : Bool → Place → List Entry → Bool) (subQuery : Bool)
    (collection : String) (v : Predicate → Prop) (filter : Filter) : Prop :=
  (formula cat collection v).holds cat counts subQuery (.root collection) () filter

end Filter

namespace Compile

variable {f : Frame} {delegate : Option Delegate} {root : String}

mutual

/-- A flat filter makes its predicates without looking at the aliases. -/
theorem emit_flat : ∀ (entries : List Entry) {w w' : Walk} {ps : List Predicate},
    Filter.isFlat entries = true → emit f delegate (.root root) entries w = (.ok ps, w') →
    Emits f (fun _ => root) [] (fun _ _ _ => False) (.root root) (.entries entries) ps
  | [], w, w', ps, _, ran => by
      cases ran
      exact .nil
  | e :: rest, w, w', ps, flat, ran => by
      rw [Filter.isFlat, Bool.and_eq_true] at flat
      obtain ⟨qs, w₁, first, more⟩ := Step.bind_eq_ok ran
      obtain ⟨rs, w₂, second, gave⟩ := Step.bind_eq_ok more
      cases gave
      exact .cons (emitEntry_flat e flat.1 first) (emit_flat rest flat.2 second)

theorem emitEntry_flat : ∀ (e : Entry) {w w' : Walk} {ps : List Predicate},
    Filter.isFlatEntry e = true → emitEntry f delegate (.root root) e w = (.ok ps, w') →
    Emits f (fun _ => root) [] (fun _ _ _ => False) (.root root) (.entry e) ps
  | .group op children, w, w', ps, flat, ran => by
      simp only [emitEntry] at ran
      split at ran
      · next short =>
          cases ran
          exact .skipped short
      · next long =>
          obtain ⟨items, w₁, inside, gave⟩ := Step.bind_eq_ok ran
          cases gave
          exact .group (by simpa using long) (emitAll_flat children flat inside)
  | .leaf [column] operator operand, w, w', ps, _, ran => by
      simp only [emitEntry, List.dropLast_singleton, Step.bind_apply, Step.ofTotal,
        Frame.follow, Walk.follow_nil] at ran
      exact .leaf rfl (.inl rfl) (Step.ofExcept_eq_ok ran).1
  | .leaf [] _ _, _, _, _, flat, _ => by cases flat
  | .leaf (_ :: _ :: _) _ _, _, _, _, flat, _ => by cases flat
  | .nested _ _, _, _, _, flat, _ => by cases flat

theorem emitAll_flat : ∀ (children : List (List Entry)) {w w' : Walk} {items : List Predicate},
    Filter.isFlatAll children = true →
    emitAll f delegate (.root root) children w = (.ok items, w') →
    Emits f (fun _ => root) [] (fun _ _ _ => False) (.root root) (.children children) items
  | [], w, w', items, _, ran => by
      cases ran
      exact .done
  | child :: rest, w, w', items, flat, ran => by
      rw [Filter.isFlatAll, Bool.and_eq_true] at flat
      obtain ⟨ps, w₁, first, more⟩ := Step.bind_eq_ok ran
      obtain ⟨later, w₂, second, gave⟩ := Step.bind_eq_ok more
      cases gave
      exact .child (emit_flat child flat.1 first) (emitAll_flat rest flat.2 second)

end

/-- The predicate of a filter is made by its second walk. -/
theorem inScope_predicate {filter : Filter} {t t' : AliasTable} {c : CompiledFilter}
    (ran : inScope f delegate root filter t = (.ok c, t')) :
    ∃ w w' ps, emit f delegate (.root root) filter w = (.ok ps, w') ∧
      c.predicate = conjunction ps := by
  simp only [inScope] at ran
  split at ran
  · next ps w' made =>
      cases ran
      exact ⟨_, w', ps, made, rfl⟩
  · cases ran

end Compile

namespace Filter

/-- In either scope a flat filter compiles to the conjunction of its predicates. -/
theorem compile_flat {cat : Catalog} {policy : PathPolicy} {subQuery : Bool} {collection : String}
    {filter : Filter} {t : AliasTable} {c : CompiledFilter} (flat : isFlat filter = true)
    (compiled : (filter.compile cat policy subQuery collection t).1 = .ok c) :
    ∃ (id : Nat) (ps : List Predicate), c.predicate = Compile.conjunction ps ∧
      Compile.Emits ⟨cat, policy, ⟨id, subQuery⟩⟩ (fun _ => collection) [] (fun _ _ _ => False)
        (.root collection) (.entries filter) ps := by
  cases subQuery with
  | false =>
      obtain ⟨_, t₁, -, ran⟩ := Step.bind_eq_ok (Prod.ext compiled rfl)
      obtain ⟨w, w', ps, made, predicate⟩ := Compile.inScope_predicate ran
      exact ⟨0, ps, predicate, Compile.emit_flat filter flat made⟩
  | true =>
      obtain ⟨_, t₁, -, more⟩ := Step.bind_eq_ok (Prod.ext compiled rfl)
      obtain ⟨id, t₂, -, ran⟩ := Step.bind_eq_ok more
      obtain ⟨w, w', ps, made, predicate⟩ := Compile.inScope_predicate ran
      exact ⟨id, ps, predicate, Compile.emit_flat filter flat made⟩

/-- The values of atoms fit the Boolean reading of a flat filter. -/
theorem fits_formula (f : Compile.Frame) (root : String) (v : Predicate → Prop) :
    (formula f.catalog root v).Fits f (fun _ => root) [] (fun _ _ _ => False) () (·.value v) where
  interprets := Predicate.interprets_value v
  test _ made := by
    constructor
    · rintro ⟨p, made', holds⟩
      obtain rfl : p = _ := Except.ok.inj (made'.symm.trans made)
      exact holds
    · intro holds
      exact ⟨_, made, holds⟩
  far _ impossible := impossible.elim

end Filter

end FilterSql
