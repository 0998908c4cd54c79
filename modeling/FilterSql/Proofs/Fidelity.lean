import FilterSql.Proofs.Emission
import FilterSql.Proofs.Reading
import Mathlib.Data.List.TakeDrop

/-!
The predicates of a filter say what the filter says.

If predicates are given a meaning under which comparisons and tests against sub-selects mean what a
reading of filters takes them to mean (`Reading.Fits`), the predicates of a filter hold if and only
if the filter does (`Emits.conveys`). Alternatives that constrain nothing do not count in that
reading, since they make no predicate (`Emits.constrains_iff`).
-/

namespace FilterSql

/-- Conjunctions and disjunctions of predicates mean what they say. -/
structure Interprets (M : Predicate → Prop) : Prop where
  and : ∀ items, M (.and items) ↔ ∀ p ∈ items, M p
  or : ∀ items, M (.or items) ↔ ∃ p ∈ items, M p

namespace Interprets

variable {M : Predicate → Prop}

theorem group_and (interprets : Interprets M) (items : List Predicate) :
    M (.group .and items) ↔ ∀ p ∈ items, M p := by
  rcases items with _ | ⟨p, _ | ⟨q, rest⟩⟩
  · exact interprets.and []
  · simp
  · exact interprets.and _

theorem group_or (interprets : Interprets M) (items : List Predicate) :
    M (.group .or items) ↔ ∃ p ∈ items, M p := by
  rcases items with _ | ⟨p, _ | ⟨q, rest⟩⟩
  · exact interprets.or []
  · simp
  · exact interprets.or _

theorem conjunction (interprets : Interprets M) (ps : List Predicate) :
    (∀ p ∈ Compile.conjunction ps, M p) ↔ ∀ p ∈ ps, M p := by
  cases ps with
  | nil => simp [Compile.conjunction]
  | cons p rest => simp [Compile.conjunction, interprets.group_and]

end Interprets

namespace Catalog

/-- Whether a part of a filter constrains anything. -/
def constrainsPart (cat : Catalog) (joinsReverse : Bool) (here : Place) : Part → Bool
  | .entries entries => cat.constrains joinsReverse here entries
  | .entry e => cat.constrainsEntry joinsReverse here e
  | .children children => cat.constrainsAny joinsReverse here children

end Catalog

namespace Compile

variable {f : Frame} {names : List String → String} {seen : List (List String)}
  {sub : Relation → Filter → Select → Prop} {here : Place} {part : Part} {ps : List Predicate}

/-- A part of a filter makes a predicate if and only if it constrains anything. -/
theorem Emits.constrains_iff (emits : Emits f names seen sub here part ps) :
    f.catalog.constrainsPart f.scope.joinsReverse here part = !ps.isEmpty := by
  induction emits with
  | nil | done => rfl
  | @cons _ _ _ ps qs _ _ ih₁ ih₂ =>
      simp only [Catalog.constrainsPart] at ih₁ ih₂
      cases ps <;> simp [Catalog.constrainsPart, Catalog.constrains, ih₁, ih₂]
  | skipped short => simp [Catalog.constrainsPart, Catalog.constrainsEntry, short]
  | @group _ _ _ items long _ ih =>
      simp only [Catalog.constrainsPart] at ih
      cases items <;> simp [Catalog.constrainsPart, Catalog.constrainsEntry, long, ih]
  | @leaf _ _ path _ _ _ led _ made =>
      rcases emitLeaf_eq_ok made with ⟨rfl, rfl⟩ | ⟨column, p, ended, -, rfl⟩
      · simp [Catalog.constrainsPart, Catalog.constrainsEntry, Catalog.course]
      · have proper : path ≠ [] := by
          rintro rfl
          cases ended
        simp [Catalog.constrainsPart, Catalog.constrainsEntry, led, proper]
  | @leafDeferred _ _ path _ _ _ _ _ led _ _ =>
      have proper : path ≠ [] := by
        rintro rfl
        cases led
      simp [Catalog.constrainsPart, Catalog.constrainsEntry, led, proper]
  | leafUnresolved led _ | nestedUnresolved led _ | nestedDeferred led _ _ =>
      simp [Catalog.constrainsPart, Catalog.constrainsEntry, led]
  | nested led _ ih =>
      simpa [Catalog.constrainsPart, Catalog.constrainsEntry, led] using ih
  | @child _ _ _ ps _ _ _ ih₁ ih₂ =>
      simp only [Catalog.constrainsPart] at ih₁ ih₂
      cases ps <;> simp [Catalog.constrainsPart, Catalog.constrainsAny, ih₁, ih₂]

end Compile

namespace Reading

variable {View : Type} {R : Reading View} {cat : Catalog}

/-- Inside a sub-select no hop is left to another one. -/
theorem along_inner {here : Place} {view : View} {path : List String}
    {K : Bool → Place → View → Prop} :
    R.along cat true here view path K ↔
      match cat.course true 0 here path with
      | .reached there => K true there view
      | _ => True := by
  unfold along
  cases led : cat.course true 0 here path with
  | reached there => exact Iff.rfl
  | deferred there r consumed =>
      exact absurd (Catalog.relationFor_of_course_deferred led).1 (by simp)
  | unresolved there segment => exact Iff.rfl

/-- The condition on the rows of the many side may be written in another way. -/
theorem far_congr {view : View} {there : Place} {r : Relation} {K K' : View → Prop}
    (same : ∀ v, K v ↔ K' v) : R.far view there r K ↔ R.far view there r K' :=
  ⟨R.far_mono fun v => (same v).mp, R.far_mono fun v => (same v).mpr⟩

/-- A meaning of predicates fits a reading of filters in a scope. -/
structure Fits (R : Reading View) (f : Compile.Frame) (names : List String → String)
    (seen : List (List String)) (sub : Relation → Filter → Select → Prop) (view : View)
    (M : Predicate → Prop) : Prop where
  interprets : Interprets M
  test : ∀ {there : Place} {column : String} {operator : Operator} {operand : Json} {p : Predicate},
    (there.hops = [] ∨ there.hops ∈ seen) →
    Leaf.predicate ((there.anchor names).column column)
      (f.catalog.localType there.collection column) operator operand = .ok p →
    (R.test view there column operator operand ↔ M p)
  far : ∀ {there : Place} {r : Relation} {child : Filter} {s : Select},
    (there.hops = [] ∨ there.hops ∈ seen) → sub r child s →
    (R.far view there r (fun v =>
        R.holds f.catalog f.catalog.alternatives true (.root r.manyCollection) v child) ↔
      M (.inSelect ((there.anchor names).column r.onePrimary) s))

end Reading

namespace Compile

variable {View : Type} {R : Reading View} {view : View} {M : Predicate → Prop} {f : Frame}
  {names : List String → String} {seen : List (List String)}
  {sub : Relation → Filter → Select → Prop}

/-- What it means that predicates say what a part of a filter says. Of filters that are combined,
one constrains anything and holds if and only if one of the predicates holds. -/
def Conveys (R : Reading View) (f : Frame) (view : View) (M : Predicate → Prop) (here : Place)
    (ps : List Predicate) : Part → Prop
  | .entries entries =>
    R.holds f.catalog f.catalog.alternatives f.scope.joinsReverse here view entries ↔ ∀ p ∈ ps, M p
  | .entry e =>
    R.holdsEntry f.catalog f.catalog.alternatives f.scope.joinsReverse here view e ↔ ∀ p ∈ ps, M p
  | .children children =>
    (R.holdsAll f.catalog f.catalog.alternatives f.scope.joinsReverse here view children ↔
      ∀ p ∈ ps, M p) ∧
    ((∃ child ∈ children, f.catalog.constrains f.scope.joinsReverse here child = true ∧
        R.holds f.catalog f.catalog.alternatives f.scope.joinsReverse here view child) ↔
      ∃ p ∈ ps, M p)

/-- A disjunction says what its predicate says. -/
theorem conveys_or (interprets : Interprets M) {here : Place} {children : List (List Entry)}
    {items : List Predicate} (long : Entry.shortCircuits .or children = false)
    (parts : Emits f names seen sub here (.children children) items)
    (conveys : Conveys R f view M here items (.children children)) :
    Conveys R f view M here (if items.isEmpty then [] else [.group .or items])
      (.entry (.group .or children)) := by
  have counted :=
    Reading.alternatives_eq_constrains f.catalog f.scope.joinsReverse here long
  have some : (∃ child ∈ children, f.catalog.alternatives f.scope.joinsReverse here child = true ∧
      R.holds f.catalog f.catalog.alternatives f.scope.joinsReverse here view child) ↔
      ∃ p ∈ items, M p := by
    rw [← conveys.2]
    refine exists_congr fun child => and_congr_right fun mem => ?_
    rw [counted child mem]
  have idle : (∀ child ∈ children,
      f.catalog.alternatives f.scope.joinsReverse here child = false) ↔ items = [] := by
    have constrains := parts.constrains_iff
    simp only [Catalog.constrainsPart] at constrains
    rw [← List.isEmpty_iff, ← Bool.not_eq_false', ← constrains, Reading.constrainsAny_eq_false]
    refine forall₂_congr fun child mem => ?_
    rw [counted child mem]
  simp only [Conveys, Reading.holdsEntry]
  rw [Reading.holdsSome_iff, some, idle]
  cases items <;> simp [interprets.group_or]

/-- A filter behind a reverse hop, seen from the many side. -/
theorem holds_behind_leaf {here there : Place} {path : List String} {operator : Operator}
    {operand : Json} {r : Relation} {consumed : Nat}
    (led : f.catalog.course f.scope.joinsReverse 0 here path.dropLast =
      .deferred there r consumed) (v : View) :
    (match f.catalog.course true 0 (.root r.manyCollection) (path.dropLast.drop consumed) with
      | .reached there => ∀ column ∈ path.getLast?, R.test v there column operator operand
      | _ => True) ↔
      R.holds f.catalog f.catalog.alternatives true (.root r.manyCollection) v
        [.leaf (path.drop consumed) operator operand] := by
  have before : consumed < path.length := by
    have := (Catalog.consumed_of_course_deferred led).2
    have := (Catalog.consumed_of_course_deferred led).1
    rw [List.length_dropLast] at *
    omega
  have last : (path.drop consumed).getLast? = path.getLast? := by
    rw [List.getLast?_drop, if_neg (by omega)]
  simp only [Reading.holds, Reading.holdsEntry, Reading.along_inner, last, and_true,
    List.dropLast_drop_eq_drop_dropLast]

theorem holds_behind_nested {path : List String} {body : List Entry} {r : Relation}
    {consumed : Nat} (v : View) :
    (match f.catalog.course true 0 (.root r.manyCollection) (path.drop consumed) with
      | .reached there => R.holds f.catalog f.catalog.alternatives true there v body
      | _ => True) ↔
      R.holds f.catalog f.catalog.alternatives true (.root r.manyCollection) v
        (if (path.drop consumed).isEmpty then body else [.nested (path.drop consumed) body]) := by
  cases path.drop consumed with
  | nil => exact Iff.rfl
  | cons field rest =>
      simp [Reading.holds, Reading.holdsEntry, Reading.along_inner]

/-- The predicates of a part of a filter say what it says. -/
theorem Emits.conveys (fits : R.Fits f names seen sub view M) {here : Place} {part : Part}
    {ps : List Predicate} (emits : Emits f names seen sub here part ps) :
    Conveys R f view M here ps part := by
  induction emits with
  | nil => simp [Conveys, Reading.holds]
  | cons _ _ ih₁ ih₂ =>
      simp only [Conveys] at ih₁ ih₂ ⊢
      simp [Reading.holds, ih₁, ih₂, or_imp, forall_and]
  | @skipped here op children short =>
      have idle : f.catalog.constrainsEntry f.scope.joinsReverse here (.group op children) =
          false := by
        simp [Catalog.constrainsEntry, short]
      simpa [Conveys] using Reading.holdsEntry_of_idle Reading.alternatives_nil _ idle
  | @group here op children items long parts ih =>
      cases op with
      | and =>
          simp only [Conveys] at ih ⊢
          rw [Reading.holdsEntry, ih.1]
          cases items <;> simp [fits.interprets.group_and]
      | or => exact conveys_or fits.interprets long parts ih
  | leaf led stood made =>
      simp only [Conveys, Reading.holdsEntry, Reading.along, led]
      rcases emitLeaf_eq_ok made with ⟨rfl, rfl⟩ | ⟨column, p, ended, compared, rfl⟩
      · simp
      · simp [ended, fits.test stood compared]
  | leafDeferred led stood selected =>
      simp only [Conveys, Reading.holdsEntry, Reading.along, led]
      refine (Reading.far_congr (holds_behind_leaf led)).trans ?_
      rw [fits.far stood selected, List.forall_mem_singleton]
  | leafUnresolved led _ | nestedUnresolved led _ =>
      simp [Conveys, Reading.holdsEntry, Reading.along, led]
  | nested led _ ih => simpa [Conveys, Reading.holdsEntry, Reading.along, led] using ih
  | nestedDeferred led stood selected =>
      simp only [Conveys, Reading.holdsEntry, Reading.along, led]
      refine (Reading.far_congr holds_behind_nested).trans ?_
      rw [fits.far stood selected, List.forall_mem_singleton]
  | done => simp [Conveys, Reading.holdsAll]
  | @child here first rest ps items inside _ ih₁ ih₂ =>
      have constrains := inside.constrains_iff
      simp only [Catalog.constrainsPart] at constrains
      simp only [Conveys] at ih₁ ih₂ ⊢
      cases ps with
      | nil => simp_all [Reading.holdsAll]
      | cons p more =>
          simp_all [Reading.holdsAll, fits.interprets.group_and]

end Compile

end FilterSql
