import FilterSql.Proofs.Formula

/-!
The logical structure of compiled filters.

A flat filter compiles to a formula that says what the filter says, where alternatives that
constrain nothing do not count unless they are empty filters. The plain Boolean reading counts all
of them. If a disjunction is not balanced, and the atoms of the formula are different, some values
of the atoms make the plain reading true and the formula false (`Compile.Emits.gap`): those that
make the other atoms true beside a conjunction and false beside a disjunction. So the two agree for
all values of the atoms if and only if the disjunctions are balanced (`Filter.compile_structure`).
-/

namespace FilterSql

open Predicate (atomsAll atomsAll_append atoms_group value value_congr Solid)

/-- Whether a condition on the values of atoms depends on the atoms of the given predicates only. -/
def DependsOn (ps : List Predicate) (X : (Predicate → Prop) → Prop) : Prop :=
  ∀ v v' : Predicate → Prop, (∀ a ∈ atomsAll ps, v a ↔ v' a) → (X v ↔ X v')

namespace Compile

variable {f : Frame} {root : String} {here : Place} {part : Part} {ps : List Predicate}
  {counts : Bool → Place → List Entry → Bool}

/-- The predicates of a part of a filter that makes no sub-select, all of them about one table. -/
abbrev Forms (f : Frame) (root : String) : Place → Part → List Predicate → Prop :=
  Emits f (fun _ => root) [] fun _ _ _ => False

/-- The Boolean reading of a filter at a place. -/
abbrev Means (f : Frame) (root : String) (counts : Bool → Place → List Entry → Bool) (here : Place)
    (v : Predicate → Prop) (filter : List Entry) : Prop :=
  (Filter.formula f.catalog root v).holds f.catalog counts f.scope.joinsReverse here () filter

/-- The Boolean reading of an entry. -/
abbrev MeansEntry (f : Frame) (root : String) (counts : Bool → Place → List Entry → Bool)
    (here : Place) (v : Predicate → Prop) (e : Entry) : Prop :=
  (Filter.formula f.catalog root v).holdsEntry f.catalog counts f.scope.joinsReverse here () e

theorem atomsAll_if_group (op : Connective) (items : List Predicate) :
    atomsAll (if items.isEmpty then [] else [.group op items]) = atomsAll items := by
  cases items <;> simp [atomsAll]

theorem atomsAll_if_child (ps items : List Predicate) :
    atomsAll (if ps.isEmpty then items else .group .and ps :: items) =
      atomsAll ps ++ atomsAll items := by
  cases ps <;> simp [atomsAll]

/-- Predicates that a filter makes are true if all their atoms are, and false if all of those are.
-/
theorem Emits.solid (emits : Forms f root here part ps) : ∀ p ∈ ps, p.Solid := by
  induction emits with
  | nil | skipped _ | leafUnresolved _ _ | nestedUnresolved _ _ | done => simp
  | cons _ _ ih₁ ih₂ =>
      intro p mem
      rcases List.mem_append.mp mem with early | late
      · exact ih₁ p early
      · exact ih₂ p late
  | @group _ op _ items _ _ ih =>
      cases items with
      | nil => simp
      | cons q rest => simpa using Predicate.solid_group op (by simp) ih
  | leaf _ _ made =>
      rcases emitLeaf_eq_ok made with ⟨-, rfl⟩ | ⟨column, p, -, compared, rfl⟩
      · simp
      · obtain ⟨test, isTest, rfl, -⟩ := Leaf.predicate_isTest compared
        simpa using Predicate.solid_test isTest _
  | leafDeferred _ _ impossible | nestedDeferred _ _ impossible => exact impossible.elim
  | nested _ _ ih => exact ih
  | @child _ _ _ ps items _ _ ih₁ ih₂ =>
      cases ps with
      | nil => simpa using ih₂
      | cons q rest =>
          exact List.forall_mem_cons.mpr ⟨Predicate.solid_group .and (by simp) ih₁, ih₂⟩

/-- What it means that a reading depends on the atoms of the predicates made, and on no comparison
that was passed over. -/
def Steady (f : Frame) (root : String) (counts : Bool → Place → List Entry → Bool) (here : Place)
    (ps : List Predicate) : Part → Prop
  | .entries entries => DependsOn ps fun v => Means f root counts here v entries
  | .entry e => DependsOn ps fun v => MeansEntry f root counts here v e
  | .children children => ∀ child ∈ children, DependsOn ps fun v => Means f root counts here v child

theorem Emits.steady (emits : Forms f root here part ps) (empty : ∀ i p, counts i p [] = true) :
    Steady f root counts here ps part := by
  induction emits with
  | nil =>
      intro v v' _
      exact Iff.rfl
  | cons _ _ ih₁ ih₂ =>
      intro v v' same
      rw [atomsAll_append] at same
      have first := ih₁ v v' fun a mem => same a (List.mem_append_left _ mem)
      have later := ih₂ v v' fun a mem => same a (List.mem_append_right _ mem)
      exact and_congr first later
  | @skipped here op children short =>
      have idle : f.catalog.constrainsEntry f.scope.joinsReverse here (.group op children) =
          false := by
        simp [Catalog.constrainsEntry, short]
      intro v v' _
      exact iff_of_true (Reading.holdsEntry_of_idle empty _ idle)
        (Reading.holdsEntry_of_idle empty _ idle)
  | @group here op children items _ _ ih =>
      intro v v' same
      rw [atomsAll_if_group] at same
      have each := fun child mem => ih child mem v v' same
      cases op with
      | and =>
          simp only [MeansEntry, Reading.holdsEntry, Reading.holdsAll_iff]
          exact forall₂_congr each
      | or =>
          simp only [MeansEntry, Reading.holdsEntry, Reading.holdsSome_iff]
          refine or_congr_left (exists_congr fun child => and_congr_right fun mem => ?_)
          exact and_congr_right fun _ => each child mem
  | leaf led stood made =>
      intro v v' same
      simp only [MeansEntry, Reading.holdsEntry, Reading.along, led]
      rcases emitLeaf_eq_ok made with ⟨rfl, rfl⟩ | ⟨column, p, ended, compared, rfl⟩
      · simp
      · simp only [ended, Option.mem_def, Option.some.injEq, forall_eq',
          (Filter.fits_formula f root v).test stood compared,
          (Filter.fits_formula f root v').test stood compared]
        exact value_congr p (by simpa [atomsAll] using same)
  | leafDeferred _ _ impossible | nestedDeferred _ _ impossible => exact impossible.elim
  | leafUnresolved led _ | nestedUnresolved led _ =>
      intro v v' _
      simp [MeansEntry, Reading.holdsEntry, Reading.along, led]
  | nested led _ ih =>
      intro v v' same
      simpa only [MeansEntry, Reading.holdsEntry, Reading.along, led] using ih v v' same
  | done =>
      intro child mem
      cases mem
  | child _ _ ih₁ ih₂ =>
      refine List.forall_mem_cons.mpr ⟨?_, ?_⟩
      · intro v v' same
        rw [atomsAll_if_child] at same
        exact ih₁ v v' fun a inside => same a (List.mem_append_left _ inside)
      · intro child mem v v' same
        rw [atomsAll_if_child] at same
        exact ih₂ child mem v v' fun a inside => same a (List.mem_append_right _ inside)

/-- Two conditions that differ do so still when all predicates beside them get one value. -/
theorem gap_beside {ps qs : List Predicate} {X Y : (Predicate → Prop) → Prop}
    (dependsX : DependsOn ps X) (dependsY : DependsOn ps Y)
    (apart : (atomsAll ps).Disjoint (atomsAll qs)) (solid : ∀ q ∈ qs, q.Solid) (b : Prop)
    (gap : ∃ v, X v ∧ ¬ Y v) : ∃ v, X v ∧ ¬ Y v ∧ ∀ q ∈ qs, (q.value v ↔ b) := by
  obtain ⟨v, holds, fails⟩ := gap
  let v' : Predicate → Prop := fun a => (a ∈ atomsAll ps ∧ v a) ∨ (a ∉ atomsAll ps ∧ b)
  have inside : ∀ a ∈ atomsAll ps, v a ↔ v' a := by
    intro a mem
    simp [v', mem]
  refine ⟨v', (dependsX v v' inside).mp holds, ?_, ?_⟩
  · intro other
    exact fails ((dependsY v v' inside).mpr other)
  · intro q mem
    refine solid q mem v' b fun a atom => ?_
    have outside : a ∉ atomsAll ps := by
      intro both
      exact apart both (Predicate.mem_atomsAll.mpr ⟨q, mem, atom⟩)
    simp [v', outside]

/-- What the predicates of a part say is its reading where only some alternatives count. -/
theorem Emits.conveys_formula (emits : Forms f root here part ps) (v : Predicate → Prop) :
    Conveys (Filter.formula f.catalog root v) f () (value v) here ps part :=
  emits.conveys (Filter.fits_formula f root v)

/-- The plain reading of a part of a filter that is not balanced differs from what its predicates
say for some values of the atoms. Of filters that are combined, this is said both of their
conjunction and of the disjunction of those that constrain anything. -/
def Gap (f : Frame) (root : String) (here : Place) : Part → Prop
  | .entries entries =>
    f.catalog.balanced f.scope.joinsReverse here entries = false →
      ∃ v, Means f root everyAlternative here v entries ∧
        ¬ Means f root f.catalog.alternatives here v entries
  | .entry e =>
    f.catalog.balancedEntry f.scope.joinsReverse here e = false →
      ∃ v, MeansEntry f root everyAlternative here v e ∧
        ¬ MeansEntry f root f.catalog.alternatives here v e
  | .children children =>
    f.catalog.balancedAll f.scope.joinsReverse here children = false →
      (∃ v, (∀ child ∈ children, Means f root everyAlternative here v child) ∧
        ¬ ∀ child ∈ children, Means f root f.catalog.alternatives here v child) ∧
      ∃ v, (∃ child ∈ children, Means f root everyAlternative here v child) ∧
        ¬ ∃ child ∈ children, f.catalog.constrains f.scope.joinsReverse here child = true ∧
          Means f root f.catalog.alternatives here v child

/-- A disjunction that is not balanced leaves a gap, if its alternatives do. -/
theorem gap_or {children : List (List Entry)} {items : List Predicate}
    (long : Entry.shortCircuits .or children = false)
    (parts : Forms f root here (.children children) items)
    (gap : Gap f root here (.children children)) :
    Gap f root here (.entry (.group .or children)) := by
  intro unbalanced
  have counted :=
    Reading.alternatives_eq_constrains f.catalog f.scope.joinsReverse here long
  have proper : children.any Filter.isEmpty = false := by
    simpa [Entry.shortCircuits] using long
  simp only [Catalog.balancedEntry, proper, Bool.false_or, Bool.and_eq_false_iff,
    Bool.or_eq_false_iff, Bool.not_eq_false'] at unbalanced
  cases constrained : f.catalog.constrainsAny f.scope.joinsReverse here children with
  | false =>
      -- All alternatives hold, so none of them leaves a gap.
      obtain ⟨⟨v, -, fails⟩, -⟩ := gap (unbalanced.resolve_left (by simp [constrained]))
      exact absurd (Reading.holdsAll_of_idle Reading.alternatives_nil children constrained) fails
  | true =>
      have someCounts : ¬ ∀ child ∈ children,
          f.catalog.alternatives f.scope.joinsReverse here child = false := by
        intro none
        have idle : ∀ child ∈ children,
            f.catalog.constrains f.scope.joinsReverse here child = false := by
          intro child mem
          rw [← counted child mem]
          exact none child mem
        rw [Reading.constrainsAny_eq_false.mpr idle] at constrained
        cases constrained
      simp only [MeansEntry, Reading.holdsEntry, Reading.holdsSome_iff, or_iff_left someCounts]
      rcases unbalanced with ⟨mixed, -⟩ | deeper
      · -- An alternative that constrains nothing holds, and the others may fail together.
        obtain ⟨child, mem, idle⟩ : ∃ child ∈ children,
            f.catalog.constrains f.scope.joinsReverse here child = false := by
          simpa using mixed
        refine ⟨fun _ => False,
          .inl ⟨child, mem, rfl, Reading.holds_of_idle (fun _ _ => rfl) child idle⟩, ?_⟩
        rintro ⟨child, mem, counts, holds⟩
        obtain ⟨p, mem, holds⟩ := (parts.conveys_formula fun _ => False).2.mp
          ⟨child, mem, counted child mem ▸ counts, holds⟩
        exact (parts.solid p mem _ False (by simp)).mp holds
      · obtain ⟨-, v, ⟨child, mem, plain⟩, fails⟩ := gap deeper
        refine ⟨v, .inl ⟨child, mem, rfl, plain⟩, ?_⟩
        rintro ⟨child, mem, counts, holds⟩
        exact fails ⟨child, mem, counted child mem ▸ counts, holds⟩

/-- Filters that are combined leave a gap if one of them does. -/
theorem gap_child {first : List Entry} {rest : List (List Entry)} {ps items : List Predicate}
    (inside : Forms f root here (.entries first) ps)
    (later : Forms f root here (.children rest) items)
    (apart : (atomsAll ps).Disjoint (atomsAll items))
    (gap₁ : Gap f root here (.entries first)) (gap₂ : Gap f root here (.children rest)) :
    Gap f root here (.children (first :: rest)) := by
  intro unbalanced
  rw [Catalog.balancedAll, Bool.and_eq_false_iff] at unbalanced
  rcases unbalanced with unbalanced | unbalanced
  · have beside := gap_beside (X := fun v => Means f root everyAlternative here v first)
      (Y := fun v => Means f root f.catalog.alternatives here v first)
      (inside.steady fun _ _ => rfl) (inside.steady Reading.alternatives_nil) apart later.solid
    constructor
    · obtain ⟨v, plain, fails, rest⟩ := beside True (gap₁ unbalanced)
      have holds := Reading.holdsAll_iff.mp
        ((later.conveys_formula v).1.mpr fun q mem => (rest q mem).mpr trivial)
      refine ⟨v, List.forall_mem_cons.mpr ⟨plain, ?_⟩, ?_⟩
      · intro child mem
        exact Reading.holds_every child (holds child mem)
      · intro all
        exact fails (all first (by simp))
    · obtain ⟨v, plain, fails, rest⟩ := beside False (gap₁ unbalanced)
      refine ⟨v, ⟨first, by simp, plain⟩, ?_⟩
      rintro ⟨child, mem, constrains, holds⟩
      rcases List.mem_cons.mp mem with rfl | mem
      · exact fails holds
      · obtain ⟨q, among, holds⟩ := (later.conveys_formula v).2.mp ⟨child, mem, constrains, holds⟩
        exact (rest q among).mp holds
  · obtain ⟨gapAll, gapSome⟩ := gap₂ unbalanced
    have apart' : (atomsAll items).Disjoint (atomsAll ps) := by
      intro a mem mem'
      exact apart mem' mem
    have plainly : Steady f root everyAlternative here items (.children rest) :=
      later.steady fun _ _ => rfl
    have partly : Steady f root f.catalog.alternatives here items (.children rest) :=
      later.steady Reading.alternatives_nil
    constructor
    · obtain ⟨v, plain, fails, beside⟩ := gap_beside
        (X := fun v => ∀ child ∈ rest, Means f root everyAlternative here v child)
        (Y := fun v => ∀ child ∈ rest, Means f root f.catalog.alternatives here v child)
        (fun v v' same => forall₂_congr fun child mem => plainly child mem v v' same)
        (fun v v' same => forall₂_congr fun child mem => partly child mem v v' same)
        apart' inside.solid True gapAll
      have holds := (inside.conveys_formula v).mpr fun p mem => (beside p mem).mpr trivial
      refine ⟨v, List.forall_mem_cons.mpr ⟨Reading.holds_every first holds, plain⟩, ?_⟩
      intro all
      exact fails fun child mem => all child (by simp [mem])
    · obtain ⟨v, ⟨child, mem, plain⟩, fails, beside⟩ := gap_beside
        (X := fun v => ∃ child ∈ rest, Means f root everyAlternative here v child)
        (Y := fun v => ∃ child ∈ rest, f.catalog.constrains f.scope.joinsReverse here child = true ∧
          Means f root f.catalog.alternatives here v child)
        (fun v v' same => exists_congr fun child =>
          and_congr_right fun mem => plainly child mem v v' same)
        (fun v v' same => exists_congr fun child => and_congr_right fun mem =>
          and_congr_right fun _ => partly child mem v v' same)
        apart' inside.solid False gapSome
      refine ⟨v, ⟨child, by simp [mem], plain⟩, ?_⟩
      rintro ⟨child, mem, constrains, holds⟩
      rcases List.mem_cons.mp mem with rfl | mem
      · obtain ⟨p, among⟩ : ∃ p, p ∈ ps := by
          have made := inside.constrains_iff
          rw [Catalog.constrainsPart, constrains] at made
          exact List.exists_mem_of_ne_nil ps (by simpa using made)
        exact (beside p among).mp ((inside.conveys_formula v).mp holds p among)
      · exact fails ⟨child, mem, constrains, holds⟩

/-- A filter that is not balanced leaves a gap, if the atoms of its predicates are different. -/
theorem Emits.gap (emits : Forms f root here part ps) (nodup : (atomsAll ps).Nodup) :
    Gap f root here part := by
  induction emits with
  | nil =>
      intro unbalanced
      cases unbalanced
  | @cons here e rest ps qs first later ih₁ ih₂ =>
      rw [atomsAll_append, List.nodup_append'] at nodup
      obtain ⟨nodup₁, nodup₂, apart⟩ := nodup
      intro unbalanced
      rw [Catalog.balanced, Bool.and_eq_false_iff] at unbalanced
      rcases unbalanced with here | later'
      · obtain ⟨v, plain, fails, beside⟩ := gap_beside (first.steady fun _ _ => rfl)
          (first.steady Reading.alternatives_nil) apart later.solid True (ih₁ nodup₁ here)
        have holds := (later.conveys_formula v).mpr fun q mem => (beside q mem).mpr trivial
        refine ⟨v, ⟨plain, Reading.holds_every _ holds⟩, ?_⟩
        rintro ⟨first, -⟩
        exact fails first
      · obtain ⟨v, plain, fails, beside⟩ := gap_beside (later.steady fun _ _ => rfl)
          (later.steady Reading.alternatives_nil) (fun _ mem mem' => apart mem' mem) first.solid
          True (ih₂ nodup₂ later')
        have holds := (first.conveys_formula v).mpr fun q mem => (beside q mem).mpr trivial
        refine ⟨v, ⟨Reading.holdsEntry_every _ holds, plain⟩, ?_⟩
        rintro ⟨-, later⟩
        exact fails later
  | @skipped here op children short =>
      intro unbalanced
      cases op with
      | and => simp [Entry.shortCircuits] at short
      | or =>
          have empty : children.any Filter.isEmpty = true := by
            simpa [Entry.shortCircuits] using short
          simp [Catalog.balancedEntry, empty] at unbalanced
  | @group here op children items long parts ih =>
      rw [atomsAll_if_group] at nodup
      cases op with
      | and =>
          intro unbalanced
          obtain ⟨⟨v, plain, fails⟩, -⟩ := ih nodup unbalanced
          refine ⟨v, Reading.holdsAll_iff.mpr plain, ?_⟩
          intro all
          exact fails (Reading.holdsAll_iff.mp all)
      | or => exact gap_or long parts (ih nodup)
  | leaf _ _ _ | leafUnresolved _ _ =>
      intro unbalanced
      cases unbalanced
  | leafDeferred _ _ impossible | nestedDeferred _ _ impossible => exact impossible.elim
  | nestedUnresolved led _ =>
      intro unbalanced
      simp [Catalog.balancedEntry, Catalog.ends, led] at unbalanced
  | nested led _ ih =>
      intro unbalanced
      simp only [Catalog.balancedEntry, Catalog.ends, led] at unbalanced
      obtain ⟨v, plain, fails⟩ := ih nodup unbalanced
      refine ⟨v, ?_, ?_⟩
      · simpa only [MeansEntry, Reading.holdsEntry, Reading.along, led] using plain
      · simpa only [MeansEntry, Reading.holdsEntry, Reading.along, led] using fails
  | done =>
      intro unbalanced
      cases unbalanced
  | child inside later ih₁ ih₂ =>
      rw [atomsAll_if_child, List.nodup_append'] at nodup
      obtain ⟨nodup₁, nodup₂, apart⟩ := nodup
      exact gap_child inside later apart (ih₁ nodup₁) (ih₂ nodup₂)

end Compile

/-- The predicate of a flat filter says what the filter says, where alternatives that constrain
nothing do not count unless they are empty filters. If it holds so does the plain Boolean reading;
the two agree for all values of the atoms where the disjunctions are balanced, and, as far as the
atoms are different, only there. -/
theorem Filter.compile_structure {cat : Catalog} {policy : PathPolicy} {subQuery : Bool}
    {collection : String} {filter : Filter} {t : AliasTable} {c : CompiledFilter}
    (flat : isFlat filter = true)
    (compiled : (filter.compile cat policy subQuery collection t).1 = .ok c) :
    (∀ v, c.value v ↔ Means cat cat.alternatives subQuery collection v filter) ∧
    (∀ v, c.value v → Means cat everyAlternative subQuery collection v filter) ∧
    (cat.balanced subQuery (.root collection) filter = true →
      ∀ v, c.value v ↔ Means cat everyAlternative subQuery collection v filter) ∧
    ((atomsAll c.predicate.toList).Nodup →
      (∀ v, c.value v ↔ Means cat everyAlternative subQuery collection v filter) →
      cat.balanced subQuery (.root collection) filter = true) := by
  obtain ⟨id, ps, predicate, emits⟩ := compile_flat flat compiled
  have faithful : ∀ v, c.value v ↔ Means cat cat.alternatives subQuery collection v filter := by
    intro v
    rw [CompiledFilter.value, predicate, (Predicate.interprets_value v).conjunction]
    exact (emits.conveys_formula v).symm
  have stronger : ∀ v, c.value v → Means cat everyAlternative subQuery collection v filter := by
    intro v holds
    exact Reading.holds_every filter ((faithful v).mp holds)
  refine ⟨faithful, stronger, ?_, ?_⟩
  · intro balanced v
    constructor
    · exact stronger v
    · intro holds
      exact (faithful v).mpr (Reading.holds_of_balanced filter balanced holds)
  · intro different agree
    by_contra unbalanced
    have nodup : (atomsAll ps).Nodup := by
      rw [predicate] at different
      cases ps with
      | nil => simp [atomsAll]
      | cons p rest => simpa [Compile.conjunction, atomsAll] using different
    obtain ⟨v, plain, fails⟩ := emits.gap nodup (by simpa using unbalanced)
    exact fails ((faithful v).mp ((agree v).mpr plain))

namespace Filter

/-- A disjunction of comparisons is the disjunction of its alternatives. -/
theorem compile_structure_titles :
    ∃ c, (titles.compile .library .ignore false "books"
        (.fresh .sequential (fun _ => 0) Catalog.library.names)).1 = .ok c ∧
      ∀ v, c.value v ↔ Means .library everyAlternative false "books" v titles :=
  ⟨_, rfl, (compile_structure (by decide) rfl).2.2.1 (by decide)⟩

/-- An alternative that always holds, but is not written as the empty filter, is dropped, although
the disjunction holds because of it. -/
theorem compile_drops_alternative :
    Filter.ofJson {} eitherOrDocument = .ok eitherOr ∧
    ∃ c, (eitherOr.compile .library .ignore false "books"
        (.fresh .sequential (fun _ => 0) Catalog.library.names)).1 = .ok c ∧
      ∃ v, Means .library everyAlternative false "books" v eitherOr ∧ ¬ c.value v := by
  refine ⟨rfl, _, rfl, fun _ => False, ?_, ?_⟩
  · exact ⟨.inl (.inl ⟨rfl, trivial, trivial⟩), trivial⟩
  · exact fun holds => holds (.compare ⟨"books", "title"⟩ .eq (.text "Emma")) rfl

end Filter

end FilterSql
