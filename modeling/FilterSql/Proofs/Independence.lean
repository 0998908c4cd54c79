import FilterSql.Proofs.JoinPaths
import FilterSql.Proofs.Renaming

/-!
Alias names carry no meaning.

One filter is compiled twice, with two tables. The hops are the same in both, and so are the places
they lead to, so the two walks that make the predicates go side by side (`Ready`) and differ in the
names of hop sequences only. They fail with the same error, or they make conditions that are twins:
they have as many aliases, and a renaming that takes the aliases of one to those of the other, in
order, makes them equal (`Twins`). The aliases of a compiled filter are different from one another
and from the names of the collections, so there is such a renaming (`Filter.compile_renamed`).
-/

namespace FilterSql

/-! ### Outcomes -/

/-- The same error, or results that are related. -/
inductive Alike {α β : Type} (related : α → β → Prop) :
    Except CompileError α → Except CompileError β → Prop where
  | ok {a : α} {b : β} (results : related a b) : Alike related (.ok a) (.ok b)
  | error (e : CompileError) : Alike related (.error e) (.error e)

namespace Alike

variable {α β γ δ σ τ : Type} {related : α → β → Prop} {later : γ → δ → Prop}

/-- Computations in two steps have the same error or related results if their steps do. -/
theorem bind {m : Step σ α} {n : Step τ β} {k : α → Step σ γ} {l : β → Step τ δ} {s : σ} {t : τ}
    (first : Alike related (m s).1 (n t).1)
    (second : ∀ {a : α} {s' : σ} {b : β} {t' : τ}, m s = (.ok a, s') → n t = (.ok b, t') →
      related a b → Alike later (k a s').1 (l b t').1) :
    Alike later ((m >>= k) s).1 ((n >>= l) t).1 := by
  rw [Step.bind_apply, Step.bind_apply]
  rcases ran₁ : m s with ⟨_ | a, s'⟩ <;> rcases ran₂ : n t with ⟨_ | b, t'⟩ <;>
    rw [ran₁, ran₂] at first <;> cases first
  · exact .error _
  · next results => exact second ran₁ ran₂ results

/-- Outcomes that are gone on with. -/
theorem andThen {x : Except CompileError α} {y : Except CompileError β}
    {k : α → Except CompileError γ} {l : β → Except CompileError δ} (first : Alike related x y)
    (second : ∀ {a b}, related a b → Alike later (k a) (l b)) :
    Alike later (x >>= k) (y >>= l) := by
  cases first with
  | ok results => exact second results
  | error e => exact .error e

/-- An outcome that is gone on with in two ways. -/
theorem thenBoth (x : Except CompileError α) {k : α → Except CompileError γ}
    {l : α → Except CompileError δ} (second : ∀ a, Alike later (k a) (l a)) :
    Alike later (x >>= k) (x >>= l) := by
  cases x with
  | ok a => exact second a
  | error e => exact .error e

theorem refl {same : α → α → Prop} (reflexive : ∀ a, same a a) (x : Except CompileError α) :
    Alike same x x := by
  cases x with
  | ok a => exact .ok (reflexive a)
  | error e => exact .error e

/-- An outcome and itself. -/
theorem same (x : Except CompileError α) : Alike Eq x x := refl (fun _ => rfl) x

/-- Outcomes with the same results are equal. -/
theorem eq {x y : Except CompileError α} (alike : Alike Eq x y) : x = y := by
  cases alike with
  | ok results => rw [results]
  | error e => rfl

theorem mono {weaker : α → β → Prop} {x : Except CompileError α} {y : Except CompileError β}
    (alike : Alike related x y) (implied : ∀ {a b}, related a b → weaker a b) :
    Alike weaker x y := by
  cases alike with
  | ok results => exact .ok (implied results)
  | error e => exact .error e

/-- What is made of the results of outcomes that are alike. -/
theorem map {x : Except CompileError α} {y : Except CompileError β} {g : α → γ} {h : β → δ}
    (alike : Alike related x y) (made : ∀ {a : α} {b : β}, related a b → later (g a) (h b)) :
    Alike later (x.map g) (y.map h) := by
  cases alike with
  | ok results => exact .ok (made results)
  | error e => exact .error e

end Alike

@[simp] theorem Step.ofExcept_apply_fst {σ α : Type} (x : Except CompileError α) (s : σ) :
    (ofExcept x s).1 = x := by
  cases x <;> rfl

/-! ### Twins -/

/-- A renaming leaves the names of collections alone. -/
def Catalog.Fixes (cat : Catalog) (ρ : String → String) : Prop := ∀ n ∈ cat.names, ρ n = n

/-- Things with the same number of aliases, which become equal under each renaming of some sort that
takes the aliases of one to those of the other, in order. -/
structure Twins {α : Type} (aliases : α → List String) (rename : (String → String) → α → α)
    (sort : (String → String) → Prop) (x y : α) : Prop where
  count : (aliases x).length = (aliases y).length
  renamed : ∀ ρ, sort ρ → (aliases x).map ρ = aliases y → rename ρ x = y

/-- The names of the joins of the statements inside a condition. -/
def Predicate.aliases (p : Predicate) : List String := aliasesAll [p]

/-- The names of the joins of a compiled filter and of those inside its condition. -/
def CompiledFilter.aliases (c : CompiledFilter) : List String :=
  c.joins.map (·.qualifier) ++ Predicate.aliasesAll c.predicate.toList

/-- The aliases of a compiled filter are those of its plan. -/
@[simp] theorem Plan.aliases_compiled (plan : Plan) (cat : Catalog) (joinsReverse : Bool)
    (root : String) : (plan.compiled cat joinsReverse root).aliases = plan.aliases := by
  rw [CompiledFilter.aliases, map_qualifier_joins]
  simp [compiled, aliases, Predicate.aliasesAll]

/-- Conditions that are the same but for their aliases. -/
abbrev Predicate.Twins (sort : (String → String) → Prop) (p q : Predicate) : Prop :=
  FilterSql.Twins Predicate.aliases Predicate.rename sort p q

/-- Statements that are the same but for their aliases. -/
abbrev Select.Twins (cat : Catalog) (s t : Select) : Prop :=
  FilterSql.Twins Select.aliases Select.rename cat.Fixes s t

/-- Compiled filters that are the same but for their aliases. -/
abbrev CompiledFilter.Twins (cat : Catalog) (c d : CompiledFilter) : Prop :=
  FilterSql.Twins CompiledFilter.aliases CompiledFilter.rename cat.Fixes c d

namespace Predicate

variable {sort : (String → String) → Prop} {ps qs : List Predicate}

theorem aliasesAll_cons (p : Predicate) (rest : List Predicate) :
    aliasesAll (p :: rest) = p.aliases ++ aliasesAll rest := by
  simp [aliases, aliasesAll, statementsAll]

@[simp] theorem aliases_group (op : Connective) (items : List Predicate) :
    (group op items).aliases = aliasesAll items := by
  simp [aliases, aliasesAll, statementsAll]

@[simp] theorem aliases_inSelect (column : ColumnRef) (s : Select) :
    (inSelect column s).aliases = s.aliases := by
  simp [aliases, aliasesAll, statementsAll, statements, Select.aliases]

theorem aliases_test {test : ColumnRef → Predicate} (isTest : Leaf.IsTest test)
    (column : ColumnRef) : (test column).aliases = [] := by
  simp [aliases, aliasesAll, statementsAll, isTest.statements]

/-- Conditions in a row are twins if they are one by one. -/
theorem twins_all (twins : List.Forall₂ (Predicate.Twins sort) ps qs) :
    FilterSql.Twins aliasesAll (fun ρ => List.map (rename ρ)) sort ps qs := by
  induction twins with
  | nil => exact ⟨rfl, fun _ _ _ => rfl⟩
  | @cons p q ps qs first _ ih =>
      constructor
      · rw [aliasesAll_cons, aliasesAll_cons, List.length_append, List.length_append, first.count,
          ih.count]
      · intro ρ allowed same
        rw [aliasesAll_cons, aliasesAll_cons, List.map_append] at same
        obtain ⟨same₁, same₂⟩ := List.append_inj same (by simpa using first.count)
        rw [List.map_cons, first.renamed ρ allowed same₁, ih.renamed ρ allowed same₂]

theorem Twins.group (op : Connective) (twins : List.Forall₂ (Predicate.Twins sort) ps qs) :
    Predicate.Twins sort (Predicate.group op ps) (Predicate.group op qs) := by
  obtain ⟨count, renamed⟩ := twins_all twins
  constructor
  · rwa [aliases_group, aliases_group]
  · intro ρ allowed same
    rw [aliases_group, aliases_group] at same
    rw [rename_group, renamed ρ allowed same]

/-- A test of columns that are renamed to one another. -/
theorem Twins.test {test : ColumnRef → Predicate} (isTest : Leaf.IsTest test) {c d : ColumnRef}
    (columns : ∀ ρ, sort ρ → c.rename ρ = d) : Predicate.Twins sort (test c) (test d) := by
  constructor
  · rw [aliases_test isTest, aliases_test isTest]
  · intro ρ allowed _
    rw [isTest.rename_eq, columns ρ allowed]

/-- Tests against statements that are twins. -/
theorem Twins.inSelect {cat : Catalog} {s t : Select} (selects : Select.Twins cat s t)
    {c d : ColumnRef} (fixes : ∀ ρ, sort ρ → cat.Fixes ρ) (columns : ∀ ρ, sort ρ → c.rename ρ = d) :
    Predicate.Twins sort (.inSelect c s) (.inSelect d t) := by
  constructor
  · rw [aliases_inSelect, aliases_inSelect, selects.count]
  · intro ρ allowed same
    rw [aliases_inSelect, aliases_inSelect] at same
    rw [rename, renameSelect_eq, columns ρ allowed, selects.renamed ρ (fixes ρ allowed) same]

end Predicate

/-! ### Comparisons -/

/-- Comparisons of columns of one name have the same error, or make the same test of them. -/
theorem Leaf.predicate_alike {c d : ColumnRef} (same : c.column = d.column) (localType : LocalType)
    (operator : Operator) (operand : Json) :
    Alike (fun p q => ∃ test, IsTest test ∧ p = test c ∧ q = test d)
      (predicate c localType operator operand) (predicate d localType operator operand) := by
  cases made : predicate c localType operator operand with
  | ok p =>
      obtain ⟨test, isTest, rfl, all⟩ := predicate_isTest made
      rw [all d]
      exact .ok ⟨test, isTest, rfl, rfl⟩
  | error e =>
      -- only ranges fail, with an error that names the column
      have fails : predicate d localType operator operand = .error e := by
        cases operator with
        | between | notBetween =>
            simp only [predicate, range, same] at made ⊢
            split at made <;> cases made
            simp only [*]
        | _ => cases operand <;> cases made
      rw [fails]
      exact .error e

/-- The renamings that leave the names of collections alone and take the names that hop sequences
have in one table to those that they have in another one. -/
structure Carries (cat : Catalog) (names₁ names₂ : List String → String)
    (seen : List (List String)) (ρ : String → String) : Prop where
  fixes : cat.Fixes ρ
  names : ∀ hops, hops = [] ∨ hops ∈ seen → ρ (names₁ hops) = names₂ hops

namespace Carries

variable {cat : Catalog} {names₁ names₂ : List String → String} {seen : List (List String)}
  {ρ : String → String}

/-- A column at a place that was reached is renamed to the one that the other table makes of it. -/
theorem column (carries : Carries cat names₁ names₂ seen ρ) {there : Place}
    (stood : there.hops = [] ∨ there.hops ∈ seen) (name : String) :
    ((there.anchor names₁).column name).rename ρ = (there.anchor names₂).column name := by
  simp [ColumnRef.rename, Anchor.column, Place.anchor, carries.names _ stood]

/-- The join of a hop sequence is renamed to the one that the other table makes of it. -/
theorem joinOf (carries : Carries cat names₁ names₂ seen ρ) (joinsReverse : Bool) (root : String)
    {path : List String} (mem : path ∈ seen)
    (stood : path.dropLast = [] ∨ path.dropLast ∈ seen) :
    (cat.joinOf joinsReverse root names₁ path).rename ρ =
      cat.joinOf joinsReverse root names₂ path := by
  simp [Catalog.joinOf, Join.rename, ColumnRef.rename, carries.names _ (.inr mem),
    carries.names _ stood]

end Carries

/-! ### Two walks side by side -/

namespace Compile

/-- A walk that makes predicates, at a place where an anchor stands. -/
structure Ready (reserved : List String) (base : AliasTable) (root : String) (f : Frame)
    (names : List String → String) (seen : List (List String)) (here : Place) (anchor : Anchor)
    (w : Walk) : Prop where
  resumes : Resumes reserved base root f names seen w
  stands : w.Stands f.catalog f.scope root here anchor

theorem Ready.later {reserved : List String} {base : AliasTable} {root : String} {f : Frame}
    {names : List String → String} {seen : List (List String)} {here : Place} {anchor : Anchor}
    {w w' : Walk} {ps : List Predicate}
    (ready : Ready reserved base root f names seen here anchor w)
    (emitted : w.Emitted reserved w' ps) :
    Ready reserved base root f names seen here anchor w' :=
  ⟨ready.resumes.later emitted, ready.stands.later emitted.opens.grows⟩

/-- What is asked of the delegate of two walks: tests against statements that are twins. -/
def Pairs (cat : Catalog) (delegate : Option Delegate) : Prop :=
  ∀ d ∈ delegate, ∀ (a b : Anchor) (r : Relation) (child : Filter) (t u : AliasTable),
    t.Sound cat.names → u.Sound cat.names →
    Alike (fun p q => ∃ s s', Select.Twins cat s s' ∧
        p = .inSelect (a.column r.onePrimary) s ∧ q = .inSelect (b.column r.onePrimary) s')
      (d a r child t).1 (d b r child u).1

section SideBySide

variable {cat : Catalog} {policy : PathPolicy} {joinsReverse : Bool} {i j : Nat} {root : String}
  {delegate : Option Delegate} {sub : Relation → Filter → Select → Prop}
  {base₁ base₂ : AliasTable} {names₁ names₂ : List String → String} {seen : List (List String)}

/-- Predicates in a row that are twins, whose names are those that two tables give to hop
sequences. -/
abbrev Paired (cat : Catalog) (names₁ names₂ : List String → String) (seen : List (List String)) :
    List Predicate → List Predicate → Prop :=
  List.Forall₂ (Predicate.Twins (Carries cat names₁ names₂ seen))

/-- A comparison fails alike or makes twins. -/
theorem emitLeaf_paired (f : Frame) {there : Place}
    (stood : there.hops = [] ∨ there.hops ∈ seen) (start : String) (path : List String)
    (operator : Operator) (operand : Json) :
    Alike (Paired cat names₁ names₂ seen)
      (f.emitLeaf start (there.anchor names₁) path operator operand)
      (f.emitLeaf start (there.anchor names₂) path operator operand) := by
  unfold Frame.emitLeaf
  split
  · exact .ok .nil
  · next column _ =>
      rw [show (there.anchor names₂).collection = (there.anchor names₁).collection from rfl]
      split
      · exact .error _
      · split
        · exact .error _
        · have same : ((there.anchor names₁).column column).column =
              ((there.anchor names₂).column column).column := rfl
          refine (Leaf.predicate_alike same _ operator operand).map ?_
          rintro _ _ ⟨test, isTest, rfl, rfl⟩
          refine .cons (.test isTest ?_) .nil
          intro ρ carries
          exact carries.column stood column

/-- A path that leads nowhere fails alike or makes nothing. -/
theorem emitUnresolved_paired (f : Frame) (start : String) (path : List String)
    (segment : String) :
    Alike (Paired cat names₁ names₂ seen) (f.emitUnresolved start path segment)
      (f.emitUnresolved start path segment) := by
  unfold Frame.emitUnresolved
  split
  · exact .ok .nil
  · exact .error _

/-- A filter behind a reverse hop fails alike or makes twins. -/
theorem delegated_paired (pairs : Pairs cat delegate) {there : Place}
    (stood : there.hops = [] ∨ there.hops ∈ seen) (r : Relation) (child : Filter) {w v : Walk}
    (sound₁ : w.aliases.Sound cat.names) (sound₂ : v.aliases.Sound cat.names) :
    Alike (Paired cat names₁ names₂ seen)
      (delegated delegate (there.anchor names₁) r child w).1
      (delegated delegate (there.anchor names₂) r child v).1 := by
  cases delegate with
  | none => exact .ok .nil
  | some d =>
      refine Alike.bind (pairs d rfl _ _ r child _ _ sound₁ sound₂) ?_
      intro p w' q v' _ _ twins
      obtain ⟨s, s', selects, rfl, rfl⟩ := twins
      refine .ok (.cons (.inSelect selects (fun ρ carries => carries.fixes) ?_) .nil)
      intro ρ carries
      exact carries.column stood r.onePrimary

mutual

/-- Two walks that make the predicates of one filter, with the same hops seen, fail alike or make
twins. -/
theorem emit_paired (pairs : Pairs cat delegate)
    (serves₁ : Serves cat.names ⟨cat, policy, ⟨i, joinsReverse⟩⟩ sub delegate)
    (serves₂ : Serves cat.names ⟨cat, policy, ⟨j, joinsReverse⟩⟩ sub delegate) :
    ∀ (entries : List Entry) {here : Place} {a b : Anchor} {w v : Walk},
    Ready cat.names base₁ root ⟨cat, policy, ⟨i, joinsReverse⟩⟩ names₁ seen here a w →
    Ready cat.names base₂ root ⟨cat, policy, ⟨j, joinsReverse⟩⟩ names₂ seen here b v →
    cat.visits joinsReverse here entries ⊆ seen →
    Alike (Paired cat names₁ names₂ seen)
      (emit ⟨cat, policy, ⟨i, joinsReverse⟩⟩ delegate a entries w).1
      (emit ⟨cat, policy, ⟨j, joinsReverse⟩⟩ delegate b entries v).1
  | [], _, _, _, _, _, _, _, _ => .ok .nil
  | e :: rest, here, a, b, w, v, ready₁, ready₂, known => by
      rw [Catalog.visits, List.append_subset] at known
      refine (emitEntry_paired pairs serves₁ serves₂ e ready₁ ready₂ known.1).bind ?_
      intro ps w' qs v' ran₁ ran₂ first
      have emitted₁ := (emitEntry_spec serves₁ e ready₁.resumes ready₁.stands known.1 ran₁).2
      have emitted₂ := (emitEntry_spec serves₂ e ready₂.resumes ready₂.stands known.1 ran₂).2
      refine (emit_paired pairs serves₁ serves₂ rest (ready₁.later emitted₁)
        (ready₂.later emitted₂) known.2).bind ?_
      intro ps' w'' qs' v'' _ _ second
      exact .ok (List.rel_append first second)

theorem emitEntry_paired (pairs : Pairs cat delegate)
    (serves₁ : Serves cat.names ⟨cat, policy, ⟨i, joinsReverse⟩⟩ sub delegate)
    (serves₂ : Serves cat.names ⟨cat, policy, ⟨j, joinsReverse⟩⟩ sub delegate) :
    ∀ (e : Entry) {here : Place} {a b : Anchor} {w v : Walk},
    Ready cat.names base₁ root ⟨cat, policy, ⟨i, joinsReverse⟩⟩ names₁ seen here a w →
    Ready cat.names base₂ root ⟨cat, policy, ⟨j, joinsReverse⟩⟩ names₂ seen here b v →
    cat.visitsEntry joinsReverse here e ⊆ seen →
    Alike (Paired cat names₁ names₂ seen)
      (emitEntry ⟨cat, policy, ⟨i, joinsReverse⟩⟩ delegate a e w).1
      (emitEntry ⟨cat, policy, ⟨j, joinsReverse⟩⟩ delegate b e v).1
  | .group op children, here, a, b, w, v, ready₁, ready₂, known => by
      simp only [emitEntry, Catalog.visitsEntry] at known ⊢
      split
      · exact .ok .nil
      · next long =>
          rw [if_neg long] at known
          refine (emitAll_paired pairs serves₁ serves₂ children ready₁ ready₂ known).bind ?_
          intro items w' items' v' _ _ twins
          cases twins with
          | nil => exact .ok .nil
          | cons first more => exact .ok (.cons (.group op (.cons first more)) .nil)
  | .leaf path operator operand, here, a, b, w, v, ready₁, ready₂, known => by
      obtain ⟨run₁, stands₁⟩ := ready₁.resumes.follow ready₁.stands known
      obtain ⟨run₂, stands₂⟩ := ready₂.resumes.follow ready₂.stands known
      have stood := ready₁.resumes.tracks.reached stands₁
      simp only [emitEntry, Step.bind_apply, Step.ofTotal, run₁, run₂,
        ready₁.stands.collection_eq, ready₂.stands.collection_eq]
      cases led : cat.course joinsReverse 0 here path.dropLast with
      | reached there =>
          rw [led] at stood
          simp only [Course.resolution, Step.ofExcept_apply_fst]
          exact emitLeaf_paired ⟨cat, policy, ⟨i, joinsReverse⟩⟩ stood here.collection path operator
            operand
      | deferred there r consumed =>
          rw [led] at stood
          exact delegated_paired pairs stood r _ ready₁.resumes.tracks.sound
            ready₂.resumes.tracks.sound
      | unresolved there segment =>
          simp only [Course.resolution, Step.ofExcept_apply_fst]
          exact emitUnresolved_paired ⟨cat, policy, ⟨i, joinsReverse⟩⟩ here.collection path segment
  | .nested path body, here, a, b, w, v, ready₁, ready₂, known => by
      rw [Catalog.visitsEntry, List.append_subset] at known
      obtain ⟨run₁, stands₁⟩ := ready₁.resumes.follow ready₁.stands known.1
      obtain ⟨run₂, stands₂⟩ := ready₂.resumes.follow ready₂.stands known.1
      have stood := ready₁.resumes.tracks.reached stands₁
      simp only [emitEntry, Step.bind_apply, Step.ofTotal, run₁, run₂,
        ready₁.stands.collection_eq, ready₂.stands.collection_eq]
      cases led : cat.course joinsReverse 0 here path with
      | reached there =>
          rw [led] at stands₁ stands₂ known
          exact emit_paired pairs serves₁ serves₂ body ⟨ready₁.resumes, stands₁⟩
            ⟨ready₂.resumes, stands₂⟩ known.2
      | deferred there r consumed =>
          rw [led] at stood
          exact delegated_paired pairs stood r _ ready₁.resumes.tracks.sound
            ready₂.resumes.tracks.sound
      | unresolved there segment =>
          simp only [Course.resolution, Step.ofExcept_apply_fst]
          exact emitUnresolved_paired ⟨cat, policy, ⟨i, joinsReverse⟩⟩ here.collection path segment

theorem emitAll_paired (pairs : Pairs cat delegate)
    (serves₁ : Serves cat.names ⟨cat, policy, ⟨i, joinsReverse⟩⟩ sub delegate)
    (serves₂ : Serves cat.names ⟨cat, policy, ⟨j, joinsReverse⟩⟩ sub delegate) :
    ∀ (children : List (List Entry)) {here : Place} {a b : Anchor} {w v : Walk},
    Ready cat.names base₁ root ⟨cat, policy, ⟨i, joinsReverse⟩⟩ names₁ seen here a w →
    Ready cat.names base₂ root ⟨cat, policy, ⟨j, joinsReverse⟩⟩ names₂ seen here b v →
    cat.visitsAll joinsReverse here children ⊆ seen →
    Alike (Paired cat names₁ names₂ seen)
      (emitAll ⟨cat, policy, ⟨i, joinsReverse⟩⟩ delegate a children w).1
      (emitAll ⟨cat, policy, ⟨j, joinsReverse⟩⟩ delegate b children v).1
  | [], _, _, _, _, _, _, _, _ => .ok .nil
  | child :: rest, here, a, b, w, v, ready₁, ready₂, known => by
      rw [Catalog.visitsAll, List.append_subset] at known
      refine (emit_paired pairs serves₁ serves₂ child ready₁ ready₂ known.1).bind ?_
      intro ps w' qs v' ran₁ ran₂ first
      have emitted₁ := (emit_spec serves₁ child ready₁.resumes ready₁.stands known.1 ran₁).2
      have emitted₂ := (emit_spec serves₂ child ready₂.resumes ready₂.stands known.1 ran₂).2
      refine (emitAll_paired pairs serves₁ serves₂ rest (ready₁.later emitted₁)
        (ready₂.later emitted₂) known.2).bind ?_
      intro items w'' items' v'' _ _ second
      cases first with
      | nil => exact .ok second
      | cons p more => exact .ok (.cons (.group .and (.cons p more)) second)

end

/-- Plans that join the same hop sequences and have twins for predicates make compiled filters that
are twins. -/
theorem compiled_twins (rooted : root ∈ cat.names) (grown : Grown seen) (start₁ : names₁ [] = root)
    (start₂ : names₂ [] = root) {ps qs : List Predicate}
    (paired : Paired cat names₁ names₂ seen ps qs) :
    CompiledFilter.Twins cat ((Plan.mk seen names₁ ps).compiled cat joinsReverse root)
      ((Plan.mk seen names₂ qs).compiled cat joinsReverse root) := by
  obtain ⟨count, renamed⟩ := Predicate.twins_all paired
  constructor
  · simp [Plan.aliases, count]
  · intro ρ fixes same
    simp only [Plan.aliases_compiled, Plan.aliases, List.map_append, List.map_map] at same
    obtain ⟨joined, inside⟩ := List.append_inj same (by simp)
    have carries : Carries cat names₁ names₂ seen ρ := by
      refine ⟨fixes, ?_⟩
      rintro hops (rfl | mem)
      · rw [start₁, start₂, fixes root rooted]
      · exact List.map_inj_left.mp joined hops mem
    simp only [Plan.compiled, CompiledFilter.rename, map_rename_conjunction,
      renamed ρ carries inside, List.map_map]
    congr 1
    refine List.map_congr_left fun path mem => ?_
    exact carries.joinOf joinsReverse root mem (grown.dropLast_mem mem)

/-- Compiling one filter in two scopes where nothing is joined yet fails alike or makes twins. -/
theorem inScope_alike (pairs : Pairs cat delegate)
    (serves₁ : Serves cat.names ⟨cat, policy, ⟨i, joinsReverse⟩⟩ sub delegate)
    (serves₂ : Serves cat.names ⟨cat, policy, ⟨j, joinsReverse⟩⟩ sub delegate)
    {t₁ t₂ : AliasTable}
    (start₁ : Walk.Tracks cat cat.names base₁ ⟨i, joinsReverse⟩ root ⟨t₁, []⟩ [])
    (start₂ : Walk.Tracks cat cat.names base₂ ⟨j, joinsReverse⟩ root ⟨t₂, []⟩ [])
    (filter : Filter) :
    Alike (CompiledFilter.Twins cat)
      (inScope ⟨cat, policy, ⟨i, joinsReverse⟩⟩ delegate root filter t₁).1
      (inScope ⟨cat, policy, ⟨j, joinsReverse⟩⟩ delegate root filter t₂).1 := by
  have stands₁ := Walk.stands_root cat ⟨i, joinsReverse⟩ root ⟨t₁, []⟩
  have stands₂ := Walk.stands_root cat ⟨j, joinsReverse⟩ root ⟨t₂, []⟩
  obtain ⟨tracks₁, grows₁⟩ :=
    discover_tracks ⟨cat, policy, ⟨i, joinsReverse⟩⟩ filter start₁ stands₁
  obtain ⟨tracks₂, grows₂⟩ :=
    discover_tracks ⟨cat, policy, ⟨j, joinsReverse⟩⟩ filter start₂ stands₂
  have known : cat.visits joinsReverse (.root root) filter ⊆
      (cat.visits joinsReverse (.root root) filter).foldl note [] := by
    intro path mem
    exact mem_foldl_note mem
  simp only [inScope]
  generalize discover ⟨cat, policy, ⟨i, joinsReverse⟩⟩ (.root root) filter ⟨t₁, []⟩ = w
    at tracks₁ grows₁ ⊢
  generalize discover ⟨cat, policy, ⟨j, joinsReverse⟩⟩ (.root root) filter ⟨t₂, []⟩ = v
    at tracks₂ grows₂ ⊢
  have ready₁ : Ready cat.names base₁ root ⟨cat, policy, ⟨i, joinsReverse⟩⟩ _ _ _ _ w :=
    ⟨⟨tracks₁, rfl⟩, stands₁.later grows₁⟩
  have ready₂ : Ready cat.names base₂ root ⟨cat, policy, ⟨j, joinsReverse⟩⟩ _ _ _ _ v :=
    ⟨⟨tracks₂, rfl⟩, stands₂.later grows₂⟩
  have alike := emit_paired pairs serves₁ serves₂ filter ready₁ ready₂ known
  rcases ran₁ : emit _ delegate _ filter w with ⟨_ | ps, w'⟩ <;>
    rcases ran₂ : emit _ delegate _ filter v with ⟨_ | qs, v'⟩ <;>
    rw [ran₁, ran₂] at alike <;> cases alike
  · exact .error _
  · next paired =>
      have emitted₁ := (emit_spec serves₁ filter ready₁.resumes ready₁.stands known ran₁).2
      have emitted₂ := (emit_spec serves₂ filter ready₂.resumes ready₂.stands known ran₂).2
      dsimp only
      rw [emitted₁.joins_eq, emitted₂.joins_eq, tracks₁.joins_eq, tracks₂.joins_eq]
      exact .ok (compiled_twins start₁.rooted tracks₁.grown rfl rfl paired)

end SideBySide

end Compile

namespace Filter

variable {cat : Catalog} {policy : PathPolicy} {subQuery : Bool} {collection : String}

/-- Compiling one filter for a sub-select, with two tables. -/
theorem compileInner_alike (filter : Filter) {t u : AliasTable} (sound₁ : t.Sound cat.names)
    (sound₂ : u.Sound cat.names) :
    Alike (CompiledFilter.Twins cat) (compileInner cat policy collection filter t).1
      (compileInner cat policy collection filter u).1 := by
  unfold compileInner
  cases required : cat.requireCollection collection with
  | error e => exact .error e
  | ok c =>
      have rooted := Catalog.mem_names_of_requireCollection required
      have start₁ := Compile.tracks_start cat ⟨t.nextScope, true⟩ sound₁ rooted rfl
      have start₂ := Compile.tracks_start cat ⟨u.nextScope, true⟩ sound₂ rooted rfl
      have pairs : Compile.Pairs cat none := by simp [Compile.Pairs]
      have serves : ∀ id, Compile.Serves cat.names ⟨cat, policy, ⟨id, true⟩⟩
          (fun _ _ _ => False) none := fun _ => rfl
      exact Compile.inScope_alike pairs (serves _) (serves _) start₁ start₂ filter

/-- The statements of sub-selects are twins if what they are made of is. -/
theorem select_twins {c d : CompiledFilter} (twins : CompiledFilter.Twins cat c d) (r : Relation) :
    Select.Twins cat
      { Select.ofCollection r.manyCollection with
        columns := [r.manyField]
        joins := c.joins
        predicates := c.predicate.toList }
      { Select.ofCollection r.manyCollection with
        columns := [r.manyField]
        joins := d.joins
        predicates := d.predicate.toList } := by
  refine ⟨twins.count, ?_⟩
  intro ρ fixes same
  rw [← twins.renamed ρ fixes same]
  simp [Select.rename, CompiledFilter.rename, Select.ofCollection, Option.toList_map]

/-- The tests that reverse hops become, with two tables. -/
theorem pairs_membership (cat : Catalog) (policy : PathPolicy) :
    Compile.Pairs cat (some (membership cat policy)) := by
  intro d mem a b r child t u sound₁ sound₂
  cases mem
  have selects : Alike (Select.Twins cat) (subselect cat policy r child t).1
      (subselect cat policy r child u).1 := by
    refine (compileInner_alike child sound₁ sound₂).bind ?_
    intro c t' d u' _ _ twins
    exact .ok (select_twins twins r)
  refine selects.bind ?_
  intro s t' s' u' _ _ twins
  exact .ok ⟨s, s', twins, rfl, rfl⟩

/-- A walk that begins with a fresh table in the scope of a whole statement has seen nothing. -/
theorem tracks_fresh {reserved : List String} (reserves : cat.names ⊆ reserved)
    (rooted : collection ∈ cat.names) (strategy : AliasStrategy) (draws : Nat → Nat) :
    Walk.Tracks cat cat.names (.fresh strategy draws reserved) .root collection
      ⟨.fresh strategy draws reserved, []⟩ [] := by
  have used : (AliasTable.fresh strategy draws reserved).InUse reserved := .fresh strategy draws
  exact Compile.tracks_unused cat .root (used.sound.mono reserves) rooted used.root_opened
    fun _ _ => Std.TreeMap.getElem?_emptyc

/-- Compiling one filter for a whole statement or for a sub-select, with two fresh tables. -/
theorem compile_alike {reserved₁ reserved₂ : List String} (reserves₁ : cat.names ⊆ reserved₁)
    (reserves₂ : cat.names ⊆ reserved₂) (strategy₁ strategy₂ : AliasStrategy)
    (draws₁ draws₂ : Nat → Nat) (filter : Filter) :
    Alike (CompiledFilter.Twins cat)
      (filter.compile cat policy subQuery collection (.fresh strategy₁ draws₁ reserved₁)).1
      (filter.compile cat policy subQuery collection (.fresh strategy₂ draws₂ reserved₂)).1 := by
  cases subQuery with
  | true =>
      exact compileInner_alike filter
        ((AliasTable.sound_fresh strategy₁ draws₁ reserved₁).mono reserves₁)
        ((AliasTable.sound_fresh strategy₂ draws₂ reserved₂).mono reserves₂)
  | false =>
      simp only [compile, compileOuter, Bool.false_eq_true, if_false]
      cases required : cat.requireCollection collection with
      | error e => exact .error e
      | ok c =>
          have rooted := Catalog.mem_names_of_requireCollection required
          have serves := serves_delegateOf cat policy false (.fresh strategy₁ draws₁ reserved₁)
          exact Compile.inScope_alike (pairs_membership cat policy) serves serves
            (tracks_fresh reserves₁ rooted strategy₁ draws₁)
            (tracks_fresh reserves₂ rooted strategy₂ draws₂) filter

/-- The aliases of a filter compiled with a fresh table are different from one another and from the
names of the collections. -/
theorem aliases_of_compile {reserved : List String} (reserves : cat.names ⊆ reserved)
    {strategy : AliasStrategy} {draws : Nat → Nat} {filter : Filter} {c : CompiledFilter}
    (compiled : (filter.compile cat policy subQuery collection
      (.fresh strategy draws reserved)).1 = .ok c) :
    c.aliases.Nodup ∧ ∀ a ∈ c.aliases, a ∉ cat.names := by
  have sound := (AliasTable.sound_fresh strategy draws reserved).mono reserves
  cases subQuery with
  | true =>
      obtain ⟨plan, id, valid, rfl, opens⟩ := compileInner_spec sound (Prod.ext compiled rfl)
      rw [Plan.aliases_compiled]
      exact ⟨opens.nodup, opens.unreserved sound⟩
  | false =>
      obtain ⟨plan, valid, rfl, nodup, unreserved, -⟩ :=
        compileOuter_spec reserves (Prod.ext compiled rfl)
      rw [Plan.aliases_compiled]
      exact ⟨nodup, unreserved⟩

/-- With two fresh tables, which may choose aliases in their own ways and never give out names of
their own besides those of the collections, a filter fails with the same error, or the compiled
filters are equal but for a one-to-one renaming that leaves the names of collections alone. -/
theorem compile_renamed {reserved₁ reserved₂ : List String} (reserves₁ : cat.names ⊆ reserved₁)
    (reserves₂ : cat.names ⊆ reserved₂) (strategy₁ strategy₂ : AliasStrategy)
    (draws₁ draws₂ : Nat → Nat) (filter : Filter) :
    ∃ ρ : Equiv.Perm String, (∀ n ∈ cat.names, ρ n = n) ∧
      (filter.compile cat policy subQuery collection (.fresh strategy₁ draws₁ reserved₁)).1.map
          (·.rename ρ) =
        (filter.compile cat policy subQuery collection (.fresh strategy₂ draws₂ reserved₂)).1 := by
  have alike : Alike (CompiledFilter.Twins cat)
      (filter.compile cat policy subQuery collection (.fresh strategy₁ draws₁ reserved₁)).1
      (filter.compile cat policy subQuery collection (.fresh strategy₂ draws₂ reserved₂)).1 :=
    compile_alike reserves₁ reserves₂ strategy₁ strategy₂ draws₁ draws₂ filter
  generalize ran₁ : (filter.compile cat policy subQuery collection
    (.fresh strategy₁ draws₁ reserved₁)).1 = x at alike ⊢
  generalize ran₂ : (filter.compile cat policy subQuery collection
    (.fresh strategy₂ draws₂ reserved₂)).1 = y at alike ⊢
  cases alike with
  | error e => exact ⟨1, fun _ _ => rfl, rfl⟩
  | ok twins =>
      obtain ⟨nodup₁, other₁⟩ := aliases_of_compile reserves₁ ran₁
      obtain ⟨nodup₂, other₂⟩ := aliases_of_compile reserves₂ ran₂
      obtain ⟨ρ, fixes, taken⟩ := exists_perm_map_eq twins.count nodup₁ nodup₂ other₁ other₂
      exact ⟨ρ, fixes, congrArg Except.ok (twins.renamed ρ fixes taken)⟩

/-- The books whose author has a name, as has the author of a book of that author. -/
def peers : Filter :=
  [ .leaf ["author", "name"] .notNull .null,
    .leaf ["author", "books", "author", "name"] .eq (.string "Ann") ]

/-- Aliases that are counted, and others that are drawn, one of the counted ones being reserved. -/
theorem compile_renamed_peers :
    ∃ c d, (peers.compile .library .reject false "books"
        (.fresh .sequential (fun _ => 0) Catalog.library.names)).1 = .ok c ∧
      (peers.compile .library .reject false "books"
        (.fresh .random (· + 25) ("aaaaa" :: Catalog.library.names))).1 = .ok d ∧
      c.aliases = ["aaaaa", "aaaab"] ∧ d.aliases = ["aaaaz", "aaaba"] ∧
      ∃ ρ : Equiv.Perm String, (∀ n ∈ Catalog.library.names, ρ n = n) ∧ c.rename ρ = d := by
  have counted : (peers.compile .library .reject false "books"
      (.fresh .sequential (fun _ => 0) Catalog.library.names)).1.toOption.map
        CompiledFilter.aliases = some ["aaaaa", "aaaab"] := by decide +kernel
  have drawn : (peers.compile .library .reject false "books"
      (.fresh .random (· + 25) ("aaaaa" :: Catalog.library.names))).1.toOption.map
        CompiledFilter.aliases = some ["aaaaz", "aaaba"] := by decide +kernel
  obtain ⟨ρ, fixes, same⟩ := @compile_renamed .library .reject false "books" _ _
    (List.Subset.refl Catalog.library.names) (List.subset_cons_self "aaaaa" _) .sequential .random
    (fun _ => 0) (· + 25) peers
  rcases first : (peers.compile .library .reject false "books"
    (.fresh .sequential (fun _ => 0) Catalog.library.names)).1 with _ | c
  · simp [first, Except.toOption] at counted
  · rcases second : (peers.compile .library .reject false "books"
      (.fresh .random (· + 25) ("aaaaa" :: Catalog.library.names))).1 with _ | d
    · simp [second, Except.toOption] at drawn
    · rw [first, second] at same
      exact ⟨c, d, rfl, rfl, by simpa [first, Except.toOption] using counted,
        by simpa [second, Except.toOption] using drawn, ρ, fixes, by cases same; rfl⟩

end Filter

end FilterSql
