import FilterSql.Proofs.Route

/-!
How a filter reads.

A filter reads as a condition on a view of the data (`Reading.holds`): an object is the conjunction
of its entries, groups combine their children, a comparison tests the column that its path leads
to, and a reverse hop outside of a sub-select asks for some row of the many side. A path that leads
nowhere constrains nothing. Two readings differ in the alternatives of a disjunction that they
count. In the plain one (`everyAlternative`) all of them count. In the other one
(`Catalog.alternatives`) an alternative that constrains nothing does not, unless it is written as
the empty filter; this is the one that compiled filters follow. It is the stronger of the two
(`Reading.holds_every`), and they agree where no disjunction mixes alternatives that constrain
nothing with ones that do (`Reading.holds_of_balanced`).
-/

namespace FilterSql

namespace Catalog

variable (cat : Catalog)

/-- Where a path ends and whether it ends in a sub-select, if it leads anywhere. -/
def ends (joinsReverse : Bool) (here : Place) (path : List String) : Option (Bool × Place) :=
  match cat.course joinsReverse 0 here path with
  | .reached there => some (joinsReverse, there)
  | .deferred _ r consumed =>
    match cat.course true 0 (.root r.manyCollection) (path.drop consumed) with
    | .reached there => some (true, there)
    | _ => none
  | .unresolved _ _ => none

mutual

/-- Whether a filter constrains anything: it makes a predicate. -/
def constrains (joinsReverse : Bool) (here : Place) : List Entry → Bool
  | [] => false
  | e :: rest => constrainsEntry joinsReverse here e || constrains joinsReverse here rest

/-- Whether an entry constrains anything. -/
def constrainsEntry (joinsReverse : Bool) (here : Place) : Entry → Bool
  | .group op children =>
    !Entry.shortCircuits op children && constrainsAny joinsReverse here children
  | .leaf path _ _ =>
    match cat.course joinsReverse 0 here path.dropLast with
    | .unresolved _ _ => false
    | _ => !path.isEmpty
  | .nested path body =>
    match cat.course joinsReverse 0 here path with
    | .reached there => constrains joinsReverse there body
    | .deferred _ _ _ => true
    | .unresolved _ _ => false

/-- Whether any of several filters constrains anything. -/
def constrainsAny (joinsReverse : Bool) (here : Place) : List (List Entry) → Bool
  | [] => false
  | child :: rest => constrains joinsReverse here child || constrainsAny joinsReverse here rest

end

mutual

/-- Whether in each disjunction all alternatives constrain something or none does. A disjunction
with an empty filter in it may have any others. -/
def balanced (joinsReverse : Bool) (here : Place) : List Entry → Bool
  | [] => true
  | e :: rest => balancedEntry joinsReverse here e && balanced joinsReverse here rest

/-- Whether the disjunctions of an entry are balanced. -/
def balancedEntry (joinsReverse : Bool) (here : Place) : Entry → Bool
  | .group .and children => balancedAll joinsReverse here children
  | .group .or children =>
    children.any Filter.isEmpty ||
      (children.all (cat.constrains joinsReverse here) ||
        !cat.constrainsAny joinsReverse here children) && balancedAll joinsReverse here children
  | .leaf _ _ _ => true
  | .nested path body =>
    match cat.ends joinsReverse here path with
    | some (inside, there) => balanced inside there body
    | none => true

/-- Whether the disjunctions of several filters are balanced. -/
def balancedAll (joinsReverse : Bool) (here : Place) : List (List Entry) → Bool
  | [] => true
  | child :: rest => balanced joinsReverse here child && balancedAll joinsReverse here rest

end

/-- The alternatives that a compiled disjunction counts: empty filters, and those that constrain
something. -/
def alternatives (joinsReverse : Bool) (here : Place) (child : List Entry) : Bool :=
  child.isEmpty || cat.constrains joinsReverse here child

end Catalog

namespace Filter

/-- Books of one of two titles. -/
def titles : Filter :=
  [.group .or
    [[.leaf ["title"] .eq (.string "Emma")], [.leaf ["title"] .eq (.string "Persuasion")]]]

/-- All books, because the first alternative always holds. -/
def eitherOr : Filter :=
  [.group .or [[.group .and []], [.leaf ["title"] .eq (.string "Emma")]]]

/-- The document that reads as this filter. -/
def eitherOrDocument : Json :=
  .object [("_or", .array
    [ .object [("_and", .array [])], .object [("title", .object [("_eq", .string "Emma")])] ])]

end Filter

example : Catalog.library.balanced false (.root "books") Filter.titles = true := by decide

example : Catalog.library.balanced false (.root "books") Filter.eitherOr = false := by decide

/-- All alternatives. -/
def everyAlternative (_ : Bool) (_ : Place) (_ : List Entry) : Bool := true

/-- What comparisons and reverse hops mean on a view of the data. -/
structure Reading (View : Type) where
  /-- whether the column of a place passes a comparison -/
  test : View → Place → String → Operator → Json → Prop
  /-- whether a condition holds of a view from some row on the many side of a relation -/
  far : View → Place → Relation → (View → Prop) → Prop
  far_mono : ∀ {view : View} {there : Place} {r : Relation} {K K' : View → Prop},
    (∀ v, K v → K' v) → far view there r K → far view there r K'

namespace Reading

variable {View : Type} (R : Reading View) (cat : Catalog)
  (counts : Bool → Place → List Entry → Bool)

/-- A condition on what a path leads to, which holds if it leads nowhere. -/
def along (joinsReverse : Bool) (here : Place) (view : View) (path : List String)
    (K : Bool → Place → View → Prop) : Prop :=
  match cat.course joinsReverse 0 here path with
  | .reached there => K joinsReverse there view
  | .deferred there r consumed =>
    R.far view there r fun view =>
      match cat.course true 0 (.root r.manyCollection) (path.drop consumed) with
      | .reached there => K true there view
      | _ => True
  | .unresolved _ _ => True

mutual

/-- A filter holds if all of its entries do. -/
def holds (joinsReverse : Bool) (here : Place) (view : View) : List Entry → Prop
  | [] => True
  | e :: rest => holdsEntry joinsReverse here view e ∧ holds joinsReverse here view rest

/-- A disjunction of which no alternative counts holds. -/
def holdsEntry (joinsReverse : Bool) (here : Place) (view : View) : Entry → Prop
  | .group .and children => holdsAll joinsReverse here view children
  | .group .or children =>
    holdsSome joinsReverse here view children ∨
      ∀ child ∈ children, counts joinsReverse here child = false
  | .leaf path operator operand =>
    R.along cat joinsReverse here view path.dropLast fun _ there view =>
      ∀ column ∈ path.getLast?, R.test view there column operator operand
  | .nested path body =>
    R.along cat joinsReverse here view path fun inside there view => holds inside there view body

/-- All of several filters hold. -/
def holdsAll (joinsReverse : Bool) (here : Place) (view : View) : List (List Entry) → Prop
  | [] => True
  | child :: rest => holds joinsReverse here view child ∧ holdsAll joinsReverse here view rest

/-- One of several filters counts and holds. -/
def holdsSome (joinsReverse : Bool) (here : Place) (view : View) : List (List Entry) → Prop
  | [] => False
  | child :: rest =>
    (counts joinsReverse here child = true ∧ holds joinsReverse here view child) ∨
      holdsSome joinsReverse here view rest

end

variable {R cat counts} {joinsReverse : Bool} {here : Place} {view : View}

theorem holdsAll_iff {children : List (List Entry)} :
    R.holdsAll cat counts joinsReverse here view children ↔
      ∀ child ∈ children, R.holds cat counts joinsReverse here view child := by
  induction children with
  | nil => simp [holdsAll]
  | cons child rest ih => simp [holdsAll, ih]

theorem holdsSome_iff {children : List (List Entry)} :
    R.holdsSome cat counts joinsReverse here view children ↔
      ∃ child ∈ children, counts joinsReverse here child = true ∧
        R.holds cat counts joinsReverse here view child := by
  induction children with
  | nil => simp [holdsSome]
  | cons child rest ih => simp [holdsSome, ih]

/-- A condition may be weakened at the place where the path ends. -/
theorem along_mono {path : List String} {K K' : Bool → Place → View → Prop}
    (weaker : ∀ {inside : Bool} {there : Place},
      cat.ends joinsReverse here path = some (inside, there) →
        ∀ v, K inside there v → K' inside there v)
    (holds : R.along cat joinsReverse here view path K) :
    R.along cat joinsReverse here view path K' := by
  unfold along Catalog.ends at *
  split
  · next led =>
      rw [led] at weaker holds
      exact weaker rfl view holds
  · next led =>
      rw [led] at weaker holds
      refine R.far_mono ?_ holds
      intro v
      split
      · next last =>
          simp only [last] at weaker
          exact weaker rfl v
      · exact id
  · trivial

/-! ### Filters that constrain nothing -/

theorem constrainsAny_eq_false {children : List (List Entry)} :
    cat.constrainsAny joinsReverse here children = false ↔
      ∀ child ∈ children, cat.constrains joinsReverse here child = false := by
  induction children with
  | nil => simp [Catalog.constrainsAny]
  | cons child rest ih => simp [Catalog.constrainsAny, ih]

theorem shortCircuits_or {children : List (List Entry)} :
    Entry.shortCircuits .or children = true ↔ [] ∈ children := by
  simp [Entry.shortCircuits, Filter.isEmpty]

variable (cat joinsReverse here) in
/-- Where no alternative is an empty filter, those count that constrain anything. -/
theorem alternatives_eq_constrains {children : List (List Entry)}
    (long : Entry.shortCircuits .or children = false) :
    ∀ child ∈ children, cat.alternatives joinsReverse here child =
      cat.constrains joinsReverse here child := by
  intro child mem
  have proper : child ≠ [] := by
    rintro rfl
    simp [shortCircuits_or.mpr mem] at long
  simp [Catalog.alternatives, proper]

mutual

/-- A filter that constrains nothing holds, provided that empty alternatives count. -/
theorem holds_of_idle (empty : ∀ i p, counts i p [] = true) : ∀ (entries : List Entry)
    {here : Place} {view : View}, cat.constrains joinsReverse here entries = false →
    R.holds cat counts joinsReverse here view entries
  | [], _, _, _ => trivial
  | e :: rest, here, view, idle => by
      rw [Catalog.constrains, Bool.or_eq_false_iff] at idle
      exact ⟨holdsEntry_of_idle empty e idle.1, holds_of_idle empty rest idle.2⟩

theorem holdsEntry_of_idle (empty : ∀ i p, counts i p [] = true) : ∀ (e : Entry)
    {here : Place} {view : View}, cat.constrainsEntry joinsReverse here e = false →
    R.holdsEntry cat counts joinsReverse here view e
  | .group .and children, here, view, idle => by
      simp only [Catalog.constrainsEntry, Entry.shortCircuits, reduceCtorEq, decide_false,
        Bool.false_and, Bool.not_false, Bool.true_and] at idle
      exact holdsAll_iff.mpr (holdsAll_of_idle empty children idle)
  | .group .or children, here, view, idle => by
      rw [holdsEntry, holdsSome_iff]
      by_cases short : [] ∈ children
      · exact .inl ⟨[], short, empty _ _, trivial⟩
      · rw [Catalog.constrainsEntry, Bool.and_eq_false_iff, Bool.not_eq_false',
          shortCircuits_or] at idle
        have all : ∀ child ∈ children, R.holds cat counts joinsReverse here view child :=
          holdsAll_of_idle empty children (idle.resolve_left short)
        by_cases counted : ∃ child ∈ children, counts joinsReverse here child = true
        · obtain ⟨child, mem, counted⟩ := counted
          exact .inl ⟨child, mem, counted, all child mem⟩
        · exact .inr (by simpa using counted)
  | .leaf path _ _, here, view, idle => by
      rw [Catalog.constrainsEntry] at idle
      rw [holdsEntry, along]
      split at idle
      · next led => simp [led]
      · next reached =>
          obtain rfl : path = [] := by simpa using idle
          simp [Catalog.course]
  | .nested path body, here, view, idle => by
      rw [Catalog.constrainsEntry] at idle
      rw [holdsEntry, along]
      split at idle
      · next led => simpa [led] using holds_of_idle empty body idle
      · cases idle
      · simp

theorem holdsAll_of_idle (empty : ∀ i p, counts i p [] = true) :
    ∀ (children : List (List Entry)) {here : Place} {view : View},
    cat.constrainsAny joinsReverse here children = false →
    ∀ child ∈ children, R.holds cat counts joinsReverse here view child
  | [], _, _, _ => by simp
  | child :: rest, here, view, idle => by
      rw [Catalog.constrainsAny, Bool.or_eq_false_iff] at idle
      exact List.forall_mem_cons.mpr
        ⟨holds_of_idle empty child idle.1, holdsAll_of_idle empty rest idle.2⟩

end

theorem alternatives_nil (joinsReverse : Bool) (here : Place) :
    cat.alternatives joinsReverse here [] = true := rfl

/-! ### The two readings -/

mutual

/-- What holds when some alternatives do not count holds when all of them do. -/
theorem holds_every : ∀ (entries : List Entry) {joinsReverse : Bool} {here : Place} {view : View},
    R.holds cat cat.alternatives joinsReverse here view entries →
    R.holds cat everyAlternative joinsReverse here view entries
  | [], _, _, _, _ => trivial
  | e :: rest, _, _, _, ⟨first, later⟩ => ⟨holdsEntry_every e first, holds_every rest later⟩

theorem holdsEntry_every : ∀ (e : Entry) {joinsReverse : Bool} {here : Place} {view : View},
    R.holdsEntry cat cat.alternatives joinsReverse here view e →
    R.holdsEntry cat everyAlternative joinsReverse here view e
  | .group .and children, _, _, _, all => by
      rw [holdsEntry, holdsAll_iff] at all ⊢
      intro child mem
      exact holdsAll_every children child mem (all child mem)
  | .group .or children, joinsReverse, here, view, given => by
      rw [holdsEntry, holdsSome_iff] at given ⊢
      rcases given with ⟨child, mem, -, holds⟩ | none
      · exact .inl ⟨child, mem, rfl, holdsAll_every children child mem holds⟩
      · cases children with
        | nil => exact .inr (by simp)
        | cons child rest =>
            -- An alternative that does not count constrains nothing, so it holds.
            have idle := none child (by simp)
            rw [Catalog.alternatives, Bool.or_eq_false_iff] at idle
            exact .inl ⟨child, by simp, rfl, holds_of_idle (fun _ _ => rfl) child idle.2⟩
  | .leaf _ _ _, _, _, _, holds => holds
  | .nested path body, _, _, _, holds => by
      rw [holdsEntry] at holds ⊢
      exact along_mono (fun _ _ => holds_every body) holds

theorem holdsAll_every : ∀ (children : List (List Entry)) {joinsReverse : Bool} {here : Place}
    {view : View}, ∀ child ∈ children,
    R.holds cat cat.alternatives joinsReverse here view child →
    R.holds cat everyAlternative joinsReverse here view child
  | [], _, _, _ => by simp
  | child :: rest, _, _, _ => List.forall_mem_cons.mpr ⟨holds_every child, holdsAll_every rest⟩

end

mutual

/-- The two readings of a balanced filter agree. -/
theorem holds_of_balanced : ∀ (entries : List Entry) {joinsReverse : Bool} {here : Place}
    {view : View}, cat.balanced joinsReverse here entries = true →
    R.holds cat everyAlternative joinsReverse here view entries →
    R.holds cat cat.alternatives joinsReverse here view entries
  | [], _, _, _, _, _ => trivial
  | e :: rest, _, _, _, balanced, ⟨first, later⟩ => by
      rw [Catalog.balanced, Bool.and_eq_true] at balanced
      exact ⟨holdsEntry_of_balanced e balanced.1 first, holds_of_balanced rest balanced.2 later⟩

theorem holdsEntry_of_balanced : ∀ (e : Entry) {joinsReverse : Bool} {here : Place}
    {view : View}, cat.balancedEntry joinsReverse here e = true →
    R.holdsEntry cat everyAlternative joinsReverse here view e →
    R.holdsEntry cat cat.alternatives joinsReverse here view e
  | .group .and children, _, _, _, balanced, all => by
      rw [holdsEntry, holdsAll_iff] at all ⊢
      intro child mem
      exact holdsAll_of_balanced children balanced child mem (all child mem)
  | .group .or children, joinsReverse, here, view, balanced, given => by
      by_cases idle : cat.constrainsEntry joinsReverse here (.group .or children) = false
      · exact holdsEntry_of_idle alternatives_nil _ idle
      · rw [Catalog.constrainsEntry, Bool.not_eq_false, Bool.and_eq_true, Bool.not_eq_true'] at idle
        have long : children.any Filter.isEmpty = false := by
          simpa [Entry.shortCircuits] using idle.1
        simp only [Catalog.balancedEntry, long, idle.2, Bool.false_or, Bool.not_true, Bool.or_false,
          Bool.and_eq_true, List.all_eq_true] at balanced
        rw [holdsEntry, holdsSome_iff] at given ⊢
        rcases given with ⟨child, mem, -, holds⟩ | none
        · refine .inl ⟨child, mem, ?_, holdsAll_of_balanced children balanced.2 child mem holds⟩
          rw [Catalog.alternatives, balanced.1 child mem, Bool.or_true]
        · exact .inr fun child mem => absurd (none child mem) (by simp [everyAlternative])
  | .leaf _ _ _, _, _, _, _, holds => holds
  | .nested path body, joinsReverse, here, view, balanced, holds => by
      rw [holdsEntry] at holds ⊢
      refine along_mono (fun {inside there} ends v => ?_) holds
      simp only [Catalog.balancedEntry, ends] at balanced
      exact holds_of_balanced body balanced

theorem holdsAll_of_balanced : ∀ (children : List (List Entry)) {joinsReverse : Bool}
    {here : Place} {view : View}, cat.balancedAll joinsReverse here children = true →
    ∀ child ∈ children, R.holds cat everyAlternative joinsReverse here view child →
    R.holds cat cat.alternatives joinsReverse here view child
  | [], _, _, _, _ => by simp
  | child :: rest, _, _, _, balanced => by
      rw [Catalog.balancedAll, Bool.and_eq_true] at balanced
      exact List.forall_mem_cons.mpr
        ⟨holds_of_balanced child balanced.1, holdsAll_of_balanced rest balanced.2⟩

end

end Reading

end FilterSql
