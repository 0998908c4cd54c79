import FilterSql.Proofs.Database

/-!
Operators that ask for opposites.

Six pairs of operators ask for a thing and for its opposite (`Operator.Opposed`). Both operators of a
pair are refused for the same operands, and their predicates are each other's negation
(`Leaf.predicate_opposed`), though the negation is made in four ways: by a flag, by another
comparison, by De Morgan's law where null counts as empty, and by the operand `false`. With three
truth values this keeps the two from being true together (`Engine.truth_opposite`). One of them is
true unless the condition is unknown, which a comparison with something other than null never is of
a column that is not null (`Engine.truth_ne_unknown`). `Leaf.predicate_opposites` puts the parts
together.
-/

namespace FilterSql

/-- The operators that ask for a thing, each with the one that asks for the opposite. -/
inductive Operator.Opposed : Operator → Operator → Prop where
  | equality : Opposed .eq .neq
  | containment : Opposed .contains .notContains
  | membership : Opposed .isIn .notIn
  | nullness : Opposed .isNull .notNull
  | emptiness : Opposed .isEmpty .notEmpty
  | range : Opposed .between .notBetween

/-- Conditions on a column that are each other's negation. -/
inductive Predicate.Opposite : Predicate → Predicate → Prop where
  | compare (column : ColumnRef) (value : SqlValue) :
      Opposite (.compare column .eq value) (.compare column .neq value)
  | like (column : ColumnRef) (pattern : String) (negated caseInsensitive : Bool) :
      Opposite (.like column pattern negated caseInsensitive)
        (.like column pattern (!negated) caseInsensitive)
  | inList (column : ColumnRef) (values : List SqlValue) (negated : Bool) :
      Opposite (.inList column values negated) (.inList column values (!negated))
  | between (column : ColumnRef) (low high : SqlValue) (negated : Bool) :
      Opposite (.between column low high negated) (.between column low high (!negated))
  | isNull (column : ColumnRef) (negated : Bool) :
      Opposite (.isNull column negated) (.isNull column (!negated))
  | isEmpty (column : ColumnRef) :
      Opposite (Predicate.isEmpty column) (Predicate.isNotEmpty column)
  | isNotEmpty (column : ColumnRef) :
      Opposite (Predicate.isNotEmpty column) (Predicate.isEmpty column)

namespace Leaf

/-- The values that an operator compares a column with. The tests for null and for emptiness only
look whether their operand is `false`. -/
def operands (localType : LocalType) (operator : Operator) (operand : Json) : List SqlValue :=
  match operator with
  | .isIn | .notIn => distinct (listValues localType operand)
  | .between | .notBetween => listValues localType operand
  | .contains | .notContains => [.text (Like.containing (SqlValue.ofJson operand).toText)]
  | .isNull | .notNull | .isEmpty | .notEmpty => []
  | .eq | .neq | .gt | .gte | .lt | .lte => [SqlValue.ofJson operand]

/-- The comparisons that hold or fail even of null. -/
inductive Settled (localType : LocalType) : Operator → Json → Prop where
  | nullness (operand : Json) : Settled localType .isNull operand
  | emptiness (operand : Json) : Settled localType .isEmpty operand
  | equalsNull : Settled localType .eq .null
  | amongNone {operand : Json} (none : operands localType .isIn operand = []) :
      Settled localType .isIn operand

/-- Both operators of a pair are refused for the number of bounds, or they make conditions that are
each other's negation. -/
theorem predicate_opposed {asking denying : Operator} (opposed : asking.Opposed denying)
    (column : ColumnRef) (localType : LocalType) (operand : Json) :
    (∃ n, predicate column localType asking operand =
        .error (.invalidOperand asking column.column (.bounds n)) ∧
      predicate column localType denying operand =
        .error (.invalidOperand denying column.column (.bounds n))) ∨
    ∃ p q, predicate column localType asking operand = .ok p ∧
      predicate column localType denying operand = .ok q ∧ p.Opposite q := by
  cases opposed with
  | equality =>
      right
      cases operand with
      | null => exact ⟨_, _, rfl, rfl, .isNull column false⟩
      | _ => exact ⟨_, _, rfl, rfl, .compare column _⟩
  | containment => exact .inr ⟨_, _, rfl, rfl, .like column _ false false⟩
  | membership => exact .inr ⟨_, _, rfl, rfl, .inList column _ false⟩
  | nullness => exact .inr ⟨_, _, rfl, rfl, .isNull column (isFalse operand)⟩
  | emptiness =>
      right
      cases turned : isFalse operand with
      | false =>
          exact ⟨_, _, by simp [predicate, turned], by simp [predicate, turned], .isEmpty column⟩
      | true =>
          exact ⟨_, _, by simp [predicate, turned], by simp [predicate, turned], .isNotEmpty column⟩
  | range =>
      simp only [predicate, range]
      split
      · next low high _ => exact .inr ⟨_, _, rfl, rfl, .between column low high false⟩
      · exact .inl ⟨_, rfl, rfl⟩

end Leaf

/-! ### Negation with three truth values -/

namespace Truth

@[simp] theorem turned_not (negated : Bool) (t : Truth) :
    t.turned (!negated) = (t.turned negated).turned true := by
  cases negated <;> cases t <;> rfl

@[simp] theorem turned_eq_unknown {negated : Bool} {t : Truth} :
    t.turned negated = .unknown ↔ t = .unknown := by
  cases negated <;> cases t <;> simp [turned]

@[simp] theorem ofBool_ne_unknown (b : Bool) : ofBool b ≠ .unknown := by
  cases b <;> simp [ofBool]

/-- What is denied is not true, and either it or its negation is unless it is unknown. -/
theorem xor_turned {t : Truth} (known : t ≠ .unknown) : Xor (t = .yes) (t.turned true = .yes) := by
  cases t <;> simp_all [Xor, turned]

theorem not_and_turned (t : Truth) : ¬ (t = .yes ∧ t.turned true = .yes) := by
  cases t <;> simp [turned]

theorem both_ne_unknown {s t : Truth} (first : s ≠ .unknown) (second : t ≠ .unknown) :
    s.both t ≠ .unknown := by
  cases s <;> cases t <;> simp_all [both]

/-- A disjunction of known parts is known. -/
theorem any_ne_unknown {ts : List Truth} (known : ∀ t ∈ ts, t ≠ .unknown) : any ts ≠ .unknown := by
  induction ts with
  | nil => simp [any]
  | cons t rest ih =>
      rw [List.forall_mem_cons] at known
      have later := ih known.2
      rw [any, List.foldr_cons, ← any]
      cases t <;> cases rests : any rest <;> simp_all [either]

end Truth

namespace Engine

variable {E : Engine} {db : E.Database} {env : E.Env}

/-- Whether null is the only parameter that is passed as null. -/
def PassesValues (E : Engine) : Prop := ∀ v, E.ofSql v = none → v = .null

theorem compare_neq (a b : E.Cell) :
    compare (E := E) .neq a b = (compare (E := E) .eq a b).turned true := by
  cases a with
  | none => rfl
  | some x =>
      cases b with
      | none => rfl
      | some y => cases order : E.order x y <;> simp [compare, Comparison.accepts, order] <;> rfl

/-- A value compared with a value is in the relation or not. -/
theorem compare_ne_unknown {op : Comparison} {a b : E.Cell} (left : a ≠ none) (right : b ≠ none) :
    compare (E := E) op a b ≠ .unknown := by
  obtain ⟨x, rfl⟩ := Option.ne_none_iff_exists'.mp left
  obtain ⟨y, rfl⟩ := Option.ne_none_iff_exists'.mp right
  exact Truth.ofBool_ne_unknown _

/-- Neither null nor empty is the negation of null or empty, by De Morgan's law. -/
theorem truth_isNotEmpty (column : ColumnRef) :
    truth db env (Predicate.isNotEmpty column) =
      (truth db env (Predicate.isEmpty column)).turned true := by
  simp only [Predicate.isNotEmpty, Predicate.isEmpty, truth, truths, compare_neq, Truth.all,
    Truth.any, List.foldr_cons, List.foldr_nil]
  generalize compare (E := E) .eq (env.cell column) (E.ofSql (.text "")) = t
  cases env.cell column <;> cases t <;> rfl

/-- Conditions that are each other's negation. -/
theorem truth_opposite {p q : Predicate} (opposite : p.Opposite q) :
    truth db env q = (truth db env p).turned true := by
  cases opposite with
  | compare column value => exact compare_neq _ _
  | like column pattern negated insensitive =>
      cases cell : env.cell column with
      | none => simp [truth, cell, Truth.turned]
      | some x => simp [truth, cell]
  | inList column values negated => simp [truth]
  | between column low high negated => simp [truth]
  | isNull column negated => simp [truth]
  | isEmpty column => exact truth_isNotEmpty column
  | isNotEmpty column =>
      rw [truth_isNotEmpty]
      cases truth db env (Predicate.isEmpty column) <;> rfl

/-- Whether a column is null or empty is always known. -/
theorem truth_isEmpty_ne_unknown (passes : E.PassesValues) (column : ColumnRef) :
    truth db env (Predicate.isEmpty column) ≠ .unknown := by
  simp only [Predicate.isEmpty, truth, truths, Truth.any, List.foldr_cons, List.foldr_nil]
  have empty : E.ofSql (.text "") ≠ none := by
    intro gone
    cases passes _ gone
  cases cell : env.cell column with
  | none => simp [Truth.ofBool, Truth.turned, Truth.either]
  | some x =>
      have known : compare (E := E) .eq (some x) (E.ofSql (.text "")) ≠ .unknown :=
        compare_ne_unknown (by simp) empty
      generalize compare (E := E) .eq (some x) (E.ofSql (.text "")) = t at known
      cases t <;> simp_all [Truth.ofBool, Truth.turned, Truth.either]

/-- A column that is not null is among values or is not, none of which is null. -/
theorem truth_inList_ne_unknown (passes : E.PassesValues) {column : ColumnRef}
    (there : env.cell column ≠ none) {values : List SqlValue} (proper : .null ∉ values)
    (negated : Bool) : truth db env (.inList column values negated) ≠ .unknown := by
  rw [truth, ne_eq, Truth.turned_eq_unknown]
  refine Truth.any_ne_unknown ?_
  intro t made
  obtain ⟨v, mem, rfl⟩ := List.mem_map.mp made
  exact compare_ne_unknown there fun gone => proper (passes v gone ▸ mem)

/-- A column that is not null lies between two values or does not, neither of which is null. -/
theorem truth_between_ne_unknown (passes : E.PassesValues) {column : ColumnRef}
    (there : env.cell column ≠ none) {low high : SqlValue} (proper : .null ∉ [low, high])
    (negated : Bool) : truth db env (.between column low high negated) ≠ .unknown := by
  simp only [List.mem_cons, List.not_mem_nil, or_false, not_or] at proper
  rw [truth, ne_eq, Truth.turned_eq_unknown]
  refine Truth.both_ne_unknown ?_ ?_
  · exact compare_ne_unknown there fun gone => proper.1 (passes low gone).symm
  · exact compare_ne_unknown there fun gone => proper.2 (passes high gone).symm

/-- A comparison is known of a column that is not null if it compares with nothing null, and some
comparisons are known of every column. -/
theorem truth_ne_unknown (passes : E.PassesValues) {asking denying : Operator}
    (opposed : asking.Opposed denying) {column : ColumnRef} {localType : LocalType} {operand : Json}
    {p : Predicate} (made : Leaf.predicate column localType asking operand = .ok p)
    (known : (env.cell column ≠ none ∧ .null ∉ Leaf.operands localType asking operand) ∨
      Leaf.Settled localType asking operand) :
    truth db env p ≠ .unknown := by
  cases opposed with
  | equality =>
      by_cases absent : operand = .null
      · subst absent
        cases made
        simp [truth]
      · rcases known with ⟨there, proper⟩ | settled
        · obtain rfl : Leaf.compare column .eq operand = p := by
            cases operand <;> first | exact absurd rfl absent | exact Except.ok.inj made
          refine compare_ne_unknown there fun gone => proper ?_
          simp [Leaf.operands, passes _ gone]
        · cases settled
          exact absurd rfl absent
  | containment =>
      cases made
      rcases known with ⟨there, -⟩ | settled
      · obtain ⟨x, cell⟩ := Option.ne_none_iff_exists'.mp there
        simp [Leaf.containment, truth, cell]
      · cases settled
  | membership =>
      cases made
      rcases known with ⟨there, proper⟩ | settled
      · exact truth_inList_ne_unknown passes there proper false
      · cases settled with
        | amongNone none =>
            rw [Leaf.operands] at none
            simp [truth, none, Truth.any]
  | nullness =>
      cases made
      simp [truth]
  | emptiness =>
      cases turned : Leaf.isFalse operand with
      | false =>
          simp only [Leaf.predicate, turned] at made
          cases made
          exact truth_isEmpty_ne_unknown passes column
      | true =>
          simp only [Leaf.predicate, turned] at made
          cases made
          rw [if_true, truth_isNotEmpty, ne_eq, Truth.turned_eq_unknown]
          exact truth_isEmpty_ne_unknown passes column
  | range =>
      simp only [Leaf.predicate, Leaf.range] at made
      split at made
      · next low high bounds =>
          cases made
          rcases known with ⟨there, proper⟩ | settled
          · rw [Leaf.operands, bounds] at proper
            exact truth_between_ne_unknown passes there proper false
          · cases settled
      · cases made

end Engine

/-- The operators of a pair are refused for the same operands. Otherwise they are never both true of
a column, and exactly one of them is true if the column is not null and none of the values that it
is compared with is; where the operator tests for null or for emptiness, compares with null, or looks
for a value among none, exactly one is true of every column. The operand `false` makes of a test for
null or for emptiness what the other operator makes of any other operand. -/
theorem Leaf.predicate_opposites {asking denying : Operator} (opposed : asking.Opposed denying)
    (column : ColumnRef) (localType : LocalType) (operand : Json) :
    ((∃ e, predicate column localType asking operand = .error e) ↔
      ∃ e, predicate column localType denying operand = .error e) ∧
    (∀ p q, predicate column localType asking operand = .ok p →
      predicate column localType denying operand = .ok q →
      ∀ (E : Engine) (db : E.Database) (env : E.Env),
        ¬ (Engine.truth db env p = .yes ∧ Engine.truth db env q = .yes) ∧
        (E.PassesValues →
          (env.cell column ≠ none ∧ .null ∉ operands localType asking operand) ∨
            Settled localType asking operand →
          Xor (Engine.truth db env p = .yes) (Engine.truth db env q = .yes))) ∧
    (asking = .isNull ∨ asking = .isEmpty → ∀ other, other ≠ .bool false →
      predicate column localType asking (.bool false) = predicate column localType denying other ∧
      predicate column localType denying (.bool false) =
        predicate column localType asking other) := by
  have outcomes := predicate_opposed opposed column localType operand
  refine ⟨?_, ?_, ?_⟩
  · rcases outcomes with ⟨n, first, second⟩ | ⟨p, q, first, second, -⟩
    · simp [first, second]
    · simp [first, second]
  · intro p q madeP madeQ E db env
    rcases outcomes with ⟨n, failed, -⟩ | ⟨p', q', first, second, opposite⟩
    · rw [failed] at madeP
      cases madeP
    · obtain rfl := Except.ok.inj (first.symm.trans madeP)
      obtain rfl := Except.ok.inj (second.symm.trans madeQ)
      rw [Engine.truth_opposite opposite]
      refine ⟨Truth.not_and_turned _, fun passes known => ?_⟩
      exact Truth.xor_turned (Engine.truth_ne_unknown passes opposed first known)
  · intro test other proper
    have plain : isFalse other = false := by
      unfold isFalse
      split
      · exact absurd rfl proper
      · rfl
    have turning : isFalse (.bool false) = true := rfl
    rcases test with rfl | rfl <;> cases opposed <;> simp [predicate, plain, turning]

theorem Engine.passesValues_written : Engine.written.PassesValues := by
  intro v gone
  cases v with
  | null => rfl
  | _ => cases gone

/-- A name that stands behind the names from Ann to Bob is not in their range, which the one operator
says and the other denies. -/
theorem Leaf.predicate_opposites_range :
    Operator.Opposed .between .notBetween ∧ Operator.Opposed .isEmpty .notEmpty ∧
    (∃ p q, predicate ⟨"authors", "name"⟩ .text .between (.string "Ann,Bob") = .ok p ∧
      predicate ⟨"authors", "name"⟩ .text .notBetween (.string "Ann,Bob") = .ok q ∧
      Engine.written.PassesValues ∧
      .null ∉ operands .text .between (.string "Ann,Bob") ∧
      ∀ (db : Engine.written.Database) (env : Engine.written.Env),
        env.cell ⟨"authors", "name"⟩ = some "Cid" →
        Xor (Engine.truth db env p = .yes) (Engine.truth db env q = .yes)) ∧
    predicate ⟨"authors", "name"⟩ .text .isEmpty (.bool false) =
      predicate ⟨"authors", "name"⟩ .text .notEmpty .null := by
  have proper : .null ∉ operands .text .between (.string "Ann,Bob") := by decide
  refine ⟨.range, .emptiness, ⟨_, _, rfl, rfl, Engine.passesValues_written, proper, ?_⟩, ?_⟩
  · intro db env cell
    have among := (predicate_opposites .range ⟨"authors", "name"⟩ .text (.string "Ann,Bob")).2.1
    refine (among _ _ rfl rfl Engine.written db env).2 Engine.passesValues_written ?_
    exact .inl ⟨by rw [cell]; exact Option.some_ne_none _, proper⟩
  · have turning := (predicate_opposites .emptiness ⟨"authors", "name"⟩ .text .null).2.2
    exact (turning (.inr rfl) .null nofun).1

end FilterSql
