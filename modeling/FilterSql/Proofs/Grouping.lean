import FilterSql.Proofs.Conditions
import FilterSql.Proofs.Delegation
import FilterSql.Proofs.Sql.Constants

/-!
Compiled filters have no degenerate groups.

The walk that makes predicates leaves out a combination of filters that constrain nothing and lets
a predicate that is alone in its group stand for itself, so what it makes is `Predicate.Proper` at
every depth, inside sub-selects as well. A test against an empty list is made of a comparison of the
filter by `_in` or `_nin` with an array that holds nothing (`Compile.Made`). So the constants in the
text of a compiled filter come from such comparisons and from nothing else (`Filter.compile_proper`).
-/

namespace FilterSql

/-- What is ensured may be weakened. -/
theorem Step.Ensures.imp {σ α : Type} {m : Step σ α} {I : σ → Prop} {P Q : α → Prop}
    (ensures : m.Ensures I P) (weaker : ∀ a, P a → Q a) : m.Ensures I Q := by
  intro s kept
  obtain ⟨kept, holds⟩ := ensures s kept
  exact ⟨kept, fun a ran => weaker a (holds a ran)⟩

/-! ### Comparisons with nothing -/

namespace Leaf

/-- An array without items, empty arrays aside. -/
def IsNothing (operand : Json) : Prop :=
  ∃ items, operand = .array items ∧ ∀ x ∈ items, x = .array []

/-- A list operand has no values if it is an array that holds nothing, and only then. -/
theorem listValues_eq_nil {localType : LocalType} {operand : Json} :
    listValues localType operand = [] ↔ IsNothing operand := by
  have itemValues_eq_nil (x : Json) : itemValues x = [] ↔ x = .array [] := by
    cases x <;> simp [itemValues]
  cases operand with
  | string s =>
      have some : Text.split ',' s ≠ [] := by simp [Text.split, Text.splitChars_ne_nil]
      simp [listValues, IsNothing, some]
  | array items => simp [listValues, IsNothing, List.flatMap_eq_nil_iff, itemValues_eq_nil]
  | _ => simp [listValues, IsNothing]

theorem distinct_eq_nil {values : List SqlValue} : distinct values = [] ↔ values = [] := by
  cases values with
  | nil => simp [distinct, distinctAfter]
  | cons v rest => simp [distinct, distinctAfter]

/-- A test against an empty list is made by `_in` and `_nin` of operands that hold nothing. -/
theorem emptyLists_of_predicate {column : ColumnRef} {localType : LocalType} {operator : Operator}
    {operand : Json} {p : Predicate} (made : predicate column localType operator operand = .ok p)
    {negated : Bool} (empty : negated ∈ p.emptyLists) :
    operator = (if negated then .notIn else .isIn) ∧ IsNothing operand := by
  cases operator with
  | isIn | notIn =>
      cases made
      rw [Predicate.emptyLists] at empty
      split at empty
      · next none =>
          obtain rfl := List.mem_singleton.mp empty
          exact ⟨rfl, listValues_eq_nil.mp (distinct_eq_nil.mp (List.isEmpty_iff.mp none))⟩
      · cases empty
  | eq | neq => cases operand <;> cases made <;> cases empty
  | between | notBetween =>
      rw [predicate, range] at made
      split at made <;> cases made
      cases empty
  | isEmpty | notEmpty =>
      cases turned : isFalse operand <;> simp only [predicate, turned] at made <;> cases made <;>
        cases empty
  | _ => cases made; cases empty

theorem IsTest.proper {test : ColumnRef → Predicate} (isTest : IsTest test) (c : ColumnRef) :
    (test c).Proper := by
  cases isTest with
  | compare op value => exact .compare c op value
  | like pattern negated insensitive => exact .like c pattern negated insensitive
  | inList values negated => exact .inList c values negated
  | between low high negated => exact .between c low high negated
  | isNull negated => exact .isNull c negated
  | isEmpty =>
      refine .or (Nat.le_refl 2) ?_
      rintro p (_ | ⟨_, _ | ⟨_, ⟨⟩⟩⟩)
      · exact .isNull c false
      · exact .compare c .eq (.text "")
  | isNotEmpty =>
      refine .and (Nat.le_refl 2) ?_
      rintro p (_ | ⟨_, _ | ⟨_, ⟨⟩⟩⟩)
      · exact .isNull c true
      · exact .compare c .neq (.text "")

end Leaf

namespace Predicate

theorem proper_group (op : Connective) {items : List Predicate} (some : items ≠ [])
    (each : ∀ p ∈ items, p.Proper) : (group op items).Proper := by
  match items with
  | [] => exact absurd rfl some
  | [p] => simpa using each
  | p :: q :: rest =>
      cases op with
      | and => exact .and (by simp) each
      | or => exact .or (by simp) each

@[simp] theorem emptyLists_group (op : Connective) (items : List Predicate) :
    (group op items).emptyLists = items.flatMap emptyLists := by
  match items with
  | [] => cases op <;> rfl
  | [p] => simp
  | p :: q :: rest => cases op <;> exact emptyListsAll_eq_flatMap _

theorem emptyLists_inSelect (column : ColumnRef) (s : Select) :
    (inSelect column s).emptyLists = s.predicates.flatMap emptyLists := by
  cases s
  exact emptyListsAll_eq_flatMap _

end Predicate

/-- A comparison by `_in`, or by `_nin` if negated, with an operand that holds nothing. -/
structure Condition.WithNothing (c : Condition) (negated : Bool) : Prop where
  operator : c.operator = if negated then .notIn else .isIn
  operand : Leaf.IsNothing c.operand

namespace Compile

variable {f : Frame} {delegate : Option Delegate} {cs ds : List String → List Condition}
  {ps qs : List Predicate}

/-- Predicates made of a part of a filter, whose comparisons are given by the path in front of it:
they are proper, and their tests against empty lists are comparisons of the part with nothing. -/
def Made (cs : List String → List Condition) (ps : List Predicate) : Prop :=
  ∀ p ∈ ps, p.Proper ∧
    ∀ negated ∈ p.emptyLists, ∀ before, ∃ c ∈ cs before, c.WithNothing negated

theorem made_nil : Made cs [] := nofun

/-- What is made of a part is made of the whole. -/
theorem Made.mono (made : Made cs ps)
    (part : ∀ before, ∃ before', ∀ c ∈ cs before', ∃ d ∈ ds before,
      d.operator = c.operator ∧ d.operand = c.operand) : Made ds ps := by
  intro p mem
  obtain ⟨proper, empty⟩ := made p mem
  refine ⟨proper, fun negated listed before => ?_⟩
  obtain ⟨before', within⟩ := part before
  obtain ⟨c, met, operator, operand⟩ := empty negated listed before'
  obtain ⟨d, met, sameOperator, sameOperand⟩ := within c met
  exact ⟨d, met, sameOperator.trans operator, sameOperand ▸ operand⟩

theorem Made.append (first : Made cs ps) (later : Made ds qs) :
    Made (fun before => cs before ++ ds before) (ps ++ qs) := by
  refine List.forall_mem_append.mpr ⟨first.mono fun before => ⟨before, fun c met => ?_⟩,
    later.mono fun before => ⟨before, fun c met => ?_⟩⟩
  · exact ⟨c, List.mem_append_left _ met, rfl, rfl⟩
  · exact ⟨c, List.mem_append_right _ met, rfl, rfl⟩

/-- Predicates under a connective, if there are any. -/
theorem Made.group (made : Made cs ps) (some : ps ≠ []) (op : Connective) :
    Made cs [Predicate.group op ps] := by
  rintro _ (_ | ⟨_, ⟨⟩⟩)
  refine ⟨Predicate.proper_group op some fun p mem => (made p mem).1, fun negated listed => ?_⟩
  rw [Predicate.emptyLists_group, List.mem_flatMap] at listed
  obtain ⟨p, mem, listed⟩ := listed
  exact (made p mem).2 negated listed

/-- The predicate of a statement, if it has one, asked of another column. -/
theorem Made.inSelect {s : Select} (made : Made cs s.predicates) (single : s.predicates.length ≤ 1)
    (column : ColumnRef) : Made cs [.inSelect column s] := by
  rintro _ (_ | ⟨_, ⟨⟩⟩)
  refine ⟨.inSelect column single fun p mem => (made p mem).1, fun negated listed => ?_⟩
  rw [Predicate.emptyLists_inSelect, List.mem_flatMap] at listed
  obtain ⟨p, mem, listed⟩ := listed
  exact (made p mem).2 negated listed

/-- A reverse hop is handed to a delegate that makes proper predicates of a filter. -/
def Serving (delegate : Option Delegate) : Prop :=
  ∀ (there : Anchor) (r : Relation) (child : Filter),
    (delegated delegate there r child).Ensures (fun _ => True)
      (Made fun before => Filter.conditions before child)

theorem emitLeaf_made {start : String} {there : Anchor} {path : List String} {operator : Operator}
    {operand : Json} (made : f.emitLeaf start there path operator operand = .ok ps) :
    Made (fun before => [⟨before ++ path, operator, operand⟩]) ps := by
  rcases emitLeaf_eq_ok made with ⟨-, rfl⟩ | ⟨column, p, -, compared, rfl⟩
  · exact made_nil
  · rintro _ (_ | ⟨_, ⟨⟩⟩)
    obtain ⟨test, isTest, rfl, -⟩ := Leaf.predicate_isTest compared
    refine ⟨isTest.proper _, fun negated listed before => ⟨_, .head _, ?_⟩⟩
    obtain ⟨named, nothing⟩ := Leaf.emptyLists_of_predicate compared listed
    exact ⟨named, nothing⟩

theorem emitUnresolved_made {start : String} {path : List String} {segment : String}
    (made : f.emitUnresolved start path segment = .ok ps) : Made cs ps := by
  unfold Frame.emitUnresolved at made
  split at made <;> cases made
  exact made_nil

mutual

/-- The predicates that a walk makes of a filter, whatever was joined before. -/
theorem emit_made (f : Frame) (serving : Serving delegate) :
    ∀ (entries : List Entry) (here : Anchor), (emit f delegate here entries).Ensures
      (fun _ => True) (Made fun before => Filter.conditions before entries)
  | [], _ => .pure made_nil
  | e :: rest, here =>
      .bind (emitEntry_made f serving e here) fun _ first =>
        .bind (emit_made f serving rest here) fun _ later => .pure (first.append later)

theorem emitEntry_made (f : Frame) (serving : Serving delegate) :
    ∀ (e : Entry) (here : Anchor), (emitEntry f delegate here e).Ensures
      (fun _ => True) (Made fun before => Filter.conditionsEntry before e)
  | .group op children, here => by
      simp only [emitEntry, Filter.conditionsEntry]
      split
      · exact .pure made_nil
      · refine .bind (emitAll_made f serving children here) fun items made => .pure ?_
        split
        · exact made_nil
        · next some => exact made.group (by simpa using some) op
  | .leaf path operator operand, here => by
      rw [emitEntry_leaf]
      refine follow_ensures (kept_true f) fun names => ?_
      generalize (f.catalog.course f.scope.joinsReverse 0 (.root here.collection)
        path.dropLast).resolution names = led
      cases led with
      | reached there => exact .ofExcept fun ps made => emitLeaf_made made
      | deferred there r consumed =>
          refine (serving there r _).imp fun ps made => made.mono fun before => ⟨before, ?_⟩
          rintro _ (_ | ⟨_, ⟨⟩⟩)
          exact ⟨_, .head _, rfl, rfl⟩
      | unresolved there segment => exact .ofExcept fun ps made => emitUnresolved_made made
  | .nested path body, here => by
      rw [emitEntry_nested]
      refine follow_ensures (kept_true f) fun names => ?_
      generalize (f.catalog.course f.scope.joinsReverse 0 (.root here.collection)
        path).resolution names = led
      cases led with
      | reached there =>
          refine (emit_made f serving body there).imp fun ps made => made.mono fun before => ?_
          exact ⟨before ++ path, fun c met => ⟨c, met, rfl, rfl⟩⟩
      | deferred there r consumed =>
          -- What is left of the path stands in front of the comparisons again.
          refine (serving there r _).imp fun ps made => made.mono fun before => ?_
          refine ⟨before ++ path.take consumed, fun c met => ⟨c, ?_, rfl, rfl⟩⟩
          have whole : before ++ path = before ++ path.take consumed ++ path.drop consumed := by
            rw [List.append_assoc, List.take_append_drop]
          rw [Filter.conditionsEntry, whole]
          split at met
          · next none => rwa [List.isEmpty_iff.mp none, List.append_nil]
          · simpa [Filter.conditions, Filter.conditionsEntry] using met
      | unresolved there segment => exact .ofExcept fun ps made => emitUnresolved_made made

theorem emitAll_made (f : Frame) (serving : Serving delegate) :
    ∀ (children : List (List Entry)) (here : Anchor), (emitAll f delegate here children).Ensures
      (fun _ => True) (Made fun before => Filter.conditionsAll before children)
  | [], _ => .pure made_nil
  | child :: rest, here => by
      refine .bind (emit_made f serving child here) fun ps first =>
        .bind (emitAll_made f serving rest here) fun items later => .pure ?_
      split
      · exact made_nil.append later
      · next some => exact (first.group (by simpa using some) .and).append later

end

/-- A compiled filter has the conjunction of the predicates that the walk makes. -/
theorem inScope_made (serving : Serving delegate) {collection : String} {filter : Filter}
    {t t' : AliasTable} {c : CompiledFilter}
    (ran : inScope f delegate collection filter t = (.ok c, t')) :
    Made (fun before => Filter.conditions before filter) c.predicate.toList := by
  have walked := emit_made f serving filter (.root collection)
    (discover f (.root collection) filter ⟨t, []⟩) trivial
  simp only [inScope] at ran
  split at ran
  · next ps w emitted =>
      cases ran
      have made := walked.2 ps (by rw [emitted])
      rw [conjunction]
      split
      · exact made_nil
      · next some => exact made.group (by simpa using some) .and
  · cases ran

theorem serving_none : Serving none := fun _ _ _ => .pure made_nil

end Compile

namespace Filter

variable {cat : Catalog} {policy : PathPolicy} {collection : String} {filter : Filter}
  {t t' : AliasTable} {c : CompiledFilter}

theorem compileInner_made (ran : compileInner cat policy collection filter t = (.ok c, t')) :
    Compile.Made (fun before => conditions before filter) c.predicate.toList := by
  obtain ⟨_, t₁, required, more⟩ := Step.bind_eq_ok ran
  obtain ⟨id, t₂, opened, ran⟩ := Step.bind_eq_ok more
  exact Compile.inScope_made Compile.serving_none ran

/-- A sub-select has the predicate of its filter, if there is one. -/
theorem membership_made {there : Anchor} {r : Relation} {p : Predicate}
    (ran : membership cat policy there r filter t = (.ok p, t')) :
    Compile.Made (fun before => conditions before filter) [p] := by
  obtain ⟨s, t₁, selected, gave⟩ := Step.bind_eq_ok ran
  cases gave
  obtain ⟨c, t₂, inner, gave⟩ := Step.bind_eq_ok selected
  cases gave
  refine (compileInner_made inner).inSelect ?_ _
  cases c.predicate <;> simp

theorem serving_membership : Compile.Serving (some (membership cat policy)) := by
  intro there r child
  have each : (membership cat policy there r child).Ensures (fun _ => True)
      fun p => Compile.Made (fun before => conditions before child) [p] :=
    fun t _ => ⟨trivial, fun p ran => membership_made (Prod.ext ran rfl)⟩
  exact .bind (each.within fun _ _ => rfl) fun p made => .pure made

theorem compile_made {subQuery : Bool}
    (ran : filter.compile cat policy subQuery collection t = (.ok c, t')) :
    Compile.Made (fun before => conditions before filter) c.predicate.toList := by
  cases subQuery with
  | true => exact compileInner_made ran
  | false =>
      obtain ⟨_, t₁, required, ran⟩ := Step.bind_eq_ok ran
      exact Compile.inScope_made serving_membership ran

/-- The predicate of a compiled filter has no degenerate group at any depth, and no statement in it
has more than one predicate. The constants in its text are its tests against empty lists, each of
which is a comparison of the filter by `_in` or `_nin` with nothing; a reader of the text finds the
same ones, where identifiers are read back as they are. -/
theorem compile_proper {subQuery : Bool}
    (compiled : filter.compile cat policy subQuery collection t = (.ok c, t')) :
    ∀ p ∈ c.predicate, p.Proper ∧
      (∀ d, (p.fragment d).constants = p.emptyLists ∧
        (d.Delimits p.identifiers → ∀ params,
          (lex d (p.render d params).1.toList).map Token.constants = some p.emptyLists)) ∧
      ∀ negated ∈ p.emptyLists, ∃ cond ∈ conditions [] filter, cond.WithNothing negated := by
  intro p mem
  obtain ⟨proper, empty⟩ := compile_made compiled p (Option.mem_toList.mpr mem)
  refine ⟨proper, fun d => ⟨proper.constants_fragment d, proper.constants_render d⟩, ?_⟩
  exact fun negated listed => empty negated listed []

/-- Authors without a name who have a book with a title outside an empty list, or one with a number
above nine and a title in an empty list. -/
def sparse : Filter :=
  [ .nested ["books"]
      [.group .or
        [ [.leaf ["title"] .notIn (.array [.array []])],
          [.leaf ["id"] .gt (.ofInt 9), .leaf ["title"] .isIn (.array [])] ]],
    .group .and [[.group .or []], [.leaf ["name"] .isEmpty .null]] ]

/-- The empty disjunction is left out, and the lists are the only constants. -/
theorem compile_proper_sparse :
    ∃ c t' p, sparse.compile .library .reject false "authors"
        (.fresh .sequential (fun _ => 0) Catalog.library.names) = (.ok c, t') ∧
      c.predicate = some p ∧ p.emptyLists = [true, false] ∧ p.Proper ∧
      (∀ d, (p.fragment d).constants = p.emptyLists) ∧
      (lex .sqlite (p.render .sqlite []).1.toList).map Token.constants = some p.emptyLists ∧
      ∃ cond ∈ conditions [] sparse, cond.WithNothing true := by
  have found : (sparse.compile .library .reject false "authors"
      (.fresh .sequential (fun _ => 0) Catalog.library.names)).1.toOption.bind
        (fun c => c.predicate.map Predicate.emptyLists) = some [true, false] := by
    decide +kernel
  rcases compiled : sparse.compile .library .reject false "authors"
      (.fresh .sequential (fun _ => 0) Catalog.library.names) with ⟨_ | c, t'⟩
  · simp [compiled, Except.toOption] at found
  · rw [compiled] at found
    obtain ⟨p, mem, lists⟩ := Option.map_eq_some_iff.mp found
    obtain ⟨proper, constants, empty⟩ := compile_proper compiled p mem
    exact ⟨c, t', p, rfl, mem, lists, proper, fun d => (constants d).1,
      (constants .sqlite).2 (fun ansi => absurd ansi (by decide)) [], empty true (by simp [lists])⟩

end Filter

end FilterSql
