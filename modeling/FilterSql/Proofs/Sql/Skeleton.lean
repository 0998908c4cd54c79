import FilterSql.Proofs.Sql.Placeholders

/-!
The text of a statement does not depend on its operands.

The skeleton of a fragment is its text with the places of the operands, and the SQL text is read off
it (`Fragment.Congruent.sql_eq`). Values that are passed as parameters leave nothing else behind, so
statements that differ only in such values and in patterns (`Select.Revalued`) have one skeleton in
each dialect, and with it one text (`Select.Revalued.sameText`).
-/

namespace FilterSql

/-! ### Values and patterns that differ -/

/-- Values that may stand for one another in a text: equal ones, or any two that are passed as
parameters. -/
inductive SqlValue.Exchanges : SqlValue → SqlValue → Prop where
  | same (v : SqlValue) : Exchanges v v
  | passed {v w : SqlValue} (first : v.isInline = false) (second : w.isInline = false) :
      Exchanges v w

mutual

/-- Conditions of the same form, on the same columns, with values that may stand for one another and
with any patterns. -/
inductive Predicate.Revalued : Predicate → Predicate → Prop where
  | and {ps qs : List Predicate} (items : List.Forall₂ Predicate.Revalued ps qs) :
      Predicate.Revalued (.and ps) (.and qs)
  | or {ps qs : List Predicate} (items : List.Forall₂ Predicate.Revalued ps qs) :
      Predicate.Revalued (.or ps) (.or qs)
  | compare (column : ColumnRef) (op : Comparison) {v w : SqlValue} (value : v.Exchanges w) :
      Predicate.Revalued (.compare column op v) (.compare column op w)
  | like (column : ColumnRef) (pattern other : String) (negated caseInsensitive : Bool) :
      Predicate.Revalued (.like column pattern negated caseInsensitive)
        (.like column other negated caseInsensitive)
  | inList (column : ColumnRef) {vs ws : List SqlValue} (negated : Bool)
      (values : List.Forall₂ SqlValue.Exchanges vs ws) :
      Predicate.Revalued (.inList column vs negated) (.inList column ws negated)
  | between (column : ColumnRef) {low low' high high' : SqlValue} (negated : Bool)
      (lower : low.Exchanges low') (upper : high.Exchanges high') :
      Predicate.Revalued (.between column low high negated) (.between column low' high' negated)
  | isNull (column : ColumnRef) (negated : Bool) :
      Predicate.Revalued (.isNull column negated) (.isNull column negated)
  | inSelect (column : ColumnRef) {s t : SelectOf Predicate} (select : Select.Revalued s t) :
      Predicate.Revalued (.inSelect column s) (.inSelect column t)

/-- Statements that differ only in the values and patterns of their conditions. -/
inductive Select.Revalued : SelectOf Predicate → SelectOf Predicate → Prop where
  | mk (collection : String) (columns : List String) (joins : List Join) {ps qs : List Predicate}
      (predicates : List.Forall₂ Predicate.Revalued ps qs) (orderBy : List OrderEntry)
      (limit offset : Option Nat) :
      Select.Revalued ⟨collection, columns, joins, ps, orderBy, limit, offset⟩
        ⟨collection, columns, joins, qs, orderBy, limit, offset⟩

end

theorem SqlValue.Exchanges.refl_all (vs : List SqlValue) :
    List.Forall₂ SqlValue.Exchanges vs vs := List.forall₂_same.mpr fun v _ => .same v

mutual

/-- A condition differs from itself in no value. -/
theorem Predicate.Revalued.refl : ∀ p : Predicate, p.Revalued p
  | .and items => .and (Predicate.Revalued.refl_all items)
  | .or items => .or (Predicate.Revalued.refl_all items)
  | .compare column op v => .compare column op (.same v)
  | .like column pattern negated caseInsensitive =>
      .like column pattern pattern negated caseInsensitive
  | .inList column vs negated => .inList column negated (SqlValue.Exchanges.refl_all vs)
  | .between column low high negated => .between column negated (.same low) (.same high)
  | .isNull column negated => .isNull column negated
  | .inSelect column s => .inSelect column (Select.Revalued.refl s)

theorem Predicate.Revalued.refl_all : ∀ ps : List Predicate,
    List.Forall₂ Predicate.Revalued ps ps
  | [] => .nil
  | p :: rest => .cons (Predicate.Revalued.refl p) (Predicate.Revalued.refl_all rest)

theorem Select.Revalued.refl : ∀ s : SelectOf Predicate, Select.Revalued s s
  | ⟨collection, columns, joins, predicates, orderBy, limit, offset⟩ =>
      .mk collection columns joins (Predicate.Revalued.refl_all predicates) orderBy limit offset

end

/-! ### Skeletons -/

namespace Fragment

/-- A fragment with its operands taken out of their places. -/
def skeleton (f : Fragment) : List (Option String) :=
  f.map fun
    | .text s => some s
    | .operand _ => none

/-- Fragments with the same texts, and with operands in the same places. -/
abbrev Congruent (f g : Fragment) : Prop := skeleton f = skeleton g

@[simp] theorem skeleton_append (f g : Fragment) : skeleton (f ++ g) = skeleton f ++ skeleton g :=
  List.map_append

@[simp] theorem skeleton_text (s : String) (f : Fragment) :
    skeleton (.text s :: f) = some s :: skeleton f := rfl

/-- The text is read off the skeleton. -/
theorem Congruent.sql_eq {d : Dialect} {f g : Fragment} (congruent : f.Congruent g) (bound : Nat) :
    f.sql d bound = g.sql d bound := by
  induction f generalizing g bound with
  | nil =>
      obtain rfl : g = [] := List.map_eq_nil_iff.mp congruent.symm
      rfl
  | cons piece f ih =>
      obtain ⟨other, rest, rfl, head, tail⟩ := List.map_eq_cons_iff.mp congruent.symm
      cases piece <;> cases other <;> cases head <;> rw [sql, sql, ih tail.symm]

variable {d : Dialect}

theorem congruent_ofValue {v w : SqlValue} (exchanges : v.Exchanges w) :
    Congruent (ofValue d v) (ofValue d w) := by
  cases exchanges with
  | same => rfl
  | passed first second =>
      have passed {u : SqlValue} (bound : u.isInline = false) :
          skeleton (ofValue d u) = [none] := by
        cases u <;> first | rfl | cases bound
      rw [Congruent, passed first, passed second]

section Lists

variable {fs gs : List Fragment} (congruent : List.Forall₂ Congruent fs gs)

include congruent

theorem congruent_joinWith (sep : String) : Congruent (joinWith sep fs) (joinWith sep gs) := by
  induction congruent with
  | nil => rfl
  | cons first later ih =>
      cases later with
      | nil => exact first
      | cons second later =>
          simp only [joinWith, Congruent, skeleton_append, skeleton_text, first, ih]

theorem congruent_group (op : Connective) : Congruent (group op fs) (group op gs) := by
  have joined := congruent_joinWith congruent (" " ++ op.keyword ++ " ")
  cases congruent with
  | nil => rfl
  | cons first later =>
      cases later with
      | nil => exact first
      | cons second later =>
          simp only [group, List.cons_append, skeleton_text, skeleton_append, Congruent, joined]

/-- Statements whose conditions are rendered alike. -/
theorem congruent_select (s : SelectOf Fragment) :
    Congruent (select d { s with predicates := fs }) (select d { s with predicates := gs }) := by
  have joined := congruent_joinWith congruent " AND "
  cases congruent with
  | nil => rfl
  | cons first later =>
      simp only [select, Congruent, List.isEmpty_cons, Bool.false_eq_true, if_false,
        List.cons_append, skeleton_text, skeleton_append, joined]

end Lists

theorem congruent_membership (column : ColumnRef) (negated : Bool) {vs ws : List SqlValue}
    (values : List.Forall₂ SqlValue.Exchanges vs ws) :
    Congruent (membership d column vs negated) (membership d column ws negated) := by
  have each : List.Forall₂ Congruent (vs.map (ofValue d)) (ws.map (ofValue d)) :=
    List.rel_map (fun _ _ exchanges => congruent_ofValue exchanges) values
  cases values with
  | nil => rfl
  | cons first later =>
      simp only [membership, Congruent, List.isEmpty_cons, Bool.false_eq_true, if_false,
        List.cons_append, skeleton_text, skeleton_append, congruent_joinWith each ", "]

end Fragment

/-! ### Statements -/

variable {d : Dialect}

mutual

/-- Conditions that differ in their values are rendered alike. -/
theorem Predicate.Revalued.congruent : ∀ {p q : Predicate}, p.Revalued q →
    Fragment.Congruent (p.fragment d) (q.fragment d)
  | .and _, _, .and items => Fragment.congruent_group (congruent_predicates items) .and
  | .or _, _, .or items => Fragment.congruent_group (congruent_predicates items) .or
  | .compare _ _ _, _, .compare _ _ value =>
      congrArg (some _ :: ·) (Fragment.congruent_ofValue value)
  | .like _ _ _ _, _, .like _ _ _ _ _ => rfl
  | .inList _ _ _, _, .inList column negated values =>
      Fragment.congruent_membership column negated values
  | .between _ _ _ _, _, .between _ _ lower upper => by
      simp only [Predicate.fragment, Fragment.Congruent, List.cons_append, Fragment.skeleton_text,
        Fragment.skeleton_append, Fragment.congruent_ofValue lower,
        Fragment.congruent_ofValue upper]
  | .isNull _ _, _, .isNull _ _ => rfl
  | .inSelect _ _, _, .inSelect _ select => by
      simp only [Predicate.fragment, Fragment.Congruent, List.cons_append, Fragment.skeleton_text,
        Fragment.skeleton_append, select.congruent]

theorem congruent_predicates : ∀ {ps qs : List Predicate},
    List.Forall₂ Predicate.Revalued ps qs →
    List.Forall₂ Fragment.Congruent (predicateFragments d ps) (predicateFragments d qs)
  | [], _, .nil => .nil
  | _ :: _, _, .cons first later => .cons first.congruent (congruent_predicates later)

/-- Statements that differ in their values are rendered alike. -/
theorem Select.Revalued.congruent : ∀ {s t : SelectOf Predicate}, Select.Revalued s t →
    Fragment.Congruent (selectFragment d s) (selectFragment d t)
  | ⟨_, _, _, _, _, _, _⟩, _, .mk collection columns joins predicates orderBy limit offset =>
      Fragment.congruent_select (congruent_predicates predicates)
        ⟨collection, columns, joins, [], orderBy, limit, offset⟩

end

/-- Statements with the same text in each dialect, after any parameters that are as many. -/
def Select.SameText (s t : Select) : Prop :=
  ∀ (d : Dialect) (params others : List SqlValue), params.length = others.length →
    (s.render d params).1 = (t.render d others).1

/-- Statements that differ in their values have the same text. -/
theorem Select.Revalued.sameText {s t : Select} (revalued : Select.Revalued s t) :
    s.SameText t := by
  intro d params others count
  rw [Select.render, Select.render, Fragment.render, Fragment.render, count]
  exact revalued.congruent.sql_eq _

end FilterSql
