import FilterSql.Proofs.Sql.Rendering

/-!
Placeholders and parameters are aligned.

Rendering a statement appends its operands to the parameters, in the order of the text and the same
ones in all dialects; null and booleans are never among them. The placeholders of the text are as
many as the operands, and with the parameters in their places, taken in order or by number, the text
is the wording of the statement.
-/

namespace FilterSql

namespace SqlValue

/-- Whether a value is written into the text. -/
def isInline : SqlValue → Bool
  | null => true
  | bool _ => true
  | _ => false

end SqlValue

namespace Predicate

mutual

/-- The values in a condition, from left to right. -/
def values : Predicate → List SqlValue
  | .and items => valuesAll items
  | .or items => valuesAll items
  | .compare _ _ value => [value]
  | .like _ pattern _ _ => [.text pattern]
  | .inList _ values _ => values
  | .between _ low high _ => [low, high]
  | .isNull _ _ => []
  | .inSelect _ select => valuesOf select

/-- The values in conditions. -/
def valuesAll : List Predicate → List SqlValue
  | [] => []
  | p :: rest => values p ++ valuesAll rest

/-- The values in a statement. -/
def valuesOf : SelectOf Predicate → List SqlValue
  | ⟨_, _, _, predicates, _, _, _⟩ => valuesAll predicates

end

end Predicate

/-- The values that are passed as parameters. -/
def SqlValue.passed (vs : List SqlValue) : List SqlValue := vs.filter (!·.isInline)

@[simp] theorem SqlValue.passed_append (vs us : List SqlValue) :
    passed (vs ++ us) = passed vs ++ passed us := List.filter_append _ _

/-- The values of a statement that are passed as parameters, from left to right. -/
def Select.operands (s : Select) : List SqlValue := SqlValue.passed (Predicate.valuesOf s)

/-! ### The operands of a rendered statement -/

namespace Fragment

variable {d : Dialect}

@[simp] theorem operands_ofText (s : String) : operands (ofText s) = [] := rfl

theorem operands_ofValue (v : SqlValue) :
    operands (ofValue d v) = SqlValue.passed [v] := by
  cases v <;> rfl

theorem operands_joinWith (sep : String) (fs : List Fragment) :
    operands (joinWith sep fs) = fs.flatMap operands := by
  induction fs with
  | nil => rfl
  | cons f rest ih => cases rest <;> simp_all [joinWith, operands]

theorem operands_group (op : Connective) (fs : List Fragment) :
    operands (group op fs) = fs.flatMap operands := by
  rcases fs with _ | ⟨f, _ | ⟨g, rest⟩⟩
  · rfl
  · simp [group]
  · have inner := operands_joinWith (" " ++ op.keyword ++ " ") (f :: g :: rest)
    simpa [group, operands] using inner

theorem operands_membership (column : ColumnRef) (values : List SqlValue) (negated : Bool) :
    operands (membership d column values negated) = SqlValue.passed values := by
  have each : (values.map (ofValue d)).flatMap operands = SqlValue.passed values := by
    induction values with
    | nil => rfl
    | cons v rest ih =>
      rw [List.map_cons, List.flatMap_cons, ih, operands_ofValue, ← SqlValue.passed_append]
      rfl
  rw [membership]
  split
  · next empty => rw [List.isEmpty_iff.mp empty]; rfl
  · simp [operands, operands_joinWith, each]

theorem operands_select (s : SelectOf Fragment) :
    operands (select d s) = s.predicates.flatMap operands := by
  have joins : operands (s.joins.map fun j => Piece.text (" " ++ j.sql d)) = [] := by
    induction s.joins with
    | nil => rfl
    | cons j rest ih => exact ih
  have conditions : operands (if s.predicates.isEmpty then []
      else .text " WHERE " :: joinWith " AND " s.predicates) = s.predicates.flatMap operands := by
    split
    · next empty => simp [List.isEmpty_iff.mp empty, operands]
    · exact operands_joinWith " AND " s.predicates
  have optional (b : Bool) (t : String) : operands (if b then [] else ofText t) = [] := by
    cases b <;> rfl
  have paging (t : String) : operands (if t = "" then [] else ofText (" " ++ t)) = [] := by
    split <;> rfl
  simp only [select, operands_append, operands, joins, conditions, optional, paging,
    List.nil_append, List.append_nil]

end Fragment

variable {d : Dialect}

mutual

/-- A condition is rendered with its values as operands, the same ones in all dialects. -/
theorem Predicate.operands_fragment (p : Predicate) :
    (p.fragment d).operands = SqlValue.passed p.values := by
  match p with
  | .and items =>
    exact (Fragment.operands_group .and _).trans (operands_predicateFragments items)
  | .or items =>
    exact (Fragment.operands_group .or _).trans (operands_predicateFragments items)
  | .compare _ _ value => exact Fragment.operands_ofValue value
  | .like _ pattern _ _ => rfl
  | .inList column values negated => exact Fragment.operands_membership column values negated
  | .between _ low high _ =>
    have bounds := Fragment.operands_append (Fragment.ofValue d low)
      (.text " AND " :: Fragment.ofValue d high)
    rw [Fragment.operands, Fragment.operands_ofValue, Fragment.operands_ofValue,
      ← SqlValue.passed_append] at bounds
    exact bounds
  | .isNull _ _ => rfl
  | .inSelect _ select =>
    have inner := Fragment.operands_append (selectFragment d select) (Fragment.ofText ")")
    rw [operands_selectFragment select, Fragment.operands_ofText, List.append_nil] at inner
    exact inner

/-- Conditions are rendered with their values as operands. -/
theorem operands_predicateFragments (ps : List Predicate) :
    (predicateFragments d ps).flatMap Fragment.operands
      = SqlValue.passed (Predicate.valuesAll ps) := by
  match ps with
  | [] => rfl
  | p :: rest =>
    rw [predicateFragments, List.flatMap_cons, p.operands_fragment,
      operands_predicateFragments rest, Predicate.valuesAll, SqlValue.passed_append]

/-- A statement is rendered with its values as operands. -/
theorem operands_selectFragment (s : SelectOf Predicate) :
    (selectFragment d s).operands = SqlValue.passed (Predicate.valuesOf s) := by
  match s with
  | ⟨_, _, _, predicates, _, _, _⟩ =>
    exact (Fragment.operands_select _).trans (operands_predicateFragments predicates)

end

/-! ### Parameters in the places of placeholders -/

namespace Token

/-- The parameter that a placeholder stands for: the one of its number or, without a number, the one
after the first `position`. -/
def parameter? (params : List SqlValue) (position : Nat) : Option Nat → Option SqlValue
  | none => params[position]?
  | some 0 => none
  | some (n + 1) => params[n]?

/-- Tokens with the parameters in the places of the placeholders, where the parameters at the first
`position` places are taken already. -/
def supply (params : List SqlValue) : Nat → List Token → Option (List Token)
  | _, [] => some []
  | position, .placeholder n :: ts =>
    match parameter? params position n with
    | some v => (supply params (position + 1) ts).map (.operand v :: ·)
    | none => none
  | position, t :: ts => (supply params position ts).map (t :: ·)

theorem slots_withPlaceholders (d : Dialect) (bound : Nat) (ts : List Token) :
    slots (withPlaceholders d bound ts)
      = (List.range' (bound + 1) (slots ts).length).map
          fun n => .placeholder (d.shownNumber n) := by
  induction ts generalizing bound with
  | nil => rfl
  | cons t ts ih => cases t <;> simp [withPlaceholders, slots, ih, List.range'_succ]

theorem parameter?_shownNumber (d : Dialect) (params : List SqlValue) (position : Nat) :
    parameter? params position (d.shownNumber (position + 1)) = params[position]? := by
  cases d <;> rfl

/-- Operands that are next among the parameters are put back in their places. -/
theorem supply_withPlaceholders {d : Dialect} {params vs after : List SqlValue} {ts : List Token}
    {bound : Nat} (standing : slots ts = vs.map .operand) (next : params.drop bound = vs ++ after) :
    supply params bound (withPlaceholders d bound ts) = some ts := by
  induction ts generalizing bound vs with
  | nil => rfl
  | cons t ts ih =>
    cases t with
    | operand v =>
      obtain ⟨w, vs, rfl⟩ := List.exists_cons_of_ne_nil (l := vs) (by rintro rfl; cases standing)
      simp only [slots, List.map_cons, List.cons.injEq, Token.operand.injEq] at standing
      obtain ⟨rfl, standing⟩ := standing
      have here : params[bound]? = some v := by
        rw [← Nat.add_zero bound, ← List.getElem?_drop, next]
        rfl
      have later : params.drop (bound + 1) = vs ++ after := by
        rw [← List.tail_drop, next]
        rfl
      simp only [withPlaceholders, supply, parameter?_shownNumber, here, ih standing later,
        Option.map_some]
    | placeholder n => cases vs <;> simp [slots] at standing
    | _ =>
      simp only [withPlaceholders, supply, ih standing next, Option.map_some]

end Token

namespace Select

/-- Rendering a statement appends its operands to the parameters. -/
theorem params_render (s : Select) (d : Dialect) (params : List SqlValue) :
    (s.render d params).2 = params ++ s.operands :=
  congrArg (params ++ ·) (operands_selectFragment s)

section Aligned

variable {s : Select} {d : Dialect} (params : List SqlValue) (plain : d.Delimits s.identifiers)

include plain

/-- The operands stand in the wording of a statement in their order. -/
theorem slots_tokens : Token.slots (s.tokens d) = s.operands.map .operand := by
  have slots := (selectFragment_lexes s plain).1
  rwa [operands_selectFragment] at slots

/-- The text of a statement is its wording with placeholders for the operands. -/
theorem lex_render :
    lex d (s.render d params).1.toList
      = some (Token.withPlaceholders d params.length (s.tokens d)) := by
  have whole := (selectFragment_lexes s plain).2 params.length [] (by simp [Lexer.Breaks])
  rw [List.append_nil] at whole
  exact whole.trans ((Token.before_some _ []).trans (by rw [List.append_nil]; rfl))

/-- The parameters of a statement fit its placeholders. -/
theorem supply_render :
    Token.supply (s.render d params).2 params.length
      (Token.withPlaceholders d params.length (s.tokens d)) = some (s.tokens d) := by
  have next : (s.render d params).2.drop params.length = s.operands ++ [] := by
    simp [params_render]
  exact Token.supply_withPlaceholders (slots_tokens plain) next

end Aligned

/-- Rendering a statement appends its operands to the parameters, and the placeholders of its text
are aligned with them: they are as many, those of postgres are numbered on from the parameters that
were there, and with the parameters in their places the text is the wording of the statement. -/
theorem render_aligned (s : Select) (d : Dialect) (params : List SqlValue) :
    (s.render d params).2 = params ++ s.operands ∧
    (∀ v ∈ s.operands, v.isInline = false) ∧
    ((d = .clickhouse → ∀ ident ∈ s.identifiers, '\\' ∉ ident.toList) →
      ∃ tokens, lex d (s.render d params).1.toList = some tokens ∧
        Token.slots tokens = ((List.range' (params.length + 1) s.operands.length).map fun n =>
          .placeholder (d.shownNumber n)) ∧
        Token.slots (s.tokens d) = s.operands.map .operand ∧
        Token.supply (s.render d params).2 params.length tokens = some (s.tokens d)) := by
  refine ⟨s.params_render d params, fun v member => by simpa using (List.mem_filter.mp member).2,
    fun plain => ⟨_, lex_render params plain, ?_, slots_tokens plain, supply_render params plain⟩⟩
  rw [Token.slots_withPlaceholders, slots_tokens plain, List.length_map]

/-- The long loans of the members of one name. -/
def overdue : Select :=
  { ofCollection "loan" with
    predicates := [
      .compare ⟨"loan", "days"⟩ .gt (.int 14),
      .inSelect ⟨"loan", "member"⟩
        { ofCollection "member" with
          columns := ["id"]
          predicates := [
            .or [.compare ⟨"member", "name"⟩ .eq (.text "Ada"), .isNull ⟨"member", "left"⟩ true],
            .compare ⟨"member", "active"⟩ .eq (.bool true)] }] }

theorem render_aligned_overdue :
    (∀ ident ∈ overdue.identifiers, '\\' ∉ ident.toList) ∧
      ∃ tokens, lex .clickhouse (overdue.render .clickhouse [.null]).1.toList = some tokens ∧
        Token.slots tokens = [.placeholder none, .placeholder none] ∧
        Token.supply [.null, .int 14, .text "Ada"] 1 tokens
          = some (overdue.tokens .clickhouse) := by
  have plain : ∀ ident ∈ overdue.identifiers, '\\' ∉ ident.toList := by decide
  obtain ⟨tokens, read, placeholders, -, supplied⟩ :=
    (render_aligned overdue .clickhouse [.null]).2.2 fun _ => plain
  exact ⟨plain, tokens, read, placeholders, supplied⟩

example : (overdue.render .postgres []).1 =
    "SELECT \"loan\".* FROM \"loan\" WHERE \"loan\".\"days\" > $1 AND \"loan\".\"member\" IN "
      ++ "(SELECT \"member\".\"id\" FROM \"member\" WHERE (\"member\".\"name\" = $2 OR "
      ++ "\"member\".\"left\" IS NOT NULL) AND \"member\".\"active\" = TRUE)" := by
  decide +kernel

end Select

end FilterSql
