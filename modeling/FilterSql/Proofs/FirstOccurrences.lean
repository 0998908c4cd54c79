import FilterSql.Compile.Leaf
import Mathlib.Data.List.Induction

/-!
The values of a list operand without repetitions.

A list operator compares a column with the first occurrences of the values of its operand. Two
values are equal (`SqlValue.Equal`) if they are the same value or both are zero as binary64 numbers;
no operand has a NaN among its values, so that each of them equals itself.

`Leaf.distinct_listValues` says which values are kept and in which order, that an array stands for
its items with the inner arrays opened one level, and that one more copy of a value that stands in
an array before it makes no difference to the list operators, whether it is put between the items or
into an inner array.
-/

namespace FilterSql

namespace SqlValue

/-- Equality of values: each value but a NaN equals itself, and the two zeros of the binary64
numbers are equal. -/
inductive Equal : SqlValue → SqlValue → Prop where
  | self {v : SqlValue} (number : v.isNaN = false) : Equal v v
  | zeros (a b : Bool) :
    Equal (.float (.finite (Binary64.zero a))) (.float (.finite (Binary64.zero b)))

theorem Equal.trans {u v w : SqlValue} (first : u.Equal v) (second : v.Equal w) : u.Equal w := by
  cases first with
  | self => exact second
  | zeros a b =>
      cases second with
      | self => exact .zeros a b
      | zeros _ c => exact .zeros a c

/-- Finite numbers of the same magnitude and sign are one number, and so are two zeros. -/
theorem equal_of_sameNumber {x y : Binary64} (same : x.sameNumber y = true) :
    Equal (.float (.finite x)) (.float (.finite y)) := by
  obtain ⟨a, place, finite⟩ := x
  obtain ⟨b, _, _⟩ := y
  simp only [Binary64.sameNumber, Bool.and_eq_true, Bool.or_eq_true, beq_iff_eq] at same
  obtain ⟨rfl, rfl | rfl⟩ := same
  · exact .self rfl
  · exact .zeros a b

/-- The values that `same` takes for each other are the equal ones. -/
theorem same_iff {v w : SqlValue} : v.same w = true ↔ v.Equal w := by
  constructor
  · intro same
    cases v with
    | null =>
        cases w with
        | null => exact .self rfl
        | _ => cases same
    | bool =>
        cases w with
        | bool => exact beq_iff_eq.mp same ▸ .self rfl
        | _ => cases same
    | int =>
        cases w with
        | int => exact beq_iff_eq.mp same ▸ .self rfl
        | _ => cases same
    | text =>
        cases w with
        | text => exact beq_iff_eq.mp same ▸ .self rfl
        | _ => cases same
    | float x =>
        cases w with
        | float y =>
            cases x <;> cases y <;> try cases same
            · exact equal_of_sameNumber same
            · exact beq_iff_eq.mp same ▸ .self rfl
        | _ => cases same
  · rintro (number | ⟨a, b⟩)
    · rw [same_self, number]
      rfl
    · simp [same, Binary64.Datum.sameNumber, Binary64.sameNumber, Binary64.zero]

end SqlValue

namespace Leaf

/-! ### First occurrences -/

/-- Nothing before a place equals the value there. -/
def FirstAt (values : List SqlValue) (i : Nat) : Prop :=
  ∃ v, values[i]? = some v ∧ ∀ w ∈ values.take i, ¬ w.Equal v

/-- Values are the first occurrences of others. -/
structure FirstOccurrences (values kept : List SqlValue) : Prop where
  /-- what is kept stands at the places of first occurrences, in increasing order -/
  places : ∃ places : List Nat, places.Pairwise (· < ·) ∧ (∀ i, i ∈ places ↔ FirstAt values i) ∧
    kept.map some = places.map (values[·]?)
  /-- no value is kept twice -/
  distinct : kept.Pairwise fun v w => ¬ v.Equal w
  /-- each value equals one that is kept -/
  covers : ∀ v ∈ values, ∃ w ∈ kept, w.Equal v

/-- A value at the end is kept unless one before it equals it. -/
theorem distinctAfter_append_singleton (seen values : List SqlValue) (v : SqlValue) :
    distinctAfter seen (values ++ [v]) =
      if (seen ++ values).any (·.same v) then distinctAfter seen values
      else distinctAfter seen values ++ [v] := by
  induction values generalizing seen with
  | nil => simp [distinctAfter]
  | cons w rest ih =>
      rw [List.cons_append, distinctAfter, distinctAfter]
      split
      · next repeated =>
          rw [ih seen]
          have unseen : (seen ++ w :: rest).any (·.same v) = (seen ++ rest).any (·.same v) := by
            obtain ⟨u, mem, same⟩ := List.any_eq_true.mp repeated
            have covered : w.same v = true → seen.any (·.same v) = true := fun next =>
              List.any_eq_true.mpr ⟨u, mem, SqlValue.same_iff.mpr
                ((SqlValue.same_iff.mp same).trans (SqlValue.same_iff.mp next))⟩
            grind
          rw [unseen]
      · rw [ih (seen ++ [w]), List.append_assoc, List.singleton_append]
        split <;> rfl

theorem distinct_append_singleton (values : List SqlValue) (v : SqlValue) :
    distinct (values ++ [v]) =
      if values.any (·.same v) then distinct values else distinct values ++ [v] :=
  distinctAfter_append_singleton [] values v

theorem any_same {values : List SqlValue} {v : SqlValue} :
    values.any (·.same v) = true ↔ ∃ w ∈ values, w.Equal v := by
  simp only [List.any_eq_true, SqlValue.same_iff]

/-- One more value at the end stands at a first place if nothing equals it, and leaves the others
where they are. -/
theorem firstAt_append_singleton {values : List SqlValue} {v : SqlValue} {i : Nat} :
    FirstAt (values ++ [v]) i ↔
      FirstAt values i ∨ i = values.length ∧ ∀ w ∈ values, ¬ w.Equal v := by
  rcases Nat.lt_trichotomy i values.length with inside | rfl | beyond
  · simp [FirstAt, List.getElem?_append_left inside, Nat.ne_of_lt inside,
      List.take_append_of_le_length (Nat.le_of_lt inside)]
  · simp [FirstAt]
  · have past : (values ++ [v]).length ≤ i := by simpa using Nat.succ_le_of_lt beyond
    simp [FirstAt, List.getElem?_eq_none past, List.getElem?_eq_none (Nat.le_of_lt beyond),
      Nat.ne_of_gt beyond]

/-- What is kept is among the values. -/
theorem FirstOccurrences.subset {values kept : List SqlValue}
    (first : FirstOccurrences values kept) : ∀ w ∈ kept, w ∈ values := by
  intro w mem
  obtain ⟨places, -, -, taken⟩ := first.places
  have put : some w ∈ places.map (values[·]?) := taken ▸ List.mem_map_of_mem mem
  obtain ⟨i, -, found⟩ := List.mem_map.mp put
  exact List.mem_of_getElem? found

/-- Without repetitions, values that equal themselves are the first occurrences. -/
theorem firstOccurrences_distinct {values : List SqlValue}
    (numbers : ∀ v ∈ values, v.isNaN = false) : FirstOccurrences values (distinct values) := by
  induction values using List.reverseRecOn with
  | nil => exact ⟨⟨[], .nil, by simp [FirstAt], rfl⟩, .nil, nofun⟩
  | append_singleton values v ih =>
      have first := ih fun w mem => numbers w (List.mem_append_left _ mem)
      have among := first.subset
      obtain ⟨⟨places, increasing, mem_places, taken⟩, different, covers⟩ := first
      have inside : ∀ i ∈ places, i < values.length := fun i mem =>
        have ⟨_, found, _⟩ := (mem_places i).mp mem
        (List.getElem?_eq_some_iff.mp found).1
      have still : places.map ((values ++ [v])[·]?) = places.map (values[·]?) :=
        List.map_congr_left fun i mem => List.getElem?_append_left (inside i mem)
      rw [distinct_append_singleton]
      by_cases repeated : ∃ w ∈ values, w.Equal v
      · rw [if_pos (any_same.mpr repeated)]
        refine ⟨⟨places, increasing, fun i => ?_, by rw [still, taken]⟩, different, ?_⟩
        · rw [firstAt_append_singleton, mem_places]
          grind
        · refine List.forall_mem_append.mpr ⟨covers, List.forall_mem_singleton.mpr ?_⟩
          obtain ⟨u, mem, equal⟩ := repeated
          obtain ⟨w, kept, same⟩ := covers u mem
          exact ⟨w, kept, same.trans equal⟩
      · rw [if_neg (mt any_same.mp repeated)]
        have fresh : ∀ w ∈ values, ¬ w.Equal v := fun w mem equal => repeated ⟨w, mem, equal⟩
        refine ⟨⟨places ++ [values.length], ?_, fun i => ?_, ?_⟩, ?_, ?_⟩
        · exact List.pairwise_append.mpr ⟨increasing, List.pairwise_singleton _ _,
            by simpa using inside⟩
        · rw [firstAt_append_singleton, List.mem_append, mem_places, List.mem_singleton]
          grind
        · rw [List.map_append, List.map_append, still, taken]
          simp
        · exact List.pairwise_append.mpr ⟨different, List.pairwise_singleton _ _,
            by simpa using fun w mem => fresh w (among w mem)⟩
        · have own : v.isNaN = false := numbers v (by simp)
          refine List.forall_mem_append.mpr ⟨fun u mem => ?_, List.forall_mem_singleton.mpr ?_⟩
          · obtain ⟨w, kept, same⟩ := covers u mem
            exact ⟨w, List.mem_append_left _ kept, same⟩
          · exact ⟨v, by simp, .self own⟩

/-- One more value makes no difference if one before it equals it. -/
theorem distinct_repeated {before : List SqlValue} {v : SqlValue}
    (there : ∃ w ∈ before, w.Equal v) (after : List SqlValue) :
    distinct (before ++ v :: after) = distinct (before ++ after) := by
  induction after using List.reverseRecOn with
  | nil => rw [distinct_append_singleton, if_pos (any_same.mpr there), List.append_nil]
  | append_singleton after u ih =>
      have seen : (before ++ v :: after).any (·.same u) = (before ++ after).any (·.same u) := by
        rw [Bool.eq_iff_iff, any_same, any_same]
        obtain ⟨w, mem, equal⟩ := there
        have covered : v.Equal u → ∃ w ∈ before ++ after, w.Equal u := fun next =>
          ⟨w, List.mem_append_left _ mem, equal.trans next⟩
        grind
      have regroup : before ++ v :: (after ++ [u]) = (before ++ v :: after) ++ [u] := by simp
      rw [regroup, ← List.append_assoc, distinct_append_singleton, distinct_append_singleton, ih,
        seen]

/-! ### The values of an operand -/

/-- The items of an array with its inner arrays opened one level. -/
def splice : List Json → List Json
  | [] => []
  | .array inner :: rest => inner ++ splice rest
  | item :: rest => item :: splice rest

theorem splice_eq (items : List Json) :
    items.flatMap itemValues = (splice items).map SqlValue.ofJson := by
  induction items with
  | nil => rfl
  | cons item rest ih => cases item <;> simp [splice, itemValues, ih]

@[simp] theorem splice_append (before after : List Json) :
    splice (before ++ after) = splice before ++ splice after := by
  induction before with
  | nil => rfl
  | cons item rest ih => cases item <;> simp [splice, ih]

/-- Operands have no NaN among their values. -/
theorem isNaN_listValues (localType : LocalType) (operand : Json) :
    ∀ v ∈ listValues localType operand, v.isNaN = false := by
  cases operand with
  | string s =>
      simp only [listValues, List.forall_mem_map]
      intro part _
      cases localType <;> grind [coercePart, SqlValue.isNaN, Binary64.Datum.isNaN]
  | array items => simp [listValues, splice_eq, SqlValue.isNaN_ofJson]
  | _ => simp [listValues, SqlValue.isNaN_ofJson]

/-- One more copy of a value that is no array and stands before it, between the items of an array or
in an inner one. -/
inductive Repeats : List Json → List Json → Prop where
  | between {before after : List Json} {x : Json} (noArray : x.kind ≠ .array)
      (there : x ∈ splice before) : Repeats (before ++ after) (before ++ x :: after)
  | inside {before left right after : List Json} {x : Json} (there : x ∈ splice before ++ left) :
    Repeats (before ++ .array (left ++ right) :: after)
      (before ++ .array (left ++ x :: right) :: after)

theorem Repeats.splice {items items' : List Json} (repeats : Repeats items items') :
    ∃ before after x, x ∈ before ∧ Leaf.splice items = before ++ after ∧
      Leaf.splice items' = before ++ x :: after := by
  cases repeats with
  | @between before after x noArray there =>
      refine ⟨Leaf.splice before, Leaf.splice after, x, there, by simp, ?_⟩
      cases x with
      | array => exact absurd rfl noArray
      | _ => simp [Leaf.splice]
  | @inside before left right after x there =>
      exact ⟨Leaf.splice before ++ left, right ++ Leaf.splice after, x, there,
        by simp [Leaf.splice], by simp [Leaf.splice]⟩

/-- Arrays that differ by repetitions have the same values without them. -/
theorem Repeats.distinct_eq {items items' : List Json} (repeats : Repeats items items')
    (localType : LocalType) :
    distinct (listValues localType (.array items')) =
      distinct (listValues localType (.array items)) := by
  obtain ⟨before, after, x, there, plain, more⟩ := repeats.splice
  rw [listValues, listValues, splice_eq, splice_eq, plain, more, List.map_append, List.map_cons,
    List.map_append]
  exact distinct_repeated ⟨_, List.mem_map_of_mem there, .self (SqlValue.isNaN_ofJson x)⟩ _

/-- List operators take the first occurrences of the values of their operand. An array stands for
its items with the inner arrays opened one level and what is deeper as JSON text, and repetitions in
it make no difference. -/
theorem distinct_listValues (localType : LocalType) :
    (∀ operand, FirstOccurrences (listValues localType operand)
      (distinct (listValues localType operand))) ∧
    (∀ items, listValues localType (.array items) = (splice items).map SqlValue.ofJson ∧
      ∀ item ∈ splice items, item.kind = .array ∨ item.kind = .object →
        SqlValue.ofJson item = .text (Json.compact item)) ∧
    ∀ column operator items items', operator = .isIn ∨ operator = .notIn → Repeats items items' →
      predicate column localType operator (.array items') =
        predicate column localType operator (.array items) := by
  refine ⟨fun operand => firstOccurrences_distinct (isNaN_listValues localType operand),
    fun items => ⟨by rw [listValues, splice_eq], fun item _ structured => ?_⟩, ?_⟩
  · cases item with
    | array => rfl
    | object => rfl
    | _ => rcases structured with other | other <;> cases other
  · rintro column operator items items' (rfl | rfl) repeats
    · rw [predicate, predicate, repeats.distinct_eq]
    · rw [predicate, predicate, repeats.distinct_eq]

/-- One and two, a zero and a deeper array, then the other zero: one again in the inner array makes
no difference. -/
theorem distinct_listValues_zeros :
    let zero (negative : Bool) : Json := .number (.floating (Binary64.zero negative))
    let inner : List Json := [.ofInt 2, zero true, .array [.null]]
    let kept : List SqlValue :=
      [.int 1, .int 2, .float (.finite (Binary64.zero true)), .text "[null]"]
    predicate ⟨"books", "id"⟩ .numeric .notIn
        (.array [.ofInt 1, .array (inner ++ [.ofInt 1]), zero false]) =
      .ok (.inList ⟨"books", "id"⟩ kept true) ∧
    FirstOccurrences (kept ++ [.float (.finite (Binary64.zero false))]) kept ∧
    SqlValue.ofJson (.array [.null]) = .text "[null]" := by
  intro zero inner kept
  obtain ⟨first, spliced, repetition⟩ := distinct_listValues .numeric
  have operand : splice [.ofInt 1, .array inner, zero false] =
    [.ofInt 1, .ofInt 2, zero true, .array [.null], zero false] := rfl
  have again : Repeats ([.ofInt 1] ++ .array (inner ++ []) :: [zero false])
      ([.ofInt 1] ++ .array (inner ++ .ofInt 1 :: []) :: [zero false]) :=
    .inside (List.mem_append_left _ List.mem_cons_self)
  refine ⟨?_, first (.array [.ofInt 1, .array inner, zero false]), ?_⟩
  · exact (repetition ⟨"books", "id"⟩ .notIn _ _ (.inr rfl) again).trans rfl
  · exact (spliced [.ofInt 1, .array inner, zero false]).2 (.array [.null]) (by simp [operand])
      (.inl rfl)

end Leaf

end FilterSql
