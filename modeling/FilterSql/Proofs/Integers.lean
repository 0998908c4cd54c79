import FilterSql.Compile.Leaf
import Mathlib.Algebra.Group.Nat.Defs
import Mathlib.Data.List.Forall2

/-!
Integers as values of parameters.

JSON holds the integers of sixty-four bits, with sign or without (`Number.Held`). Those below
`2 ^ 63` are bound as they are. The others become the nearest binary64 number, which is a multiple
of 2048 there (`Binary64.ofInt?_large`): this loses the integer unless it is such a multiple itself,
and puts one value in the place of up to 2049 integers. `SqlValue.ofJson_integers` says which
integers are exact and which are merged, for single operands and for the lists of `_in` and `_nin`.
-/

namespace FilterSql

/-! ### The binary64 numbers next to large integers -/

/-- The multiple of a number that is nearest to another one; of two that are equally near, the one
that is an even multiple. -/
def nearestMultiple (step n : Nat) : Nat :=
  step * (n / step +
    if step < 2 * (n % step) ∨ (step = 2 * (n % step) ∧ n / step % 2 = 1) then 1 else 0)

theorem dvd_nearestMultiple (step n : Nat) : step ∣ nearestMultiple step n :=
  Nat.dvd_mul_right _ _

/-- A number is its own nearest multiple if it is one. -/
theorem nearestMultiple_eq_self {step n : Nat} (positive : 0 < step) :
    nearestMultiple step n = n ↔ step ∣ n := by
  constructor
  · intro same
    exact same ▸ dvd_nearestMultiple step n
  · rintro ⟨k, rfl⟩
    simp [nearestMultiple, Nat.mul_div_cancel_left k positive, Nat.ne_of_gt positive]

namespace Binary64

/-- The numbers of a binade are the same number of units apart. -/
theorem unitsAt_binade (binade : Nat) {k : Nat} (inside : k < binadeSize) :
    unitsAt ((binade + 1) * binadeSize + k) = (binadeSize + k) * 2 ^ binade := by
  have beyond : ¬ (binade + 1) * binadeSize + k < binadeSize := by
    rw [Nat.succ_mul]
    omega
  have quotient : ((binade + 1) * binadeSize + k) / binadeSize = binade + 1 := by
    rw [Nat.add_comm, Nat.add_mul_div_right _ _ (by decide), Nat.div_eq_of_lt inside, Nat.zero_add]
  have rest : ((binade + 1) * binadeSize + k) % binadeSize = k := by
    rw [Nat.add_comm, Nat.add_mul_mod_self_right, Nat.mod_eq_of_lt inside]
  rw [unitsAt, if_neg beyond, quotient, rest, Nat.add_sub_cancel, Nat.pow_eq]

/-- The nearest multiple of 2048 lies in the binade from `2 ^ 63` on, or is the first number of the
next one. -/
theorem nearestMultiple_large {n : Nat} (low : 2 ^ 63 ≤ n) (high : n < 2 ^ 64) :
    binadeSize ≤ nearestMultiple 2048 n / 2048 ∧
      nearestMultiple 2048 n / 2048 ≤ 2 * binadeSize := by
  rw [nearestMultiple, Nat.mul_div_cancel_left _ (by decide), binadeSize]
  split <;> omega

section Large

variable {a : Nat} (units : unitsPerOne = 2 ^ a)

include units

/-- The binary64 numbers from `2 ^ 63` to `2 ^ 64` are 2048 apart. -/
theorem nearestPlace_large {n : Nat} (low : 2 ^ 63 ≤ n) (high : n < 2 ^ 64) :
    nearestPlace n 1 = (a + 11) * binadeSize + nearestMultiple 2048 n / 2048 := by
  have positive : 0 < 2 ^ a := Nat.two_pow_pos a
  have log : (n * 2 ^ a).log2 = 63 + a := by
    rw [Nat.log2_eq_iff (Nat.mul_ne_zero (by omega) (by omega)), Nat.pow_add,
      Nat.add_right_comm, Nat.pow_add]
    exact ⟨Nat.mul_le_mul_right _ low, Nat.mul_lt_mul_of_pos_right high positive⟩
  have binade : (n * 2 ^ a).log2 - 52 = a + 11 := by omega
  have step : 2 ^ (a + 11) = 2048 * 2 ^ a := by
    rw [Nat.pow_add, Nat.mul_comm]
  have twice (x : Nat) : 2 * (x * 2 ^ a) = 2 * x * 2 ^ a := (Nat.mul_assoc 2 x _).symm
  simp only [nearestPlace, units, Nat.pow_eq, Nat.div_one, Nat.one_mul, binade, step,
    Nat.mul_div_mul_right _ _ positive, Nat.mul_mod_mul_right, twice,
    Nat.mul_lt_mul_right positive, Nat.mul_left_inj (Nat.ne_of_gt positive), nearestMultiple,
    Nat.mul_div_cancel_left _ (show 0 < 2048 by decide), Nat.add_assoc]

/-- The number at a place that is counted from `2 ^ 63` in steps of 2048. -/
theorem unitsAt_large {k : Nat} (low : binadeSize ≤ k) (high : k ≤ 2 * binadeSize) :
    unitsAt ((a + 11) * binadeSize + k) = 2048 * k * unitsPerOne := by
  have step : 2 ^ (a + 11) = 2048 * unitsPerOne := by
    rw [Nat.pow_add, units, Nat.mul_comm]
  rcases Nat.lt_or_eq_of_le high with inside | rfl
  · have place : (a + 11) * binadeSize + k = (a + 11 + 1) * binadeSize + (k - binadeSize) := by
      simp only [binadeSize] at *
      omega
    rw [place, unitsAt_binade _ (by omega), Nat.add_sub_cancel' low, step, Nat.mul_left_comm,
      Nat.mul_assoc]
  · have place : (a + 11) * binadeSize + 2 * binadeSize = (a + 12 + 1) * binadeSize + 0 := by
      simp only [binadeSize]
      omega
    rw [place, unitsAt_binade _ (by decide), Nat.add_zero, Nat.pow_succ, step]
    simp only [binadeSize]
    omega

end Large

/-- A large integer has a nearest binary64 number, which is the nearest multiple of 2048. -/
theorem ofInt?_large {n : Nat} (low : 2 ^ 63 ≤ n) (high : n < 2 ^ 64) :
    ∃ x, ofInt? n = some x ∧ x.negative = false ∧ x.place = nearestPlace n 1 ∧
      x.units = nearestMultiple 2048 n * unitsPerOne := by
  obtain ⟨a, -, small, units⟩ := exists_unitsPerOne
  obtain ⟨least, greatest⟩ := nearestMultiple_large low high
  have place := nearestPlace_large units low high
  have finite : nearestPlace n 1 < placeLimit := by
    rw [place, placeLimit, binadeSize] at *
    omega
  have number : unitsAt (nearestPlace n 1) = nearestMultiple 2048 n * unitsPerOne := by
    rw [place, unitsAt_large units least greatest,
      Nat.mul_div_cancel' (dvd_nearestMultiple 2048 n)]
  refine ⟨⟨false, nearestPlace n 1, finite⟩, ?_, rfl, rfl, number⟩
  simp [ofInt?, nearest, finite]

/-- Large integers have the same nearest place if they have the same nearest multiple of 2048. -/
theorem nearestPlace_eq_iff {m n : Nat} (lowM : 2 ^ 63 ≤ m) (highM : m < 2 ^ 64) (lowN : 2 ^ 63 ≤ n)
    (highN : n < 2 ^ 64) :
    nearestPlace m 1 = nearestPlace n 1 ↔ nearestMultiple 2048 m = nearestMultiple 2048 n := by
  obtain ⟨a, -, -, units⟩ := exists_unitsPerOne
  rw [nearestPlace_large units lowM highM, nearestPlace_large units lowN highN,
    Nat.add_left_cancel_iff]
  exact Nat.div_left_inj (dvd_nearestMultiple _ _) (dvd_nearestMultiple _ _)

end Binary64

/-! ### The values of single integers -/

/-- The integers of JSON: those of sixty-four bits, with sign or without. -/
def Number.Held (n : Int) : Prop := -(Word64.signedLimit : Int) ≤ n ∧ n < Word64.count

instance (n : Int) : Decidable (Number.Held n) := inferInstanceAs (Decidable (_ ∧ _))

theorem Number.not_lt_signedLimit {n : Nat} : ¬ (n : Int) < Word64.signedLimit ↔ 2 ^ 63 ≤ n := by
  simp only [Word64.signedLimit]
  omega

/-- An integer is below `2 ^ 63`, or a natural number from there on. -/
theorem Number.lt_or_exists_nat (n : Int) :
    n < Word64.signedLimit ∨ ∃ k : Nat, n = k ∧ 2 ^ 63 ≤ k := by
  by_cases small : n < Word64.signedLimit
  · exact .inl small
  · simp only [Word64.signedLimit] at small
    exact .inr ⟨n.toNat, by omega, by omega⟩

/-- An integer of JSON is small, or it is large and needs all sixty-four bits. -/
theorem Number.Held.small_or_large {n : Int} (held : Number.Held n) :
    n < Word64.signedLimit ∨ ∃ k : Nat, n = k ∧ 2 ^ 63 ≤ k ∧ k < 2 ^ 64 := by
  rcases lt_or_exists_nat n with small | ⟨k, rfl, large⟩
  · exact .inl small
  · have below := held.2
    simp only [Word64.count] at below
    exact .inr ⟨k, rfl, large, by omega⟩

namespace SqlValue

/-- A value is the number that an integer is. -/
inductive Denotes : SqlValue → Int → Prop where
  | int (n : Int) : Denotes (int n) n
  | float {x : Binary64} {n : Int}
      (value : (if x.negative then -(x.units : Int) else x.units) = n * Binary64.unitsPerOne) :
      Denotes (float (.finite x)) n

/-- The integer that is bound in the place of another one. -/
def bound (n : Int) : Int :=
  if n < Word64.signedLimit then n else nearestMultiple 2048 n.toNat

/-- Whether an integer is small enough to be bound as it is, or a multiple that binary64 has. -/
def Exact (n : Int) : Prop := n < Word64.signedLimit ∨ 2048 ∣ n

theorem Denotes.unique {v : SqlValue} {m n : Int} (first : v.Denotes m) (second : v.Denotes n) :
    m = n := by
  cases first with
  | int => cases second with | int => rfl
  | float value =>
      cases second with
      | float value' =>
          have nonzero : (Binary64.unitsPerOne : Int) ≠ 0 :=
            Int.natCast_ne_zero.mpr (Nat.ne_of_gt Binary64.unitsPerOne_pos)
          exact Int.eq_of_mul_eq_mul_right nonzero (value.symm.trans value')

theorem bound_of_lt {n : Int} (small : n < Word64.signedLimit) : bound n = n := if_pos small

theorem bound_of_le {n : Nat} (large : 2 ^ 63 ≤ n) : bound n = nearestMultiple 2048 n := by
  rw [bound, if_neg (Number.not_lt_signedLimit.mpr large), Int.toNat_natCast]

theorem bound_eq_self {n : Int} : bound n = n ↔ Exact n := by
  rcases Number.lt_or_exists_nat n with small | ⟨k, rfl, large⟩
  · simp [bound_of_lt small, Exact, small]
  · rw [bound_of_le large, Int.natCast_inj, nearestMultiple_eq_self (by decide), Exact,
      or_iff_right (Number.not_lt_signedLimit.mpr large)]
    exact Int.natCast_dvd_natCast.symm

theorem exact_bound (n : Int) : Exact (bound n) := by
  rcases Number.lt_or_exists_nat n with small | ⟨k, rfl, large⟩
  · rw [bound_of_lt small]
    exact .inl small
  · rw [bound_of_le large]
    exact .inr (Int.natCast_dvd_natCast.mpr (dvd_nearestMultiple 2048 k))

/-- The value of an integer below `2 ^ 63`. -/
theorem ofJson_of_lt {n : Int} (small : n < Word64.signedLimit) : ofJson (.ofInt n) = int n :=
  if_pos small

/-- The value of an integer from `2 ^ 63` on. -/
theorem ofJson_of_le {n : Nat} (large : 2 ^ 63 ≤ n) (held : n < 2 ^ 64) :
    ∃ x, ofJson (.ofInt n) = float (.finite x) ∧ x.negative = false ∧
      x.place = Binary64.nearestPlace n 1 ∧
      x.units = nearestMultiple 2048 n * Binary64.unitsPerOne := by
  obtain ⟨x, number, rest⟩ := Binary64.ofInt?_large large held
  have beyond := Number.not_lt_signedLimit.mpr large
  exact ⟨x, by simp [ofJson, Json.ofInt, ofNumber, beyond, number], rest⟩

/-- The value of an integer of JSON is the integer that is bound for it. -/
theorem denotes_ofJson {n : Int} (held : Number.Held n) :
    (ofJson (.ofInt n)).Denotes (bound n) := by
  rcases held.small_or_large with small | ⟨k, rfl, large, below⟩
  · rw [ofJson_of_lt small, bound_of_lt small]
    exact .int n
  · obtain ⟨x, value, positive, -, units⟩ := ofJson_of_le large below
    rw [value, bound_of_le large]
    refine .float ?_
    rw [positive, if_neg Bool.false_ne_true, units, Int.natCast_mul]

/-- What is bound for a large integer is large, too. -/
theorem signedLimit_le_bound {n : Nat} (large : 2 ^ 63 ≤ n) (below : n < 2 ^ 64) :
    (Word64.signedLimit : Int) ≤ bound n := by
  have least := (Binary64.nearestMultiple_large large below).1
  have product := Nat.mul_div_cancel' (dvd_nearestMultiple 2048 n)
  rw [bound_of_le large]
  simp only [Word64.signedLimit, Binary64.binadeSize] at *
  omega

/-- Integers have the same value if the same integer is bound for them. -/
theorem same_ofJson {m n : Int} (heldM : Number.Held m) (heldN : Number.Held n) :
    (ofJson (.ofInt m)).same (ofJson (.ofInt n)) = true ↔ bound m = bound n := by
  rcases heldM.small_or_large with smallM | ⟨j, rfl, largeM, belowM⟩
  · rcases heldN.small_or_large with smallN | ⟨k, rfl, largeN, belowN⟩
    · simp [ofJson_of_lt smallM, ofJson_of_lt smallN, bound_of_lt smallM, bound_of_lt smallN, same]
    · obtain ⟨y, valueN, -⟩ := ofJson_of_le largeN belowN
      have apart := signedLimit_le_bound largeN belowN
      rw [ofJson_of_lt smallM, valueN, bound_of_lt smallM]
      simp only [same, Bool.false_eq_true, false_iff]
      omega
  · obtain ⟨x, valueM, signM, placeM, -⟩ := ofJson_of_le largeM belowM
    rcases heldN.small_or_large with smallN | ⟨k, rfl, largeN, belowN⟩
    · have apart := signedLimit_le_bound largeM belowM
      rw [ofJson_of_lt smallN, valueM, bound_of_lt smallN]
      simp only [same, Bool.false_eq_true, false_iff]
      omega
    · obtain ⟨y, valueN, signN, placeN, -⟩ := ofJson_of_le largeN belowN
      rw [valueM, valueN, bound_of_le largeM, bound_of_le largeN, Int.natCast_inj,
        ← Binary64.nearestPlace_eq_iff largeM belowM largeN belowN, ← placeM, ← placeN]
      simp [same, Binary64.Datum.sameNumber, Binary64.sameNumber, signM, signN]

end SqlValue

/-! ### The values of lists -/

namespace Leaf

open SqlValue (Denotes bound)

theorem listValues_integers (localType : LocalType) (ns : List Int) :
    listValues localType (.array (ns.map .ofInt)) = ns.map fun n => SqlValue.ofJson (.ofInt n) := by
  induction ns with
  | nil => rfl
  | cons n ns ih => exact congrArg (_ :: ·) ih

/-- A value is among those of some integers if the integer that is bound is among those bound for
them. -/
theorem any_same_iff {seen : List Int} {n : Int} (heldSeen : ∀ m ∈ seen, Number.Held m)
    (held : Number.Held n) :
    ((seen.map fun m => SqlValue.ofJson (.ofInt m)).any (·.same (.ofJson (.ofInt n))) = true) ↔
      bound n ∈ seen.map bound := by
  simp only [List.any_map, List.any_eq_true, List.mem_map, Function.comp_apply]
  exact exists_congr fun m =>
    and_congr_right fun mem => SqlValue.same_ofJson (heldSeen m mem) held

/-- The first occurrences of values are those of the integers that are bound. -/
theorem denotes_distinctAfter {seen ns : List Int} (heldSeen : ∀ n ∈ seen, Number.Held n)
    (held : ∀ n ∈ ns, Number.Held n) :
    List.Forall₂ Denotes
      (distinctAfter (seen.map fun n => .ofJson (.ofInt n)) (ns.map fun n => .ofJson (.ofInt n)))
      ((ns.map bound).removeAll (seen.map bound)).eraseDups := by
  -- On the list, with the values kept so far as those of the integers seen: a value is left out if
  -- its integer is bound for one of them.
  induction ns generalizing seen with
  | nil => exact .nil
  | cons n ns ih =>
      obtain ⟨heldFirst, heldRest⟩ := List.forall_mem_cons.mp held
      have merged := any_same_iff heldSeen heldFirst
      rw [List.map_cons, List.map_cons, distinctAfter, List.cons_removeAll]
      by_cases mem : bound n ∈ seen.map bound
      · rw [if_pos (merged.mpr mem), if_neg (by simpa using mem)]
        exact ih heldSeen heldRest
      · have heldMore : ∀ m ∈ seen ++ [n], Number.Held m :=
          List.forall_mem_append.mpr ⟨heldSeen, List.forall_mem_singleton.mpr heldFirst⟩
        have fewer : ((ns.map bound).removeAll (seen.map bound)).filter (fun m => !m == bound n) =
            (ns.map bound).removeAll ((seen ++ [n]).map bound) := by
          simp [List.removeAll, List.filter_filter, beq_eq_decide, Bool.and_comm]
        have later := ih heldMore heldRest
        rw [List.map_append, List.map_singleton] at later
        rw [if_neg (mt merged.mp mem), if_pos (by simpa using mem), List.eraseDups_cons, fewer]
        exact .cons (SqlValue.denotes_ofJson heldFirst) later

/-- The values of `_in` and `_nin` for an array of integers. -/
theorem denotes_distinct (localType : LocalType) {ns : List Int} (held : ∀ n ∈ ns, Number.Held n) :
    List.Forall₂ Denotes (distinct (listValues localType (.array (ns.map .ofInt))))
      (ns.map bound).eraseDups := by
  rw [listValues_integers]
  simpa [distinct, List.removeAll] using denotes_distinctAfter (List.forall_mem_nil _) held

end Leaf

namespace SqlValue

/-- Nothing is lost of the integers of a list if all of them are exact. -/
theorem eraseDups_bound {ns : List Int} :
    ns.eraseDups = (ns.map bound).eraseDups ↔ ∀ n ∈ ns, Exact n := by
  constructor
  · intro same n mem
    rw [← List.mem_eraseDups, same, List.mem_eraseDups, List.mem_map] at mem
    obtain ⟨m, -, rfl⟩ := mem
    exact exact_bound m
  · intro exact
    rw [List.map_congr_left fun n mem => bound_eq_self.mpr (exact n mem), List.map_id']

/-- The value of an integer of JSON is the integer that is bound for it, so it is the integer itself
exactly if that is below `2 ^ 63` or a multiple of 2048, and two integers have the same value exactly
if the same is bound for them. The values of `_in` and `_nin` for an array of integers are the
distinct ones of those that are bound; they are the distinct integers of the array exactly if all
of its integers are bound as they are. -/
theorem ofJson_integers {m n : Int} {ns : List Int} (heldM : Number.Held m) (heldN : Number.Held n)
    (held : ∀ k ∈ ns, Number.Held k) (column : ColumnRef) (localType : LocalType) :
    (ofJson (.ofInt n)).Denotes (bound n) ∧
    ((ofJson (.ofInt n)).Denotes n ↔ Exact n) ∧
    ((ofJson (.ofInt m)).same (ofJson (.ofInt n)) = true ↔ bound m = bound n) ∧
    ∃ values,
      Leaf.predicate column localType .isIn (.array (ns.map .ofInt)) =
        .ok (.inList column values false) ∧
      Leaf.predicate column localType .notIn (.array (ns.map .ofInt)) =
        .ok (.inList column values true) ∧
      List.Forall₂ Denotes values (ns.map bound).eraseDups ∧
      (List.Forall₂ Denotes values ns.eraseDups ↔ ∀ k ∈ ns, Exact k) := by
  have denotes := denotes_ofJson heldN
  have values := Leaf.denotes_distinct localType held
  refine ⟨denotes, ?_, same_ofJson heldM heldN, _, rfl, rfl, values, ?_⟩
  · rw [← bound_eq_self]
    constructor
    · exact denotes.unique
    · intro same
      rwa [same] at denotes
  · rw [← eraseDups_bound]
    constructor
    · intro exact
      exact List.right_unique_forall₂' (fun _ _ _ first second => first.unique second) exact values
    · intro same
      rwa [same]

/-- Small integers and large multiples of 2048 are bound as they are, also in lists. -/
theorem ofJson_integers_multiples :
    (∀ k ∈ [9223372036854775808, -1, 9223372036854777856], Number.Held k) ∧
    (ofJson (.ofInt 9223372036854775808)).same (ofJson (.ofInt 9223372036854777856)) = false ∧
    ∃ values,
      Leaf.predicate ⟨"books", "isbn"⟩ .numeric .notIn
          (.array ([9223372036854775808, -1, 9223372036854777856].map .ofInt)) =
        .ok (.inList ⟨"books", "isbn"⟩ values true) ∧
      List.Forall₂ Denotes values [9223372036854775808, -1, 9223372036854777856] := by
  have held : ∀ k ∈ [9223372036854775808, -1, 9223372036854777856], Number.Held k := by decide
  obtain ⟨-, -, same, values, -, notIn, denote, -⟩ :=
    ofJson_integers (held 9223372036854775808 (by simp)) (held 9223372036854777856 (by simp)) held
      ⟨"books", "isbn"⟩ .numeric
  have apart : ¬ bound 9223372036854775808 = bound 9223372036854777856 := by decide +kernel
  have all : ([9223372036854775808, -1, 9223372036854777856].map bound).eraseDups =
      [9223372036854775808, -1, 9223372036854777856] := by decide +kernel
  exact ⟨held, Bool.eq_false_iff.mpr (mt same.mp apart), values, notIn, all ▸ denote⟩

/-- The least integer that needs sixty-four bits and the next one have the same value, and a list of
both has no other one. -/
theorem ofJson_merges :
    Number.Held 9223372036854775808 ∧ Number.Held 9223372036854775809 ∧
    ¬ (ofJson (.ofInt 9223372036854775809)).Denotes 9223372036854775809 ∧
    (ofJson (.ofInt 9223372036854775808)).same (ofJson (.ofInt 9223372036854775809)) = true ∧
    ∃ v, v.Denotes 9223372036854775808 ∧
      Leaf.predicate ⟨"books", "isbn"⟩ .numeric .isIn
          (.array ([9223372036854775808, 9223372036854775809].map .ofInt)) =
        .ok (.inList ⟨"books", "isbn"⟩ [v] false) := by
  have held : ∀ k ∈ [9223372036854775808, 9223372036854775809], Number.Held k := by decide
  have heldM := held 9223372036854775808 (by simp)
  have heldN := held 9223372036854775809 (by simp)
  have merged : bound 9223372036854775808 = bound 9223372036854775809 := by decide +kernel
  have wrong : ¬ bound 9223372036854775809 = 9223372036854775809 := by decide +kernel
  have one : ([9223372036854775808, 9223372036854775809].map bound).eraseDups =
      [9223372036854775808] := by decide +kernel
  have denote := Leaf.denotes_distinct .numeric held
  rw [one] at denote
  obtain ⟨v, _, denotes, rest, value⟩ := List.forall₂_cons_right_iff.mp denote
  obtain rfl := List.forall₂_nil_right_iff.mp rest
  have list : Leaf.predicate ⟨"books", "isbn"⟩ .numeric .isIn
      (.array ([9223372036854775808, 9223372036854775809].map .ofInt)) =
        .ok (.inList ⟨"books", "isbn"⟩ [v] false) := by
    rw [← value]
    rfl
  exact ⟨heldM, heldN, fun exact => wrong ((denotes_ofJson heldN).unique exact),
    (same_ofJson heldM heldN).mpr merged, v, denotes, list⟩

end SqlValue

end FilterSql
