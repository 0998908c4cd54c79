import FilterSql.Compile.Filter
import FilterSql.Proofs.Statement
import Mathlib.Algebra.Group.End

/-!
Statements with their qualifiers renamed.

A renaming goes into joins, conditions and the statements inside conditions, and changes what
columns are qualified by and what joins are called; collections and columns keep their names. A test
of a column becomes the same test of the renamed column (`Leaf.IsTest.rename_eq`). Different aliases
can be renamed to any different ones, one-to-one, while names that are none of them stay as they are
(`exists_perm_map_eq`).
-/

namespace FilterSql

variable (ρ : String → String)

/-- A column with its qualifier renamed. -/
def ColumnRef.rename (c : ColumnRef) : ColumnRef := ⟨ρ c.table, c.column⟩

/-- A join with its alias and the qualifiers of its columns renamed. -/
def Join.rename (j : Join) : Join := ⟨j.table, ρ j.qualifier, j.left.rename ρ, j.right.rename ρ⟩

/-- An entry of an ordering with the qualifier of its column renamed. -/
def OrderEntry.rename (o : OrderEntry) : OrderEntry := ⟨o.column.rename ρ, o.descending⟩

namespace Predicate

mutual

/-- A condition with all qualifiers renamed, those of the statements inside it included. -/
def rename : Predicate → Predicate
  | .and items => .and (renameAll items)
  | .or items => .or (renameAll items)
  | .compare column op value => .compare (column.rename ρ) op value
  | .like column pattern negated insensitive =>
    .like (column.rename ρ) pattern negated insensitive
  | .inList column values negated => .inList (column.rename ρ) values negated
  | .between column low high negated => .between (column.rename ρ) low high negated
  | .isNull column negated => .isNull (column.rename ρ) negated
  | .inSelect column select => .inSelect (column.rename ρ) (renameSelect select)

/-- Several conditions with all qualifiers renamed. -/
def renameAll : List Predicate → List Predicate
  | [] => []
  | p :: rest => rename p :: renameAll rest

/-- A statement with all qualifiers renamed. -/
def renameSelect : SelectOf Predicate → SelectOf Predicate
  | ⟨collection, columns, joins, predicates, orderBy, limit, offset⟩ =>
    ⟨collection, columns, joins.map (·.rename ρ), renameAll predicates,
      orderBy.map (·.rename ρ), limit, offset⟩

end

@[simp] theorem renameAll_eq_map (ps : List Predicate) : renameAll ρ ps = ps.map (·.rename ρ) := by
  induction ps with
  | nil => rfl
  | cons p rest ih => simp [renameAll, ih]

@[simp] theorem rename_group (op : Connective) (items : List Predicate) :
    (group op items).rename ρ = group op (items.map (·.rename ρ)) := by
  cases op <;> rcases items with _ | ⟨p, _ | ⟨q, rest⟩⟩ <;> simp [group, rename]

end Predicate

/-- A statement with all qualifiers renamed. -/
def Select.rename (s : Select) : Select :=
  { s with
    joins := s.joins.map (·.rename ρ)
    predicates := s.predicates.map (·.rename ρ)
    orderBy := s.orderBy.map (·.rename ρ) }

@[simp] theorem Predicate.renameSelect_eq (s : Select) : renameSelect ρ s = s.rename ρ := by
  cases s
  simp [renameSelect, Select.rename]

/-- A compiled filter with all qualifiers renamed. -/
def CompiledFilter.rename (c : CompiledFilter) : CompiledFilter :=
  ⟨c.joins.map (·.rename ρ), c.predicate.map (·.rename ρ)⟩

/-- A test of a column becomes the same test of the renamed column. -/
theorem Leaf.IsTest.rename_eq {test : ColumnRef → Predicate} (isTest : IsTest test)
    (column : ColumnRef) : (test column).rename ρ = test (column.rename ρ) := by
  cases isTest <;> simp [Predicate.rename, Predicate.isEmpty, Predicate.isNotEmpty]

@[simp] theorem Compile.map_rename_conjunction (ps : List Predicate) :
    (conjunction ps).map (·.rename ρ) = conjunction (ps.map (·.rename ρ)) := by
  cases ps <;> simp [conjunction]

/-- Different names can be renamed to any different ones, one-to-one, while names that are none of
them stay as they are. -/
theorem exists_perm_map_eq {fixed as bs : List String} (count : as.length = bs.length)
    (nodup₁ : as.Nodup) (nodup₂ : bs.Nodup) (other₁ : ∀ a ∈ as, a ∉ fixed)
    (other₂ : ∀ b ∈ bs, b ∉ fixed) :
    ∃ ρ : Equiv.Perm String, (∀ n ∈ fixed, ρ n = n) ∧ as.map ρ = bs := by
  induction as generalizing bs with
  | nil =>
      obtain rfl := List.eq_nil_of_length_eq_zero count.symm
      exact ⟨1, fun _ _ => rfl, rfl⟩
  | cons a as ih =>
      cases bs with
      | nil => cases count
      | cons b bs =>
          rw [List.nodup_cons] at nodup₁ nodup₂
          rw [List.forall_mem_cons] at other₁ other₂
          obtain ⟨ρ, fixes, rfl⟩ :=
            ih (Nat.succ.inj count) nodup₁.2 nodup₂.2 other₁.2 other₂.2
          -- what the first name is taken to is exchanged for what it has to be taken to
          refine ⟨Equiv.swap (ρ a) b * ρ, ?_, ?_⟩
          · intro n mem
            have kept : ρ n = n := fixes n mem
            rw [Equiv.Perm.mul_apply, kept]
            refine Equiv.swap_apply_of_ne_of_ne ?_ ?_
            · intro same
              have : n = a := ρ.injective (kept.trans same)
              exact other₁.1 (this ▸ mem)
            · rintro rfl
              exact other₂.1 mem
          · rw [List.map_cons, Equiv.Perm.mul_apply, Equiv.swap_apply_left]
            congr 1
            refine List.map_congr_left fun c mem => ?_
            rw [Equiv.Perm.mul_apply]
            refine Equiv.swap_apply_of_ne_of_ne ?_ ?_
            · intro same
              exact nodup₁.1 (ρ.injective same ▸ mem)
            · rintro rfl
              exact nodup₂.1 (List.mem_map_of_mem mem)

end FilterSql
