import FilterSql.Json.Basic
import Mathlib.Data.List.Induction
import Mathlib.Data.List.Nodup

/-!
The members of an object by their keys.

Of members with the same key the one given last is kept, in the place of the first
(`lookup_distinctMembers`). The keys that are left are pairwise different
(`nodup_distinctMembers`), and members with such keys are left as they are
(`distinctMembers_eq_self`).
-/

namespace FilterSql

namespace Json

variable {α : Type}

/-- The members with one more have the new value under its key and are the same under all others. -/
theorem lookup_insertMember (key k : String) (value : α) (members : List (String × α)) :
    (insertMember key value members).lookup k =
      if k = key then some value else members.lookup k := by
  induction members with
  | nil => by_cases same : k = key <;> simp [insertMember, same]
  | cons m rest ih =>
      obtain ⟨l, v⟩ := m
      rw [insertMember]
      by_cases found : l = key
      · subst found
        by_cases same : k = l
        · simp [same]
        · simp [List.lookup_cons, beq_false_of_ne same, same]
      · by_cases first : k = l
        · subst first
          simp [found]
        · simp [found, List.lookup_cons, beq_false_of_ne first, ih]

/-- One more member is put into the distinct ones. -/
theorem distinctMembers_append_singleton (members : List (String × α)) (key : String) (value : α) :
    distinctMembers (members ++ [(key, value)]) =
      insertMember key value (distinctMembers members) := by
  simp [distinctMembers]

/-- The value given last is the one that is kept. -/
theorem lookup_distinctMembers (members : List (String × α)) (key : String) :
    (distinctMembers members).lookup key = members.reverse.lookup key := by
  induction members using List.reverseRecOn with
  | nil => rfl
  | append_singleton members m ih =>
      obtain ⟨k, v⟩ := m
      rw [distinctMembers_append_singleton, lookup_insertMember, ih, List.reverse_append,
        List.reverse_singleton, List.singleton_append, List.lookup_cons]
      by_cases same : key = k
      · simp [same]
      · simp [same, beq_false_of_ne same]

/-- A key is put at the end unless it is there already. -/
theorem map_fst_insertMember (key : String) (value : α) (members : List (String × α)) :
    (insertMember key value members).map Prod.fst =
      if key ∈ members.map Prod.fst then members.map Prod.fst
      else members.map Prod.fst ++ [key] := by
  induction members with
  | nil => rfl
  | cons m rest ih =>
      obtain ⟨k, v⟩ := m
      rw [insertMember]
      by_cases found : k = key
      · simp [found]
      · by_cases later : key ∈ rest.map Prod.fst <;>
          simp_all [Ne.symm found]

/-- Keys are pairwise different. -/
theorem nodup_distinctMembers (members : List (String × α)) :
    ((distinctMembers members).map Prod.fst).Nodup := by
  induction members using List.reverseRecOn with
  | nil => exact List.nodup_nil
  | append_singleton members m ih =>
      obtain ⟨k, v⟩ := m
      rw [distinctMembers_append_singleton, map_fst_insertMember]
      split
      · exact ih
      · next absent => exact List.concat_eq_append ▸ ih.concat absent

/-- Members with pairwise different keys are all kept. -/
theorem distinctMembers_eq_self {members : List (String × α)}
    (distinct : (members.map Prod.fst).Nodup) : distinctMembers members = members := by
  induction members using List.reverseRecOn with
  | nil => rfl
  | append_singleton members m ih =>
      obtain ⟨k, v⟩ := m
      rw [List.map_append, List.map_singleton, ← List.concat_eq_append, List.nodup_concat]
        at distinct
      rw [distinctMembers_append_singleton, ih distinct.2, insertMember_of_not_mem distinct.1]

theorem mem_of_mem_insertMember {key : String} {value : α} {members : List (String × α)}
    {m : String × α} (mem : m ∈ insertMember key value members) :
    m = (key, value) ∨ m ∈ members := by
  induction members with
  | nil => exact .inl (List.mem_singleton.mp mem)
  | cons first rest ih =>
      obtain ⟨k, v⟩ := first
      rw [insertMember] at mem
      split at mem
      · next same =>
          subst same
          exact (List.mem_cons.mp mem).imp_right (List.mem_cons_of_mem _)
      · rcases List.mem_cons.mp mem with same | later
        · exact .inr (same ▸ List.mem_cons_self)
        · exact (ih later).imp_right (List.mem_cons_of_mem _)

/-- The members that are kept are among those given. -/
theorem mem_of_mem_distinctMembers {members : List (String × α)} {m : String × α}
    (mem : m ∈ distinctMembers members) : m ∈ members := by
  induction members using List.reverseRecOn with
  | nil => exact mem
  | append_singleton members last ih =>
      obtain ⟨k, v⟩ := last
      rw [distinctMembers_append_singleton] at mem
      rcases mem_of_mem_insertMember mem with same | earlier
      · exact List.mem_append_right _ (same ▸ List.mem_singleton_self _)
      · exact List.mem_append_left _ (ih earlier)

end Json

end FilterSql
