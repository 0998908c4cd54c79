import FilterSql.Proofs.Alias.Letters
import Mathlib.Data.List.Nodup
import Mathlib.Data.List.Perm.Subperm

/-!
What an alias table does when it is asked for an alias.

`aliasFor_cases` is all that a call can do: an alias given out before is repeated and the table is
left alone, or a name that was not taken is given out for the first time (`Issues`). In a table that
is `Sound` aliases are given out for one key only and never equal a reserved name; soundness is kept
by each call, and so is `Grows`, which says that nothing given out is taken back. All tables that
come from a fresh one are sound (`InUse.sound`).
-/

namespace FilterSql

namespace AliasTable

/-! ### Free names -/

/-- If the search ends at a taken name, all names it passed are taken, the last one included. -/
theorem taken_of_firstFree_taken {taken : Std.TreeSet String} {fuel n : Nat}
    (stuck : encode (firstFree taken fuel n) ∈ taken) :
    ∀ i ≤ fuel, encode (n + i) ∈ taken := by
  induction fuel generalizing n with
  | zero =>
      intro i bound
      obtain rfl : i = 0 := by omega
      exact stuck
  | succ fuel ih =>
      simp only [firstFree] at stuck
      intro i bound
      split at stuck
      · next first =>
          cases i with
          | zero => exact Std.TreeSet.mem_iff_contains.mpr first
          | succ i =>
              have := ih stuck i (by omega)
              rwa [show n + (i + 1) = n + 1 + i by omega]
      · next first => exact absurd (Std.TreeSet.mem_iff_contains.mp stuck) first

/-- Among one number more than there are names taken, the search finds a free one. -/
theorem firstFree_not_taken (taken : Std.TreeSet String) (n : Nat) :
    encode (firstFree taken taken.size n) ∉ taken := by
  intro stuck
  let names := (List.range (taken.size + 1)).map fun i => encode (n + i)
  have different : names.Nodup := by
    refine List.Nodup.map ?_ List.nodup_range
    intro i j same
    have := encode_injective same
    omega
  have known : names ⊆ taken.toList := by
    intro name mem
    obtain ⟨i, bound, rfl⟩ := List.mem_map.mp mem
    have := List.mem_range.mp bound
    exact Std.TreeSet.mem_toList.mpr (taken_of_firstFree_taken stuck i (by omega))
  have count : names.length ≤ taken.toList.length := (different.subperm known).length_le
  rw [Std.TreeSet.length_toList, List.length_map, List.length_range] at count
  omega

/-- A draw that is taken is not returned. -/
theorem drawFree_not_taken (t : AliasTable) {attempts drawn later : Nat} {name : String}
    (drew : t.drawFree attempts drawn = (some name, later)) : name ∉ t.taken := by
  induction attempts generalizing drawn with
  | zero => simp [drawFree] at drew
  | succ k ih =>
      simp only [drawFree] at drew
      split at drew
      · next free =>
          cases drew
          intro mem
          simp [isFree, Std.TreeSet.contains_iff_mem.mpr mem] at free
      · exact ih drew

/-- The next alias is a free name, and choosing it gives out nothing. -/
theorem next_spec (t : AliasTable) :
    t.next.1 ∉ t.taken ∧ t.next.2.taken = t.taken ∧ t.next.2.issued = t.issued ∧
      t.next.2.nextScope = t.nextScope := by
  unfold next
  split
  · exact ⟨firstFree_not_taken _ _, rfl, rfl, rfl⟩
  · split
    · next drew => exact ⟨drawFree_not_taken t drew, rfl, rfl, rfl⟩
    · exact ⟨firstFree_not_taken _ _, rfl, rfl, rfl⟩

/-! ### What a call does -/

/-- A name that was not taken is given out for a key that had none. -/
structure Issues (t : AliasTable) (key : AliasKey) (name : String) (t' : AliasTable) : Prop where
  unissued : t.issued[key]? = none
  free : name ∉ t.taken
  issued : ∀ k, t'.issued[k]? = if k = key then some name else t.issued[k]?
  taken : ∀ a, a ∈ t'.taken ↔ a = name ∨ a ∈ t.taken
  nextScope : t'.nextScope = t.nextScope

/-- An alias given out before is repeated. -/
theorem aliasFor_of_issued {t : AliasTable} {key : AliasKey} {name : String}
    (known : t.issued[key]? = some name) : t.aliasFor key = ((name, false), t) := by
  simp [aliasFor, known]

/-- A key without an alias gets a new one. -/
theorem aliasFor_of_unissued {t : AliasTable} {key : AliasKey}
    (unknown : t.issued[key]? = none) :
    ∃ t', t.aliasFor key = ((t.next.1, true), t') ∧ Issues t key t.next.1 t' := by
  obtain ⟨free, taken, issued, scopes⟩ := next_spec t
  refine ⟨{ t.next.2 with
      issued := t.next.2.issued.insert key t.next.1, taken := t.next.2.taken.insert t.next.1 },
    by simp only [aliasFor, unknown], unknown, free, ?_, ?_, scopes⟩
  · intro k
    rw [Std.TreeMap.getElem?_insert, issued]
    by_cases same : k = key
    · simp [same]
    · have apart : ¬ compare key k = .eq := by
        intro equal
        exact same (Std.LawfulEqCmp.eq_of_compare equal).symm
      simp [same, apart]
  · intro a
    rw [Std.TreeSet.mem_insert, taken, Std.compare_eq_iff_eq, eq_comm]

/-- All that a call does. -/
theorem aliasFor_cases (t : AliasTable) (key : AliasKey) :
    (∃ name, t.issued[key]? = some name ∧ t.aliasFor key = ((name, false), t)) ∨
      ∃ t', t.aliasFor key = ((t.next.1, true), t') ∧ Issues t key t.next.1 t' := by
  cases known : t.issued[key]? with
  | some name => exact .inl ⟨name, rfl, aliasFor_of_issued known⟩
  | none => exact .inr (aliasFor_of_unissued known)

/-! ### Tables that grow -/

/-- Nothing given out is taken back. -/
structure Grows (t t' : AliasTable) : Prop where
  issued : ∀ {k : AliasKey} {a : String}, t.issued[k]? = some a → t'.issued[k]? = some a
  taken : ∀ {a : String}, a ∈ t.taken → a ∈ t'.taken
  scopes : t.nextScope ≤ t'.nextScope

namespace Grows

theorem refl (t : AliasTable) : t.Grows t := ⟨id, id, Nat.le_refl _⟩

theorem trans {t t' t'' : AliasTable} (first : t.Grows t') (second : t'.Grows t'') :
    t.Grows t'' where
  issued old := second.issued (first.issued old)
  taken old := second.taken (first.taken old)
  scopes := Nat.le_trans first.scopes second.scopes

end Grows

theorem Issues.grows {t t' : AliasTable} {key : AliasKey} {name : String}
    (h : Issues t key name t') : t.Grows t' where
  issued {k a} old := by
    have other : k ≠ key := by
      rintro rfl
      simp [h.unissued] at old
    rw [h.issued, if_neg other, old]
  taken old := (h.taken _).mpr (.inr old)
  scopes := Nat.le_of_eq h.nextScope.symm

theorem grows_newScope (t : AliasTable) : t.Grows t.newScope.2 := ⟨id, id, Nat.le_succ _⟩

/-! ### Sound tables -/

/-- Each alias belongs to one key and is no reserved name. -/
structure Sound (reserved : List String) (t : AliasTable) : Prop where
  reserved_taken : ∀ a ∈ reserved, a ∈ t.taken
  issued_taken : ∀ {k : AliasKey} {a : String}, t.issued[k]? = some a → a ∈ t.taken
  issued_unreserved : ∀ {k : AliasKey} {a : String}, t.issued[k]? = some a → a ∉ reserved
  injective : ∀ {k l : AliasKey} {a : String}, t.issued[k]? = some a → t.issued[l]? = some a → k = l
  opened : ∀ {k : AliasKey} {a : String}, t.issued[k]? = some a → k.scope < t.nextScope

theorem sound_fresh (strategy : AliasStrategy) (draws : Nat → Nat) (reserved : List String) :
    (fresh strategy draws reserved).Sound reserved where
  reserved_taken a mem := by
    simpa [fresh, Std.TreeSet.mem_ofList] using mem
  issued_taken h := by simp [fresh] at h
  issued_unreserved h := by simp [fresh] at h
  injective h := by simp [fresh] at h
  opened h := by simp [fresh] at h

theorem Issues.sound {reserved : List String} {t t' : AliasTable} {key : AliasKey} {name : String}
    (h : Issues t key name t') (opened : key.scope < t.nextScope) (old : t.Sound reserved) :
    t'.Sound reserved where
  reserved_taken a mem := h.grows.taken (old.reserved_taken a mem)
  issued_taken {k a} known := by
    rw [h.issued] at known
    split at known
    · cases known
      exact (h.taken _).mpr (.inl rfl)
    · exact h.grows.taken (old.issued_taken known)
  issued_unreserved {k a} known := by
    rw [h.issued] at known
    split at known
    · cases known
      intro mem
      exact h.free (old.reserved_taken _ mem)
    · exact old.issued_unreserved known
  injective {k l a} first second := by
    rw [h.issued] at first second
    split at first <;> split at second
    · next hk hl => rw [hk, hl]
    · cases first
      exact absurd (old.issued_taken second) h.free
    · cases second
      exact absurd (old.issued_taken first) h.free
    · exact old.injective first second
  opened {k a} known := by
    rw [h.nextScope]
    rw [h.issued] at known
    split at known
    · next same => exact same ▸ opened
    · exact old.opened known

theorem Sound.newScope {reserved : List String} {t : AliasTable} (old : t.Sound reserved) :
    t.newScope.2.Sound reserved where
  reserved_taken := old.reserved_taken
  issued_taken := old.issued_taken
  issued_unreserved := old.issued_unreserved
  injective := old.injective
  opened known := Nat.lt_succ_of_lt (old.opened known)

/-- A table that never gives out some names never gives out fewer of them. -/
theorem Sound.mono {reserved fewer : List String} {t : AliasTable} (sound : t.Sound reserved)
    (sub : fewer ⊆ reserved) : t.Sound fewer where
  reserved_taken a mem := sound.reserved_taken a (sub mem)
  issued_taken := sound.issued_taken
  issued_unreserved known mem := sound.issued_unreserved known (sub mem)
  injective := sound.injective
  opened := sound.opened

/-! ### Tables in use -/

/-- A fresh table, after scopes were opened and aliases asked for in scopes that are open. -/
inductive InUse (reserved : List String) : AliasTable → Prop where
  | fresh (strategy : AliasStrategy) (draws : Nat → Nat) :
      InUse reserved (fresh strategy draws reserved)
  | newScope {t : AliasTable} (used : InUse reserved t) : InUse reserved t.newScope.2
  | aliasFor {t : AliasTable} {key : AliasKey} (used : InUse reserved t)
      (opened : key.scope < t.nextScope) : InUse reserved (t.aliasFor key).2

theorem InUse.sound {reserved : List String} {t : AliasTable} (used : t.InUse reserved) :
    t.Sound reserved := by
  induction used with
  | fresh strategy draws => exact sound_fresh strategy draws reserved
  | newScope _ ih => exact ih.newScope
  | @aliasFor t key _ opened ih =>
      rcases t.aliasFor_cases key with ⟨name, -, call⟩ | ⟨t', call, issues⟩
      · rwa [call]
      · rw [call]
        exact issues.sound opened ih

/-- The scope of a whole statement is open from the start. -/
theorem InUse.root_opened {reserved : List String} {t : AliasTable} (used : t.InUse reserved) :
    0 < t.nextScope := by
  induction used with
  | fresh strategy draws => exact Nat.one_pos
  | newScope _ ih => exact Nat.lt_succ_of_lt ih
  | @aliasFor t key _ _ ih =>
      rcases t.aliasFor_cases key with ⟨name, -, call⟩ | ⟨t', call, issues⟩
      · rwa [call]
      · rwa [call, issues.nextScope]

end AliasTable

end FilterSql
