import FilterSql.Proofs.Alias.Table
import FilterSql.Proofs.Route
import Mathlib.Data.List.Induction

/-!
The names of hop sequences.

A hop sequence is named by following the issued aliases from the collection that a scope starts with
(`AliasTable.name?`). Names stay as they are while the table grows, and in a sound table different
hop sequences have different names (`name?_injective`).
-/

namespace FilterSql

namespace AliasTable

/-- The alias that hops lead to in a scope, if aliases are issued for all of them. -/
def name? (t : AliasTable) (scope : Nat) (root : String) (hops : List String) : Option String :=
  hops.foldl (fun name field => name.bind fun a => t.issued[(⟨scope, a, field⟩ : AliasKey)]?)
    (some root)

/-- The names of hop sequences; the name of one without a name is of no interest. -/
def naming (t : AliasTable) (scope : Nat) (root : String) (hops : List String) : String :=
  (t.name? scope root hops).getD ""

variable {t t' : AliasTable} {scope : Nat} {root : String}

theorem name?_snoc (hops : List String) (field : String) :
    t.name? scope root (hops ++ [field]) =
      (t.name? scope root hops).bind fun a => t.issued[(⟨scope, a, field⟩ : AliasKey)]? := by
  simp [name?]

theorem naming_eq {hops : List String} {a : String} (named : t.name? scope root hops = some a) :
    t.naming scope root hops = a := by
  simp [naming, named]

theorem Grows.name? (grows : t.Grows t') {hops : List String} {a : String}
    (named : t.name? scope root hops = some a) : t'.name? scope root hops = some a := by
  induction hops using List.reverseRecOn generalizing a with
  | nil => exact named
  | append_singleton hops field ih =>
      rw [name?_snoc, Option.bind_eq_some_iff] at named
      obtain ⟨b, before, last⟩ := named
      rw [name?_snoc, ih before]
      exact grows.issued last

/-- The name of a proper hop sequence is an issued alias. -/
theorem issued_of_name? {hops : List String} {a : String} (proper : hops ≠ [])
    (named : t.name? scope root hops = some a) :
    ∃ key : AliasKey, t.issued[key]? = some a := by
  obtain ⟨before, field, rfl⟩ := List.eq_nil_or_concat hops |>.resolve_left proper
  rw [List.concat_eq_append, name?_snoc, Option.bind_eq_some_iff] at named
  obtain ⟨b, -, last⟩ := named
  exact ⟨_, last⟩

/-- The name of a proper hop sequence is not reserved, so it is not that of the root. -/
theorem Sound.name?_unreserved {reserved : List String} (sound : t.Sound reserved)
    {hops : List String} {a : String} (proper : hops ≠ [])
    (named : t.name? scope root hops = some a) : a ∉ reserved := by
  obtain ⟨key, issued⟩ := issued_of_name? proper named
  exact sound.issued_unreserved issued

theorem Sound.name?_injective {reserved : List String} (sound : t.Sound reserved)
    (rooted : root ∈ reserved) {p q : List String} {a : String}
    (first : t.name? scope root p = some a) (second : t.name? scope root q = some a) : p = q := by
  induction p using List.reverseRecOn generalizing q a with
  | nil =>
      cases first
      by_contra proper
      exact sound.name?_unreserved (Ne.symm proper) second rooted
  | append_singleton p field ih =>
      rcases List.eq_nil_or_concat q with rfl | ⟨q, field', rfl⟩
      · cases second
        exact absurd rooted (sound.name?_unreserved (by simp) first)
      · rw [List.concat_eq_append] at second ⊢
        rw [name?_snoc, Option.bind_eq_some_iff] at first second
        obtain ⟨b, before, last⟩ := first
        obtain ⟨c, before', last'⟩ := second
        have keys := sound.injective last last'
        cases keys
        rw [ih before before']

end AliasTable

end FilterSql
