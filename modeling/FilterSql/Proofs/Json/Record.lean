import FilterSql.Json.Decode
import FilterSql.Proofs.Conditions

/-!
What a record holds under a key.

A reader of records gathers the members of an object, or the items of an array, one by one. A field
that is read into a slot of its own (`Json.Shape.Keeps`) ends up with what is read from the member
of that key, whatever the other members are and wherever they stand (`Json.Shape.Keeps.reads`).
-/

namespace FilterSql

namespace Json

variable {σ α β : Type}

/-- The value of a record under a key: the member of an object, or the item of an array at the place
of the key among the keys. -/
def Source.member? (keys : List String) (key : String) : Source → Option Source
  | .object members _ => members.lookup (some key)
  | .array items _ => items[keys.idxOf key]?
  | _ => none

/-- What is read from a value that may be left out. -/
inductive Reads (read : Reader β) : Option Source → Option β → Prop where
  | absent : Reads read none none
  | present {x : Source} {v : β} (value : read x = .ok v) : Reads read (some x) (some v)

/-- A value other than null that is read under a key stands there. -/
theorem Reads.of_getD_eq_some {read : Reader (Option β)} {x : Option Source}
    {given : Option (Option β)} (reads : Reads read x given) {b : β}
    (some : given.getD none = .some b) : ∃ y, x = .some y ∧ read y = .ok (.some b) := by
  cases reads with
  | absent => cases some
  | present value => exact ⟨_, rfl, value.trans (congrArg _ some)⟩

/-- A value that may be null is null or can be read. -/
theorem Reader.optional_eq_ok {read : Reader β} {x : Source} {v : Option β}
    (value : Reader.optional read x = .ok v) :
    (x = .null ∧ v = none) ∨ ∃ a, read x = .ok a ∧ v = some a := by
  unfold Reader.optional at value
  split at value
  · cases value; exact .inl ⟨rfl, rfl⟩
  · cases made : read x with
    | error => rw [made] at value; cases value
    | ok a => rw [made] at value; cases value; exact .inr ⟨a, rfl, rfl⟩

/-- A value that may be null and is not is read as such. -/
theorem Reader.optional_of_ne_null (read : Reader β) {x : Source} (other : x ≠ .null) :
    Reader.optional read x = (read x).map some := by
  cases x with
  | null => exact absurd rfl other
  | _ => rfl

/-- A field is read into a slot. -/
structure Field.Fills (field : Field σ) (slot : σ → Option β) (read : Reader β) : Prop where
  isSet : ∀ s, field.isSet s = (slot s).isSome
  set : ∀ s x s', field.set s x = .ok s' → ∃ v, read x = .ok v ∧ slot s' = some v

/-- A field is not read into a slot. -/
def Field.Leaves (field : Field σ) (slot : σ → Option β) : Prop :=
  ∀ s x s', field.set s x = .ok s' → slot s' = slot s

/-- A field that is read and then put fills the slot that it is put into. -/
theorem Field.fills {name : String} {required : Bool} {slot : σ → Option β} {read : Reader β}
    {put : σ → β → σ} (own : ∀ s v, slot (put s v) = some v) :
    Field.Fills ⟨name, required, fun s => (slot s).isSome, fun s x => return put s (← read x)⟩ slot
      read where
  isSet _ := rfl
  set s x s' filled := by
    obtain ⟨v, value, same⟩ := Filter.bind_eq_ok filled
    cases same
    exact ⟨v, value, own s v⟩

/-- A field that is read and then put leaves the other slots as they are. -/
theorem Field.leaves {name : String} {required : Bool} {isSet : σ → Bool} {γ : Type}
    {slot : σ → Option β} {read : Reader γ} {put : σ → γ → σ}
    (other : ∀ s v, slot (put s v) = slot s) :
    Field.Leaves ⟨name, required, isSet, fun s x => return put s (← read x)⟩ slot := by
  intro s x s' filled
  obtain ⟨v, -, same⟩ := Filter.bind_eq_ok filled
  cases same
  exact other s v

namespace Shape

variable {shape : Shape σ α} {key : String} {slot : σ → Option β} {read : Reader β}

/-- The keys of a record in order. -/
def keys (shape : Shape σ α) : List String := shape.fields.map (·.name)

/-- A field of a record is kept in a slot, which is empty at first and which no other field is read
into. -/
structure Keeps (shape : Shape σ α) (key : String) (slot : σ → Option β) (read : Reader β) :
    Prop where
  mem : key ∈ shape.keys
  distinct : shape.keys.Nodup
  empty : slot shape.start = none
  fills : ∀ field ∈ shape.fields, field.name = key → field.Fills slot read
  leaves : ∀ field ∈ shape.fields, field.name ≠ key → field.Leaves slot

/-- A field with a key of its own that is read into a slot is kept there if the others leave it as
it is. -/
theorem Keeps.of_fields {field : Field σ} (before : List (Field σ)) {after : List (Field σ)}
    (fields : shape.fields = before ++ field :: after) (named : field.name = key)
    (distinct : shape.keys.Nodup) (empty : slot shape.start = none)
    (fills : field.Fills slot read) (leaves : ∀ other ∈ before ++ after, other.Leaves slot) :
    shape.Keeps key slot read := by
  subst named
  have names : shape.keys = before.map (·.name) ++ field.name :: after.map (·.name) := by
    simp [keys, fields]
  have others : field.name ∉ before.map (·.name) ++ after.map (·.name) :=
    (List.nodup_cons.mp (List.perm_middle.nodup_iff.mp (names ▸ distinct))).1
  have only : ∀ other ∈ shape.fields, other = field ∨ other ∈ before ++ after := by
    intro other mem
    rw [fields] at mem
    exact List.mem_cons.mp (List.perm_middle.mem_iff.mp mem)
  refine ⟨by simp [names], distinct, empty, fun other mem named => ?_, fun other mem named => ?_⟩
  · rcases only other mem with same | mem
    · exact same ▸ fills
    · rw [← List.map_append] at others
      exact absurd (named ▸ List.mem_map_of_mem mem) others
  · rcases only other mem with same | mem
    · exact absurd (congrArg _ same) named
    · exact leaves other mem

/-- What a record is gathered into. -/
def Gathered (shape : Shape σ α) : Source → σ → Prop
  | .object members _, state => shape.gather shape.start members = .ok state
  | .array items closed, state =>
    shape.gatherItems closed shape.start 0 shape.fields items = .ok state
  | _, _ => False

/-- A record is gathered and then finished. -/
theorem gathered_of_reader {x : Source} {a : α} (made : shape.reader x = .ok a) :
    ∃ state, shape.Gathered x state ∧ shape.finish state = .ok a := by
  cases x with
  | object members closed =>
      obtain ⟨state, gathered, made⟩ := Filter.bind_eq_ok made
      cases closed with
      | true => exact ⟨state, gathered, made⟩
      | false => cases made
  | array items closed =>
      rw [reader] at made
      split at made
      · exact Filter.bind_eq_ok made
      · cases made
  | _ => cases made

/-- The field of a key that is kept is found under it. -/
theorem Keeps.find? (keeps : shape.Keeps key slot read) :
    ∃ field, shape.fields.find? (·.name == key) = some field ∧ field.Fills slot read := by
  obtain ⟨field, mem, named⟩ := List.mem_map.mp keeps.mem
  obtain ⟨first, found⟩ : ∃ first, shape.fields.find? (·.name == key) = some first :=
    Option.isSome_iff_exists.mp (List.find?_isSome.mpr ⟨field, mem, by simpa using named⟩)
  have own : first.name = key := by simpa using List.find?_some found
  exact ⟨first, found, keeps.fills first (List.mem_of_find?_eq_some found) own⟩

/-- Members are gathered in any order. The slot is filled from the one of its key, and only once. -/
theorem Keeps.gather (keeps : shape.Keeps key slot read) {members : List (Option String × Source)}
    {state state' : σ} (gathered : shape.gather state members = .ok state') :
    (members.lookup (some key) = none ∧ slot state' = slot state) ∨
      (slot state = none ∧ Reads read (members.lookup (some key)) (slot state')) := by
  -- On the members, for every state that they may be gathered into.
  induction members generalizing state with
  | nil =>
      cases gathered
      exact .inl ⟨rfl, rfl⟩
  | cons m rest ih =>
      obtain ⟨_ | name, x⟩ := m
      · cases gathered
      rw [Shape.gather] at gathered
      by_cases own : name = key
      · subst own
        obtain ⟨field, found, fills⟩ := keeps.find?
        simp only [found, fills.isSet] at gathered
        split at gathered
        · cases gathered
        · next unset =>
            obtain ⟨next, filled, gathered⟩ := Filter.bind_eq_ok gathered
            obtain ⟨v, value, kept⟩ := fills.set _ _ _ filled
            rcases ih gathered with ⟨-, later⟩ | ⟨again, -⟩
            · rw [List.lookup_cons_self, later, kept]
              exact .inr ⟨by simpa using unset, .present value⟩
            · rw [kept] at again
              cases again
      · have other : (some key == some name) = false := by simpa using Ne.symm own
        rw [List.lookup_cons, other]
        cases found : shape.fields.find? (·.name == name) with
        | none =>
            simp only [found] at gathered
            split at gathered
            · exact ih gathered
            · cases gathered
        | some field =>
            simp only [found] at gathered
            split at gathered
            · cases gathered
            · obtain ⟨next, filled, gathered⟩ := Filter.bind_eq_ok gathered
              have named : field.name = name := by simpa using List.find?_some found
              have left := keeps.leaves field (List.mem_of_find?_eq_some found)
                (named ▸ own) _ _ _ filled
              exact left ▸ ih gathered

variable {closed : Bool} {state state' : σ} {index : Nat} {fields : List (Field σ)}
  {items : List Source}

/-- Items that are read for other fields leave the slot as it is. -/
theorem gatherItems_leaves (leaves : ∀ field ∈ fields, field.Leaves slot)
    (gathered : shape.gatherItems closed state index fields items = .ok state') :
    slot state' = slot state := by
  induction fields generalizing state index items with
  | nil =>
      cases items with
      | nil =>
          rw [gatherItems] at gathered
          split at gathered <;> cases gathered
          rfl
      | cons => cases gathered
  | cons field rest ih =>
      obtain ⟨first, later⟩ := List.forall_mem_cons.mp leaves
      cases items with
      | nil =>
          rw [gatherItems] at gathered
          split at gathered
          · cases gathered
          · split at gathered
            · cases gathered
            · exact ih later gathered
      | cons x items =>
          obtain ⟨next, filled, gathered⟩ := Filter.bind_eq_ok gathered
          rw [ih later gathered, first _ _ _ filled]

/-- Items are gathered in the order of the fields. The slot is filled from the one at the place of
its key. -/
theorem gatherItems_fills (mem : key ∈ fields.map (·.name)) (distinct : (fields.map (·.name)).Nodup)
    (fills : ∀ field ∈ fields, field.name = key → field.Fills slot read)
    (leaves : ∀ field ∈ fields, field.name ≠ key → field.Leaves slot)
    (empty : slot state = none)
    (gathered : shape.gatherItems closed state index fields items = .ok state') :
    Reads read items[(fields.map (·.name)).idxOf key]? (slot state') := by
  induction fields generalizing state index items with
  | nil => cases mem
  | cons field rest ih =>
      rw [List.map_cons] at mem distinct ⊢
      obtain ⟨fillsFirst, fillsRest⟩ := List.forall_mem_cons.mp fills
      obtain ⟨leavesFirst, leavesRest⟩ := List.forall_mem_cons.mp leaves
      obtain ⟨notAgain, distinctRest⟩ := List.nodup_cons.mp distinct
      by_cases own : field.name = key
      · subst own
        have others : ∀ other ∈ rest, other.Leaves slot := fun other later =>
          leavesRest other later fun same => notAgain (same ▸ List.mem_map_of_mem later)
        rw [List.idxOf_cons_self]
        cases items with
        | nil =>
            rw [gatherItems] at gathered
            split at gathered
            · cases gathered
            · split at gathered
              · cases gathered
              · rw [gatherItems_leaves others gathered, empty]
                exact .absent
        | cons x items =>
            obtain ⟨next, filled, gathered⟩ := Filter.bind_eq_ok gathered
            obtain ⟨v, value, kept⟩ := (fillsFirst rfl).set _ _ _ filled
            rw [gatherItems_leaves others gathered, kept]
            exact .present value
      · have later : key ∈ rest.map (·.name) := by
          rcases List.mem_cons.mp mem with same | later
          · exact absurd same.symm own
          · exact later
        rw [List.idxOf_cons, beq_false_of_ne own, cond_false]
        cases items with
        | nil =>
            rw [gatherItems] at gathered
            split at gathered
            · cases gathered
            · split at gathered
              · cases gathered
              · exact ih later distinctRest fillsRest leavesRest empty gathered
        | cons x items =>
            obtain ⟨next, filled, gathered⟩ := Filter.bind_eq_ok gathered
            have left := leavesFirst own _ _ _ filled
            exact ih later distinctRest fillsRest leavesRest (left.trans empty) gathered

/-- A slot holds what is read from the value under its key, and nothing if there is none. -/
theorem Keeps.reads (keeps : shape.Keeps key slot read) {x : Source}
    (gathered : shape.Gathered x state) : Reads read (x.member? shape.keys key) (slot state) := by
  cases x with
  | object members closed =>
      rcases keeps.gather gathered with ⟨none, same⟩ | ⟨-, reads⟩
      · rw [Source.member?, none, same, keeps.empty]
        exact .absent
      · exact reads
  | array items closed =>
      exact gatherItems_fills keeps.mem keeps.distinct keeps.fills keeps.leaves keeps.empty gathered
  | _ => cases gathered

end Shape

end Json

end FilterSql
