import FilterSql.Proofs.Filter.Spelling
import FilterSql.Proofs.Independence

/-!
Filter documents that differ in strings.

Where two documents are the same but for strings that are not read as lists (`Json.Reworded`), their
members are taken in the same way and their levels are the same. So the reader, which looks at keys
and at the kinds of values, gives the same error for both or filters with the same entries, whose
operands differ in these strings (`Filter.ofMembers_reworded`). Only the sizes of the documents may
tell them apart.
-/

namespace FilterSql

/-! ### Strings that differ -/

/-- Whether an operator takes a list, which may be written as one string. -/
def Operator.takesList : Operator → Bool
  | .isIn | .notIn | .between | .notBetween => true
  | _ => false

mutual

/-- Documents that are the same but for strings, other than those under operators that take a
list. -/
inductive Json.Reworded : Json → Json → Prop where
  | null : Json.Reworded .null .null
  | bool (b : Bool) : Json.Reworded (.bool b) (.bool b)
  | number (n : Number) : Json.Reworded (.number n) (.number n)
  | string (s t : String) : Json.Reworded (.string s) (.string t)
  | array {xs ys : List Json} (items : List.Forall₂ Json.Reworded xs ys) :
      Json.Reworded (.array xs) (.array ys)
  | object {ms ns : List (String × Json)} (members : List.Forall₂ Json.RewordedMember ms ns) :
      Json.Reworded (.object ms) (.object ns)

/-- Members with the same key and with values that are the same but for strings. -/
inductive Json.RewordedMember : String × Json → String × Json → Prop where
  | mk (key : String) {v w : Json}
      (listed : ∀ op, Operator.ofKey? key = some op → op.takesList = true → v = w)
      (value : Json.Reworded v w) : Json.RewordedMember (key, v) (key, w)

end

/-- Entries that are the same but for strings in their operands. -/
inductive Entry.Reworded : Entry → Entry → Prop where
  | group (op : Connective) {fs gs : List Filter}
      (children : List.Forall₂ (List.Forall₂ Entry.Reworded) fs gs) :
      Entry.Reworded (.group op fs) (.group op gs)
  | leaf (path : List String) {operator : Operator} {v w : Json}
      (listed : operator.takesList = true → v = w) (operand : v.Reworded w) :
      Entry.Reworded (.leaf path operator v) (.leaf path operator w)
  | nested (path : List String) {f g : Filter} (body : List.Forall₂ Entry.Reworded f g) :
      Entry.Reworded (.nested path f) (.nested path g)

/-- Filters that are the same but for strings in operands. -/
abbrev Filter.Reworded (f g : Filter) : Prop := List.Forall₂ Entry.Reworded f g

namespace Json

/-- Members with the same keys. -/
theorem keys_eq {ms ns : List (String × Json)} (members : List.Forall₂ RewordedMember ms ns) :
    ms.map Prod.fst = ns.map Prod.fst := by
  induction members with
  | nil => rfl
  | cons first _ ih =>
      cases first
      rw [List.map_cons, List.map_cons, ih]

end Json

/-! ### The reader -/

namespace Filter

variable {maxDepth : Nat}

/-- Operators keep the operands that are lists. -/
theorem comparisons_reworded (path : List String) {ms ns : List (String × Json)}
    (members : List.Forall₂ Json.RewordedMember ms ns) :
    Alike Filter.Reworded (comparisons path ms) (comparisons path ns) := by
  induction members with
  | nil => exact .ok .nil
  | cons first _ ih =>
      obtain ⟨key, listed, value⟩ := first
      rw [comparisons, comparisons]
      cases known : Operator.ofKey? key with
      | none => exact .error _
      | some operator =>
          exact ih.andThen fun others =>
            .ok (.cons (.leaf path (listed operator known) value) others)

mutual

/-- The reader gives the same error for members that differ in strings, or filters that do. -/
theorem ofMembers_reworded (depth : Nat) : ∀ {ms ns : List (String × Json)},
    List.Forall₂ Json.RewordedMember ms ns →
    Alike Filter.Reworded (ofMembers maxDepth depth ms) (ofMembers maxDepth depth ns)
  | [], _, .nil => .ok .nil
  | (_, v) :: _, _, .cons (.mk (w := w) key _ value) later => by
      have first : Alike Filter.Reworded (ofMember maxDepth depth key v)
          (ofMember maxDepth depth key w) := by
        unfold ofMember
        split
        · exact (ofCombined_reworded depth key value).andThen fun children =>
            .ok (.cons (.group _ children) .nil)
        · split
          · exact .error _
          · exact .thenBoth _ fun path => ofField_reworded depth path value
      rw [ofMembers_cons, ofMembers_cons]
      exact first.andThen fun entries =>
        (ofMembers_reworded depth later).andThen fun others => .ok (List.rel_append entries others)
termination_by structural ms => ms

theorem ofCombined_reworded (depth : Nat) (key : String) : ∀ {v w : Json}, v.Reworded w →
    Alike (List.Forall₂ Filter.Reworded) (ofCombined maxDepth depth key v)
      (ofCombined maxDepth depth key w)
  | .array _, _, .array items => ofItems_reworded depth key items
  | .null, _, .null | .bool _, _, .bool _ | .number _, _, .number _ | .string _, _, .string _ _
  | .object _, _, .object _ => .error _
termination_by structural v => v

theorem ofItems_reworded (depth : Nat) (key : String) : ∀ {xs ys : List Json},
    List.Forall₂ Json.Reworded xs ys →
    Alike (List.Forall₂ Filter.Reworded) (ofItems maxDepth depth key xs)
      (ofItems maxDepth depth key ys)
  | [], _, .nil => .ok .nil
  | .object _ :: _, _, .cons (.object members) later =>
      .thenBoth _ fun _ => (ofMembers_reworded (depth + 1) members).andThen fun child =>
        (ofItems_reworded depth key later).andThen fun children => .ok (.cons child children)
  | .null :: _, _, .cons .null _ | .bool _ :: _, _, .cons (.bool _) _
  | .number _ :: _, _, .cons (.number _) _ | .string _ :: _, _, .cons (.string _ _) _
  | .array _ :: _, _, .cons (.array _) _ => .error _
termination_by structural xs => xs

theorem ofField_reworded (depth : Nat) (path : List String) : ∀ {v w : Json}, v.Reworded w →
    Alike Filter.Reworded (ofField maxDepth depth path v) (ofField maxDepth depth path w)
  | .object _, _, .object members => by
      rw [ofField, ofField, ← Json.keys_eq members]
      split
      · exact comparisons_reworded path members
      · exact .error _
      · exact ofStep_reworded depth path members
      · exact .thenBoth _ fun _ => (ofMembers_reworded (depth + 1) members).andThen fun body =>
          .ok (.cons (.nested path body) .nil)
  | .null, _, .null => .ok (.cons (.leaf path nofun .null) .nil)
  | .bool _, _, .bool _ => .ok (.cons (.leaf path nofun (.bool _)) .nil)
  | .number _, _, .number _ => .ok (.cons (.leaf path nofun (.number _)) .nil)
  | .string _, _, .string _ _ => .ok (.cons (.leaf path nofun (.string _ _)) .nil)
  | .array _, _, .array items => .ok (.cons (.leaf path nofun (.array items)) .nil)
termination_by structural v => v

theorem ofStep_reworded (depth : Nat) (path : List String) : ∀ {ms ns : List (String × Json)},
    List.Forall₂ Json.RewordedMember ms ns →
    Alike Filter.Reworded (ofStep maxDepth depth path ms) (ofStep maxDepth depth path ns)
  | [], _, .nil => .ok .nil
  | (_, _) :: _, _, .cons (.mk key _ value) _ =>
      .thenBoth _ fun _ => .thenBoth _ fun further =>
        ofField_reworded (depth + 1) (path ++ further) value
termination_by structural ms => ms

end

/-- The reader gives the same error for documents that differ in strings, or filters that do, unless
one document only is too large. -/
theorem ofJson_reworded {options : CompileOptions} {document other : Json}
    (reworded : document.Reworded other)
    (sizes : checkSize options.maxBytes document.compact.utf8ByteSize =
      checkSize options.maxBytes other.compact.utf8ByteSize) :
    Alike Filter.Reworded (ofJson options document) (ofJson options other) := by
  unfold ofJson
  rw [sizes]
  refine .thenBoth _ fun _ => ?_
  cases reworded with
  | null => exact .ok .nil
  | object members => exact .thenBoth _ fun _ => ofMembers_reworded 1 members
  | bool | number | string | array => exact .error _

/-- Documents that differ in strings and are both read say the same but for these strings. -/
theorem Reworded.of_read {options : CompileOptions} {document other : Json} {f g : Filter}
    (reworded : document.Reworded other) (read : ofJson options document = .ok f)
    (readOther : ofJson options other = .ok g) : f.Reworded g := by
  have fits : checkSize options.maxBytes document.compact.utf8ByteSize =
      checkSize options.maxBytes other.compact.utf8ByteSize := by
    rw [checkSize, checkSize, if_neg (Nat.not_lt.mpr (ofJson_eq_ok.mp read).2.1),
      if_neg (Nat.not_lt.mpr (ofJson_eq_ok.mp readOther).2.1)]
  have alike := ofJson_reworded reworded fits
  rw [read, readOther] at alike
  cases alike with
  | ok results => exact results

end Filter

end FilterSql
