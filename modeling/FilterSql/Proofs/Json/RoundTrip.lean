import FilterSql.Json.Decode
import FilterSql.Proofs.Json.Literal
import FilterSql.Proofs.Json.Members

/-!
Documents that are written compactly are read back.

A text that is read gives documents of bounded depth without repeated keys (`Fits`) and with
integers of sixty-four bits (`held_ofText`). Such a document, written compactly, is read back as it
is (`ofText_compact`) if its binary64 numbers are, each by itself.
-/

namespace FilterSql

namespace Json

/-! ### The numbers in a document -/

mutual

/-- The numbers in a document. -/
def numbers : Json → List Number
  | number n => [n]
  | array items => itemNumbers items
  | object members => memberNumbers members
  | null | bool _ | string _ => []

/-- The numbers in items. -/
def itemNumbers : List Json → List Number
  | [] => []
  | x :: rest => numbers x ++ itemNumbers rest

/-- The numbers in members. -/
def memberNumbers : List (String × Json) → List Number
  | [] => []
  | (_, x) :: rest => numbers x ++ memberNumbers rest

end

theorem mem_memberNumbers {n : Number} {members : List (String × Json)} :
    n ∈ memberNumbers members ↔ ∃ m ∈ members, n ∈ m.2.numbers := by
  induction members with
  | nil => simp [memberNumbers]
  | cons m rest ih => simp [memberNumbers, ih]

/-! ### The characters of a document -/

theorem toList_null : (compact .null).toList = ['n', 'u', 'l', 'l'] := rfl

theorem toList_true : (compact (.bool true)).toList = ['t', 'r', 'u', 'e'] := rfl

theorem toList_false : (compact (.bool false)).toList = ['f', 'a', 'l', 's', 'e'] := rfl

theorem toList_array (items : List Json) :
    (compact (.array items)).toList = '[' :: ((compactItems items).toList ++ [']']) := by
  rw [compact, String.toList_append, String.toList_append]
  rfl

theorem toList_object (members : List (String × Json)) : (compact (.object members)).toList =
    '\x7b' :: ((compactMembers members).toList ++ ['\x7d']) := by
  rw [compact, String.toList_append, String.toList_append]
  rfl

theorem toList_items (x y : Json) (rest : List Json) :
    (compactItems (x :: y :: rest)).toList =
      x.compact.toList ++ ',' :: (compactItems (y :: rest)).toList := by
  rw [compactItems, String.toList_append, String.toList_append, List.append_assoc]
  rfl

theorem toList_member (key : String) (x : Json) :
    (compactMembers [(key, x)]).toList = (quote key).toList ++ ':' :: x.compact.toList := by
  rw [compactMembers, String.toList_append, String.toList_append, List.append_assoc]
  rfl

/-- A member is longer than its value by a quote and a colon at least. -/
theorem length_member (key : String) (x : Json) :
    x.compact.toList.length + 2 ≤ (compactMembers [(key, x)]).toList.length := by
  obtain ⟨body, quoted, -⟩ := stringLiteral_quote key
  rw [toList_member, quoted, List.length_append, List.length_cons, List.length_cons]
  omega

theorem toList_members (m m' : String × Json) (rest : List (String × Json)) :
    (compactMembers (m :: m' :: rest)).toList =
      (compactMembers [m]).toList ++ ',' :: (compactMembers (m' :: rest)).toList := by
  obtain ⟨key, x⟩ := m
  have comma : ",".toList = [','] := rfl
  simp only [compactMembers, String.toList_append, List.append_assoc, comma,
    List.singleton_append]

/-! ### Documents as sources -/

namespace Source

mutual

/-- The source of a document that has been read as a whole. -/
def ofJson : Json → Source
  | .null => null
  | .bool b => bool b
  | .number n => number (some n)
  | .string s => string (some s)
  | .array items => array (ofItems items) true
  | .object members => object (ofMembers members) true

/-- The sources of items. -/
def ofItems : List Json → List Source
  | [] => []
  | x :: rest => ofJson x :: ofItems rest

/-- The sources of members. -/
def ofMembers : List (String × Json) → List (Option String × Source)
  | [] => []
  | (key, x) :: rest => (some key, ofJson x) :: ofMembers rest

end

theorem ofItems_eq_map (items : List Json) : ofItems items = items.map ofJson := by
  induction items with
  | nil => rfl
  | cons x rest ih => rw [ofItems, ih, List.map_cons]

/-! ### Reading what is written -/

/-- A character that a document may begin with. -/
def Opens (c : Char) : Prop := isSpace c = false ∧ c ∉ [',', ']', '\x7d']

instance (c : Char) : Decidable (Opens c) := inferInstanceAs (Decidable (_ ∧ _))

theorem opens_of_isDigit {c : Char} (digit : c.isDigit = true) : Opens c := by
  have other {d : Char} (apart : d.isDigit = false) : c ≠ d := by
    rintro rfl
    rw [digit] at apart
    cases apart
  simp [Opens, isSpace, @other ' ' rfl, @other '\n' rfl, @other '\t' rfl, @other '\r' rfl,
    @other ',' rfl, @other ']' rfl, @other '\x7d' rfl]

/-- What is written begins with a character that opens a document. -/
theorem exists_compact {doc : Json} (reads : ∀ n ∈ doc.numbers, n.ReadsBack) :
    ∃ c cs, doc.compact.toList = c :: cs ∧ Opens c := by
  cases doc with
  | null => exact ⟨'n', _, rfl, by decide⟩
  | bool b =>
      cases b with
      | true => exact ⟨'t', _, rfl, by decide⟩
      | false => exact ⟨'f', _, rfl, by decide⟩
  | number n =>
      obtain ⟨c, cs, chars, first⟩ := numberLiteral_head (reads n (by simp [numbers]))
      refine ⟨c, cs, chars, ?_⟩
      rcases first with rfl | digit
      · decide
      · exact opens_of_isDigit digit
  | string s =>
      obtain ⟨body, quoted, -⟩ := stringLiteral_quote s
      exact ⟨'"', body, quoted, by decide⟩
  | array items => exact ⟨'[', _, toList_array items, by decide⟩
  | object members => exact ⟨'\x7b', _, toList_object members, by decide⟩

theorem exists_compactItems {x : Json} (reads : ∀ n ∈ x.numbers, n.ReadsBack) (rest : List Json) :
    ∃ c cs, (compactItems (x :: rest)).toList = c :: cs ∧ Opens c := by
  obtain ⟨c, cs, chars, opens⟩ := exists_compact reads
  cases rest with
  | nil => exact ⟨c, cs, chars, opens⟩
  | cons y rest => exact ⟨c, _, by rw [toList_items, chars, List.cons_append], opens⟩

theorem exists_compactMembers (m : String × Json) (rest : List (String × Json)) :
    ∃ cs, (compactMembers (m :: rest)).toList = '"' :: cs := by
  obtain ⟨key, x⟩ := m
  obtain ⟨body, quoted, -⟩ := stringLiteral_quote key
  cases rest with
  | nil => exact ⟨_, by rw [toList_member, quoted, List.cons_append]⟩
  | cons m rest =>
      exact ⟨_, by rw [toList_members, toList_member, quoted, List.cons_append, List.cons_append]⟩

variable {fuel : Nat} {c : Char} {cs rest : List Char}

theorem skipSpace_opens (opens : Opens c) : skipSpace (c :: cs) = c :: cs := by
  rw [skipSpace, List.dropWhile_cons, opens.1]
  rfl

theorem items_opens (opens : Opens c) :
    items true (fuel + 1) (c :: cs) = itemThen fuel (c :: cs) := by
  have other := opens.2
  simp only [List.mem_cons, not_or] at other
  rw [items, skipSpace_opens opens]
  split
  · next same => exact absurd (List.cons.inj same).1 other.2.1
  · next same => exact absurd (List.cons.inj same).1 other.1
  · rfl

theorem items_comma (opens : Opens c) :
    items false (fuel + 1) (',' :: c :: cs) = itemThen fuel (c :: cs) := by
  have other := opens.2
  simp only [List.mem_cons, not_or] at other
  have comma : skipSpace (',' :: c :: cs) = ',' :: c :: cs := rfl
  rw [items, comma]
  simp [skipSpace_opens opens, other]

theorem value_number (first : c = '-' ∨ c.isDigit = true) {n : Option Number}
    (read : numberLiteral (c :: cs) = some (n, rest)) :
    value (fuel + 1) (c :: cs) = (number n, some rest) := by
  have other {d : Char} {ds : List Char} (same : c :: cs = d :: ds)
      (apart : d ≠ '-' ∧ d.isDigit = false) : False := by
    obtain ⟨rfl, -⟩ := List.cons.inj same
    rcases first with minus | digit
    · exact apart.1 minus
    · rw [digit] at apart
      cases apart.2
  have opens : Opens c := first.elim (fun minus => minus ▸ by decide) opens_of_isDigit
  rw [value, skipSpace_opens opens]
  split
  · next same => exact (other same (by decide)).elim
  · next same => exact (other same (by decide)).elim
  · next same => exact (other same (by decide)).elim
  · next same => exact (other same (by decide)).elim
  · next same => exact (other same (by decide)).elim
  · next same => exact (other same (by decide)).elim
  · rw [read]

theorem value_string {s : Option String} (read : stringLiteral cs = some (s, rest)) :
    value (fuel + 1) ('"' :: cs) = (string s, some rest) := by
  have quote : skipSpace ('"' :: cs) = '"' :: cs := rfl
  rw [value, quote]
  simp only [read]

theorem value_array : value (fuel + 1) ('[' :: cs) =
    (array (items true fuel cs).1 (items true fuel cs).2.isSome, (items true fuel cs).2) := rfl

theorem value_object : value (fuel + 1) ('\x7b' :: cs) =
    (object (members true fuel cs).1 (members true fuel cs).2.isSome,
      (members true fuel cs).2) := rfl

theorem members_quote :
    members true (fuel + 1) ('"' :: cs) = memberThen fuel ('"' :: cs) := rfl

theorem members_comma :
    members false (fuel + 1) (',' :: '"' :: cs) = memberThen fuel ('"' :: cs) := rfl

theorem itemThen_value {x : Source} (read : value fuel cs = (x, some rest)) :
    itemThen (fuel + 1) cs = (x :: (items false fuel rest).1, (items false fuel rest).2) := by
  rw [itemThen, read]

/-- A member is read, and then the members after it. -/
theorem memberThen_member {key : String} {x : Json}
    (read : value fuel (x.compact.toList ++ rest) = (ofJson x, some rest)) :
    memberThen (fuel + 1) ((compactMembers [(key, x)]).toList ++ rest) =
      ((some key, ofJson x) :: (members false fuel rest).1, (members false fuel rest).2) := by
  obtain ⟨body, quoted, name⟩ := stringLiteral_quote key
  have colon (cs : List Char) : skipSpace (':' :: cs) = ':' :: cs := rfl
  rw [toList_member, quoted, List.cons_append, List.cons_append, List.append_assoc,
    List.cons_append, memberThen]
  simp only [name, colon, read]

mutual

/-- A document is read back in front of a text that does not go on with a number. Twice the length
of its text bounds the steps: every value stands at most two steps behind a character of its own. -/
theorem value_compact : ∀ doc : Json, (∀ n ∈ doc.numbers, n.ReadsBack) →
    ∀ (fuel : Nat) (rest : List Char), EndsNumber rest → 2 * doc.compact.toList.length ≤ fuel →
      value fuel (doc.compact.toList ++ rest) = (ofJson doc, some rest)
  | .null => by
      intro _ fuel rest _ enough
      rw [toList_null] at enough ⊢
      obtain ⟨fuel, rfl⟩ := Nat.exists_eq_add_one.mpr (Nat.zero_lt_of_lt enough)
      rfl
  | .bool true => by
      intro _ fuel rest _ enough
      rw [toList_true] at enough ⊢
      obtain ⟨fuel, rfl⟩ := Nat.exists_eq_add_one.mpr (Nat.zero_lt_of_lt enough)
      rfl
  | .bool false => by
      intro _ fuel rest _ enough
      rw [toList_false] at enough ⊢
      obtain ⟨fuel, rfl⟩ := Nat.exists_eq_add_one.mpr (Nat.zero_lt_of_lt enough)
      rfl
  | .number n => by
      intro reads fuel rest ends enough
      have read := reads n (by simp [numbers])
      obtain ⟨c, cs, chars, first⟩ := numberLiteral_head read
      have text : (Json.number n).compact.toList = c :: cs := chars
      rw [Number.ReadsBack, chars] at read
      rw [text] at enough ⊢
      have back := numberLiteral_append ends (c :: cs)
      rw [read] at back
      obtain ⟨fuel, rfl⟩ := Nat.exists_eq_add_one.mpr (Nat.zero_lt_of_lt enough)
      exact value_number first back
  | .string s => by
      intro _ fuel rest _ enough
      obtain ⟨body, quoted, read⟩ := stringLiteral_quote s
      have text : (Json.string s).compact.toList = '"' :: body := quoted
      rw [text] at enough ⊢
      obtain ⟨fuel, rfl⟩ := Nat.exists_eq_add_one.mpr (Nat.zero_lt_of_lt enough)
      exact value_string (read rest)
  | .array [] => by
      intro _ fuel rest _ enough
      have text : (Json.array []).compact.toList = ['[', ']'] := rfl
      rw [text] at enough ⊢
      obtain ⟨fuel, rfl⟩ := Nat.exists_eq_add_of_le' (Nat.le_of_add_right_le (k := 2) enough)
      rfl
  | .array (x :: items) => by
      intro reads fuel rest _ enough
      have first : ∀ n ∈ x.numbers, n.ReadsBack := fun n mem =>
        reads n (List.mem_append_left _ mem)
      obtain ⟨c, cs, chars, opens⟩ := exists_compactItems first items
      rw [toList_array, List.length_cons, List.length_append, List.length_singleton] at enough
      obtain ⟨fuel, rfl⟩ := Nat.exists_eq_add_of_le' (show 2 ≤ fuel by omega)
      have inside := itemThen_compact (x :: items) (List.cons_ne_nil _ _) reads fuel rest (by omega)
      rw [chars, List.cons_append] at inside
      rw [toList_array, chars, List.cons_append, List.cons_append, List.cons_append,
        List.append_assoc, List.singleton_append, value_array, items_opens opens, inside]
      rfl
  | .object [] => by
      intro _ fuel rest _ enough
      have text : (Json.object []).compact.toList = ['\x7b', '\x7d'] := rfl
      rw [text] at enough ⊢
      obtain ⟨fuel, rfl⟩ := Nat.exists_eq_add_of_le' (Nat.le_of_add_right_le (k := 2) enough)
      rfl
  | .object (m :: members) => by
      intro reads fuel rest _ enough
      obtain ⟨cs, chars⟩ := exists_compactMembers m members
      rw [toList_object, List.length_cons, List.length_append, List.length_singleton] at enough
      obtain ⟨fuel, rfl⟩ := Nat.exists_eq_add_of_le' (show 2 ≤ fuel by omega)
      have inside := memberThen_compact (m :: members) (List.cons_ne_nil _ _) reads fuel rest
        (by omega)
      rw [chars, List.cons_append] at inside
      rw [toList_object, chars, List.cons_append, List.cons_append, List.cons_append,
        List.append_assoc, List.singleton_append, value_object, members_quote, inside]
      rfl

theorem itemThen_compact : ∀ items : List Json, items ≠ [] →
    (∀ n ∈ itemNumbers items, n.ReadsBack) →
    ∀ (fuel : Nat) (rest : List Char), 2 * (compactItems items).toList.length < fuel →
      itemThen fuel ((compactItems items).toList ++ ']' :: rest) = (ofItems items, some rest)
  | [] => fun nonempty => absurd rfl nonempty
  | [x] => by
      intro _ reads fuel rest enough
      have readsFirst : ∀ n ∈ x.numbers, n.ReadsBack := fun n mem =>
        reads n (List.mem_append_left _ mem)
      obtain ⟨c, cs, chars, -⟩ := exists_compact readsFirst
      have text : (compactItems [x]).toList = x.compact.toList := rfl
      rw [text] at enough ⊢
      obtain ⟨fuel, rfl⟩ := Nat.exists_eq_add_of_le' (show 2 ≤ fuel by
        rw [chars, List.length_cons] at enough
        omega)
      have bracket : EndsNumber (']' :: rest) := endsNumber_cons (by decide) rest
      rw [itemThen_value (value_compact x readsFirst (fuel + 1) _ bracket (by omega))]
      rfl
  | x :: y :: items => by
      intro _ reads fuel rest enough
      have readsFirst : ∀ n ∈ x.numbers, n.ReadsBack := fun n mem =>
        reads n (List.mem_append_left _ mem)
      have readsRest : ∀ n ∈ itemNumbers (y :: items), n.ReadsBack := fun n mem =>
        reads n (List.mem_append_right _ mem)
      have readsNext : ∀ n ∈ y.numbers, n.ReadsBack := fun n mem =>
        readsRest n (List.mem_append_left _ mem)
      rw [toList_items, List.length_append, List.length_cons] at enough
      obtain ⟨fuel, rfl⟩ := Nat.exists_eq_add_of_le' (show 2 ≤ fuel by omega)
      obtain ⟨c, cs, chars, opens⟩ := exists_compactItems readsNext items
      have later := itemThen_compact (y :: items) (List.cons_ne_nil _ _) readsRest fuel rest
        (by omega)
      have comma (cs : List Char) : EndsNumber (',' :: cs) := endsNumber_cons (by decide) cs
      rw [toList_items, List.append_assoc, List.cons_append,
        itemThen_value (value_compact x readsFirst (fuel + 1) _ (comma _) (by omega))]
      rw [chars, List.cons_append] at later ⊢
      rw [items_comma opens, later]
      rfl

theorem memberThen_compact : ∀ members : List (String × Json), members ≠ [] →
    (∀ n ∈ memberNumbers members, n.ReadsBack) →
    ∀ (fuel : Nat) (rest : List Char), 2 * (compactMembers members).toList.length < fuel →
      memberThen fuel ((compactMembers members).toList ++ '\x7d' :: rest) =
        (ofMembers members, some rest)
  | [] => fun nonempty => absurd rfl nonempty
  | [(key, x)] => by
      intro _ reads fuel rest enough
      have readsFirst : ∀ n ∈ x.numbers, n.ReadsBack := fun n mem =>
        reads n (List.mem_append_left _ mem)
      have shorter := length_member key x
      obtain ⟨fuel, rfl⟩ := Nat.exists_eq_add_of_le' (show 2 ≤ fuel by omega)
      have brace : EndsNumber ('\x7d' :: rest) := endsNumber_cons (by decide) rest
      rw [memberThen_member (value_compact x readsFirst (fuel + 1) _ brace (by omega))]
      rfl
  | (key, x) :: m :: members => by
      intro _ reads fuel rest enough
      have readsFirst : ∀ n ∈ x.numbers, n.ReadsBack := fun n mem =>
        reads n (List.mem_append_left _ mem)
      have readsRest : ∀ n ∈ memberNumbers (m :: members), n.ReadsBack := fun n mem =>
        reads n (List.mem_append_right _ mem)
      have shorter := length_member key x
      obtain ⟨cs, chars⟩ := exists_compactMembers m members
      rw [toList_members, List.length_append, List.length_cons] at enough
      obtain ⟨fuel, rfl⟩ := Nat.exists_eq_add_of_le' (show 2 ≤ fuel by omega)
      have later := memberThen_compact (m :: members) (List.cons_ne_nil _ _) readsRest fuel rest
        (by omega)
      have comma (cs : List Char) : EndsNumber (',' :: cs) := endsNumber_cons (by decide) cs
      rw [toList_members, List.append_assoc, List.cons_append,
        memberThen_member (value_compact x readsFirst (fuel + 1) _ (comma _) (by omega))]
      rw [chars, List.cons_append] at later ⊢
      rw [members_comma, later]
      rfl

end

end Source

/-! ### Documents that are read -/

/-- Documents with at most `room` arrays and objects inside one another, and with no key twice in an
object. -/
inductive Fits : (room : Nat) → Json → Prop where
  | null {room : Nat} : Fits room .null
  | bool {room : Nat} (b : Bool) : Fits room (.bool b)
  | number {room : Nat} (n : Number) : Fits room (.number n)
  | string {room : Nat} (s : String) : Fits room (.string s)
  | array {room : Nat} {items : List Json} (inside : ∀ x ∈ items, Fits room x) :
    Fits (room + 1) (.array items)
  | object {room : Nat} {members : List (String × Json)}
    (distinct : (members.map Prod.fst).Nodup) (inside : ∀ m ∈ members, Fits room m.2) :
    Fits (room + 1) (.object members)

namespace Source

mutual

/-- The numbers in a source. -/
def numbers : Source → List Number
  | number n => n.toList
  | array items _ => itemNumbers items
  | object members _ => memberNumbers members
  | null | bool _ | string _ | broken => []

/-- The numbers in items. -/
def itemNumbers : List Source → List Number
  | [] => []
  | x :: rest => numbers x ++ itemNumbers rest

/-- The numbers in members. -/
def memberNumbers : List (Option String × Source) → List Number
  | [] => []
  | (_, x) :: rest => numbers x ++ memberNumbers rest

end

mutual

/-- A document that is read fits into the room, and has the numbers of its source. -/
theorem toJson?_eq_some : ∀ (x : Source) (room : Nat) (doc : Json), x.toJson? room = some doc →
    Fits room doc ∧ doc.numbers ⊆ x.numbers
  | .null, room, doc, made => by
      cases made
      exact ⟨.null, List.Subset.refl _⟩
  | .bool b, room, doc, made => by
      cases made
      exact ⟨.bool b, List.Subset.refl _⟩
  | .number n, room, doc, made => by
      obtain ⟨n, rfl, rfl⟩ := Option.map_eq_some_iff.mp made
      exact ⟨.number n, List.Subset.refl _⟩
  | .string s, room, doc, made => by
      obtain ⟨s, rfl, rfl⟩ := Option.map_eq_some_iff.mp made
      exact ⟨.string s, List.Subset.refl _⟩
  | .array items closed, room, doc, made => by
      cases room with
      | zero => cases made
      | succ room =>
          rw [toJson?] at made
          split at made
          · obtain ⟨docs, inside, rfl⟩ := Option.map_eq_some_iff.mp made
            obtain ⟨fits, subset⟩ := toItems?_eq_some items room docs inside
            exact ⟨.array fits, subset⟩
          · cases made
  | .object members closed, room, doc, made => by
      cases room with
      | zero => cases made
      | succ room =>
          rw [toJson?] at made
          split at made
          · obtain ⟨docs, inside, rfl⟩ := Option.map_eq_some_iff.mp made
            obtain ⟨fits, subset⟩ := toMembers?_eq_some members room docs inside
            refine ⟨.object (nodup_distinctMembers docs) fun m mem =>
              fits m (mem_of_mem_distinctMembers mem), fun n mem => subset ?_⟩
            obtain ⟨m, mem, inside⟩ := mem_memberNumbers.mp mem
            exact mem_memberNumbers.mpr ⟨m, mem_of_mem_distinctMembers mem, inside⟩
          · cases made
  | .broken, room, doc, made => by cases made

theorem toItems?_eq_some : ∀ (xs : List Source) (room : Nat) (docs : List Json),
    toItems? room xs = some docs →
      (∀ doc ∈ docs, Fits room doc) ∧ Json.itemNumbers docs ⊆ itemNumbers xs
  | [], room, docs, made => by
      cases made
      exact ⟨nofun, List.Subset.refl _⟩
  | x :: xs, room, docs, made => by
      simp only [toItems?, Option.bind_eq_bind, Option.bind_eq_some_iff, Option.pure_def,
        Option.some.injEq] at made
      obtain ⟨doc, first, docs, later, rfl⟩ := made
      obtain ⟨fits, subset⟩ := toJson?_eq_some x room doc first
      obtain ⟨fitsRest, subsetRest⟩ := toItems?_eq_some xs room docs later
      refine ⟨List.forall_mem_cons.mpr ⟨fits, fitsRest⟩, ?_⟩
      rw [Json.itemNumbers, itemNumbers]
      exact List.append_subset.mpr ⟨List.subset_append_of_subset_left _ subset,
        List.subset_append_of_subset_right _ subsetRest⟩

theorem toMembers?_eq_some : ∀ (ms : List (Option String × Source)) (room : Nat)
    (docs : List (String × Json)), toMembers? room ms = some docs →
      (∀ m ∈ docs, Fits room m.2) ∧ Json.memberNumbers docs ⊆ memberNumbers ms
  | [], room, docs, made => by
      cases made
      exact ⟨nofun, List.Subset.refl _⟩
  | (key, x) :: ms, room, docs, made => by
      simp only [toMembers?, Option.bind_eq_bind, Option.bind_eq_some_iff, Option.pure_def,
        Option.some.injEq] at made
      obtain ⟨key, rfl, doc, first, docs, later, rfl⟩ := made
      obtain ⟨fits, subset⟩ := toJson?_eq_some x room doc first
      obtain ⟨fitsRest, subsetRest⟩ := toMembers?_eq_some ms room docs later
      refine ⟨List.forall_mem_cons.mpr ⟨fits, fitsRest⟩, ?_⟩
      rw [Json.memberNumbers, memberNumbers]
      exact List.append_subset.mpr ⟨List.subset_append_of_subset_left _ subset,
        List.subset_append_of_subset_right _ subsetRest⟩

end

/-- Only null is read as null. -/
theorem eq_null_of_toJson? {x : Source} {room : Nat} (read : x.toJson? room = some .null) :
    x = null := by
  cases x with
  | null => rfl
  | number n | string s =>
      obtain ⟨_, -, other⟩ := Option.map_eq_some_iff.mp read
      cases other
  | array items closed | object members closed =>
      cases room with
      | zero => cases read
      | succ room =>
          rw [toJson?] at read
          split at read
          · obtain ⟨_, -, other⟩ := Option.map_eq_some_iff.mp read
            cases other
          · cases read
  | _ => cases read

/-- The integers among some numbers fit sixty-four bits. -/
def Held (numbers : List Number) : Prop := ∀ n, .integer n ∈ numbers → Number.Held n

theorem Held.append {ns ms : List Number} (first : Held ns) (second : Held ms) :
    Held (ns ++ ms) := by
  intro n mem
  exact (List.mem_append.mp mem).elim (first n) (second n)

theorem held_nil : Held [] := nofun

/-- Whatever can be read of a text within a number of steps has integers of sixty-four bits. -/
theorem held_within (fuel : Nat) :
    (∀ cs, Held (value fuel cs).1.numbers) ∧
    (∀ first cs, Held (itemNumbers (items first fuel cs).1)) ∧
    (∀ cs, Held (itemNumbers (itemThen fuel cs).1)) ∧
    (∀ first cs, Held (memberNumbers (members first fuel cs).1)) ∧
    ∀ cs, Held (memberNumbers (memberThen fuel cs).1) := by
  induction fuel with
  | zero =>
      exact ⟨fun _ => held_nil, fun _ _ => held_nil, fun _ => held_nil, fun _ _ => held_nil,
        fun _ => held_nil⟩
  | succ fuel ih =>
      obtain ⟨heldValue, heldItems, heldItem, heldMembers, heldMember⟩ := ih
      refine ⟨fun cs => ?_, fun first cs => ?_, fun cs => ?_, fun first cs => ?_, fun cs => ?_⟩
      · rw [value]
        split
        · exact held_nil
        · exact held_nil
        · exact held_nil
        · split <;> exact held_nil
        · exact heldItems true _
        · exact heldMembers true _
        · split
          · next read =>
              intro n mem
              obtain rfl := Option.mem_toList.mp mem
              exact held_numberLiteral read
          · exact held_nil
      · rw [items]
        split
        · exact held_nil
        · split
          · exact held_nil
          · exact heldItem _
        · split
          · exact heldItem _
          · exact held_nil
      · rw [itemThen]
        have held := heldValue cs
        split
        · next read =>
            rw [read] at held
            exact held.append held_nil
        · next read =>
            rw [read] at held
            exact held.append (heldItems false _)
      · rw [members]
        split
        · exact held_nil
        · split
          · exact held_nil
          · exact heldMember _
        · split
          · exact heldMember _
          · exact held_nil
      · rw [memberThen.eq_def]
        dsimp only
        split
        · split
          · exact held_nil
          · split
            · next after _ =>
                have held := heldValue after
                split
                · next read =>
                    rw [read] at held
                    exact held.append held_nil
                · next read =>
                    rw [read] at held
                    exact held.append (heldMembers false _)
            · exact held_nil
        · exact held_nil

theorem held_ofText (text : String) : Held (ofText text).1.numbers := by
  have held := (held_within (3 * text.toList.length + 3)).1 text.toList
  rw [ofText]
  split
  · next read => rwa [read] at held
  · next read => rwa [read] at held

mutual

/-- The source of a document that fits into the room gives the document. -/
theorem toJson?_ofJson : ∀ (doc : Json) (room : Nat), Fits room doc →
    (ofJson doc).toJson? room = some doc
  | .null, room, fits => rfl
  | .bool b, room, fits => rfl
  | .number n, room, fits => rfl
  | .string s, room, fits => rfl
  | .array items, room, fits => by
      cases fits with
      | array inside =>
          rw [ofJson, toJson?, toItems?_ofItems items _ inside]
          rfl
  | .object members, room, fits => by
      cases fits with
      | object distinct inside =>
          rw [ofJson, toJson?, toMembers?_ofMembers members _ inside, if_pos rfl, Option.map_some,
            distinctMembers_eq_self distinct]

theorem toItems?_ofItems : ∀ (docs : List Json) (room : Nat), (∀ doc ∈ docs, Fits room doc) →
    toItems? room (ofItems docs) = some docs
  | [], room, fits => rfl
  | doc :: docs, room, fits => by
      rw [List.forall_mem_cons] at fits
      rw [ofItems, toItems?, toJson?_ofJson doc room fits.1, toItems?_ofItems docs room fits.2]
      rfl

theorem toMembers?_ofMembers : ∀ (docs : List (String × Json)) (room : Nat),
    (∀ m ∈ docs, Fits room m.2) → toMembers? room (ofMembers docs) = some docs
  | [], room, fits => rfl
  | (key, doc) :: docs, room, fits => by
      rw [List.forall_mem_cons] at fits
      rw [ofMembers, toMembers?, toJson?_ofJson doc room fits.1,
        toMembers?_ofMembers docs room fits.2]
      rfl

end

/-- The text that is written for a document is read as the document, and as a whole. -/
theorem ofText_compact {doc : Json} (reads : ∀ n ∈ doc.numbers, n.ReadsBack) :
    ofText doc.compact = (ofJson doc, true) := by
  have none : EndsNumber [] := nofun
  have read := value_compact doc reads (3 * doc.compact.toList.length + 3) [] none (by omega)
  rw [List.append_nil] at read
  rw [ofText, read]
  rfl

end Source

/-- What is read from a text is read from its source. -/
theorem source_of_readText {α : Type} {read : Reader α} {text : String} {a : α}
    (made : readText read text = .ok a) : read (Source.ofText text).1 = .ok a := by
  unfold readText at made
  cases source : Source.ofText text with
  | mk x complete =>
      rw [source] at made
      dsimp only at made ⊢
      cases value : read x with
      | error fault =>
          rw [value] at made
          cases made
      | ok b =>
          rw [value] at made
          cases complete with
          | true => exact made
          | false => cases made

/-- What is read from the source of a document is read from the text that is written for it. -/
theorem readText_compact {α : Type} {read : Reader α} {doc : Json} {a : α}
    (reads : ∀ n ∈ doc.numbers, n.ReadsBack) (made : read (Source.ofJson doc) = .ok a) :
    readText read doc.compact = .ok a := by
  rw [readText, Source.ofText_compact reads]
  dsimp only
  rw [made]
  rfl

/-- A document is written and read back if it fits into the depth limit and its numbers are read
back, each by itself. -/
theorem ofText_compact {doc : Json} (fits : Fits depthLimit doc)
    (reads : ∀ n ∈ doc.numbers, n.ReadsBack) : ofText doc.compact = .ok doc := by
  refine readText_compact reads ?_
  rw [Reader.document, Source.toJson?_ofJson doc _ fits]

/-- A document that is read from a text is read back from what is written for it, if its binary64
numbers are. -/
theorem ofText_compact_of_read {text : String} {doc : Json} (read : ofText text = .ok doc)
    (floats : ∀ x, .floating x ∈ doc.numbers → Number.ReadsBack (.floating x)) :
    ofText doc.compact = .ok doc := by
  have made := source_of_readText read
  rw [Reader.document] at made
  split at made
  · next whole =>
      cases made
      obtain ⟨fits, subset⟩ := Source.toJson?_eq_some _ _ _ whole
      refine ofText_compact fits fun n mem => ?_
      cases n with
      | integer n => exact (Source.held_ofText text n (subset mem)).readsBack
      | floating x => exact floats x mem
  · cases made

end Json

end FilterSql
