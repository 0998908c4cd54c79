import FilterSql.Proofs.Filter.Spelling

/-!
Dotted keys and nested objects.

A field with one further field key under it may be written as one key with a dot
(`Filter.Dotted`): at the root, in an item of a combination, or under a field, however deep. By
`Filter.ofJson_dotted` the dotted document is read as the same filter whenever the nested one is
read, and the nested one whenever the dotted one is, as long as it is within the limits of size and
levels: it may take one more level and some more bytes.
-/

namespace FilterSql

namespace Filter

open Json (compact compactItems compactMembers quote)

/-! ### Documents with dots -/

/-- In one place, a field with one further field key under it has become a dotted key. Other members
may have the same key as the dotted one. -/
inductive DottedIn : List (String × Json) → List (String × Json) → Prop where
  | here (before after : List (String × Json)) {key further : String} (value : Json)
      (plain : isUnderscored key = false) (plain' : isUnderscored further = false) :
      DottedIn (before ++ (key, .object [(further, value)]) :: after)
        (before ++ (key ++ "." ++ further, value) :: after)
  /-- in an item of a combination -/
  | item (before after : List (String × Json)) (op : Connective) (earlier later : List Json)
      {members members' : List (String × Json)} (inside : DottedIn members members') :
      DottedIn (before ++ (op.key, .array (earlier ++ .object members :: later)) :: after)
        (before ++ (op.key, .array (earlier ++ .object members' :: later)) :: after)
  /-- in the object under a field -/
  | nested (before after : List (String × Json)) {key : String}
      {members members' : List (String × Json)} (plain : isUnderscored key = false)
      (inside : DottedIn members members') :
      DottedIn (before ++ (key, .object members) :: after)
        (before ++ (key, .object members') :: after)

/-- A document with a dotted key in place of a field with one further field key under it. -/
inductive Dotted : Json → Json → Prop where
  | object {members members' : List (String × Json)} (inside : DottedIn members members') :
      Dotted (.object members) (.object members')

/-! ### Dotted keys -/

theorem split_dotted (key further : String) :
    Text.split '.' (key ++ "." ++ further) = Text.split '.' key ++ Text.split '.' further := by
  simp [Text.split, Text.splitChars_append]

theorem isUnderscored_dotted {key : String} (plain : isUnderscored key = false)
    (further : String) : isUnderscored (key ++ "." ++ further) = false := by
  cases chars : key.toList with
  | nil => simp [isUnderscored, chars]
  | cons c cs => simpa [isUnderscored, chars] using plain

theorem isFieldKey_dotted {key further : String} (plain : isUnderscored key = false)
    (plain' : isUnderscored further = false) :
    IsFieldKey (key ++ "." ++ further) ↔ IsFieldKey key ∧ IsFieldKey further := by
  rw [isFieldKey_iff (isUnderscored_dotted plain further), isFieldKey_iff plain,
    isFieldKey_iff plain', split_dotted, List.mem_append, not_or]

theorem isOperatorKey_of_plain {key : String} (plain : isUnderscored key = false) :
    isOperatorKey key = false := by
  simp [isOperatorKey, plain]

theorem isOperatorKey_connective (op : Connective) : isOperatorKey op.key = false := by
  simp [isOperatorKey]

/-! ### Sizes -/

/-- The bytes of a string between its quotes. -/
def escapedSize (s : String) : Nat :=
  (String.ofList (s.toList.flatMap Json.escapeChar)).utf8ByteSize

theorem size_quote (s : String) : (quote s).utf8ByteSize = escapedSize s + 2 := by
  have parts : quote s =
      "\"" ++ String.ofList (s.toList.flatMap Json.escapeChar) ++ "\"" := by
    apply String.toList_injective
    simp [quote]
  have mark : "\"".utf8ByteSize = 1 := rfl
  rw [parts, String.utf8ByteSize_append, String.utf8ByteSize_append, mark, escapedSize]
  omega

theorem escapedSize_dotted (key further : String) :
    escapedSize (key ++ "." ++ further) = escapedSize key + escapedSize further + 1 := by
  have parts : String.ofList ((key ++ "." ++ further).toList.flatMap Json.escapeChar) =
      String.ofList (key.toList.flatMap Json.escapeChar) ++ "." ++
        String.ofList (further.toList.flatMap Json.escapeChar) := by
    apply String.toList_injective
    simp [Json.escapeChar]
  have dot : ".".utf8ByteSize = 1 := rfl
  rw [escapedSize, parts, String.utf8ByteSize_append, String.utf8ByteSize_append, dot, escapedSize,
    escapedSize]
  omega

theorem size_member (key : String) (value : Json) :
    (compactMembers [(key, value)]).utf8ByteSize =
      escapedSize key + 3 + value.compact.utf8ByteSize := by
  have colon : ":".utf8ByteSize = 1 := rfl
  rw [compactMembers, String.utf8ByteSize_append, String.utf8ByteSize_append, size_quote, colon]

theorem size_object (members : List (String × Json)) :
    (compact (.object members)).utf8ByteSize = (compactMembers members).utf8ByteSize + 2 := by
  have opening : "\x7b".utf8ByteSize = 1 := rfl
  have closing : "\x7d".utf8ByteSize = 1 := rfl
  rw [compact, String.utf8ByteSize_append, String.utf8ByteSize_append, opening, closing]
  omega

theorem size_array (items : List Json) :
    (compact (.array items)).utf8ByteSize = (compactItems items).utf8ByteSize + 2 := by
  have opening : "[".utf8ByteSize = 1 := rfl
  have closing : "]".utf8ByteSize = 1 := rfl
  rw [compact, String.utf8ByteSize_append, String.utf8ByteSize_append, opening, closing]
  omega

theorem size_items_cons (x y : Json) (rest : List Json) :
    (compactItems (x :: y :: rest)).utf8ByteSize =
      x.compact.utf8ByteSize + 1 + (compactItems (y :: rest)).utf8ByteSize := by
  have comma : ",".utf8ByteSize = 1 := rfl
  rw [compactItems, String.utf8ByteSize_append, String.utf8ByteSize_append, comma]

theorem size_members_cons (m n : String × Json) (rest : List (String × Json)) :
    (compactMembers (m :: n :: rest)).utf8ByteSize =
      (compactMembers [m]).utf8ByteSize + 1 + (compactMembers (n :: rest)).utf8ByteSize := by
  obtain ⟨key, value⟩ := m
  have comma : ",".utf8ByteSize = 1 := rfl
  simp only [compactMembers, String.utf8ByteSize_append, comma]

/-- An array is no larger if an item becomes no larger. -/
theorem size_items_le {x x' : Json} (le : x'.compact.utf8ByteSize ≤ x.compact.utf8ByteSize)
    (before after : List Json) :
    (compactItems (before ++ x' :: after)).utf8ByteSize ≤
      (compactItems (before ++ x :: after)).utf8ByteSize := by
  induction before with
  | nil =>
      cases after with
      | nil => simpa [compactItems] using le
      | cons n rest =>
          rw [List.nil_append, List.nil_append, size_items_cons, size_items_cons]
          omega
  | cons n rest ih =>
      cases rest with
      | nil =>
          simp only [List.cons_append, List.nil_append, size_items_cons n] at ih ⊢
          omega
      | cons r rest =>
          simp only [List.cons_append, size_items_cons n] at ih ⊢
          omega

/-- An object is no larger if a member becomes no larger. -/
theorem size_members_le {m m' : String × Json}
    (le : (compactMembers [m']).utf8ByteSize ≤ (compactMembers [m]).utf8ByteSize)
    (before after : List (String × Json)) :
    (compactMembers (before ++ m' :: after)).utf8ByteSize ≤
      (compactMembers (before ++ m :: after)).utf8ByteSize := by
  induction before with
  | nil =>
      cases after with
      | nil => exact le
      | cons n rest =>
          rw [List.nil_append, List.nil_append, size_members_cons, size_members_cons]
          omega
  | cons n rest ih =>
      cases rest with
      | nil =>
          simp only [List.cons_append, List.nil_append, size_members_cons n] at ih ⊢
          omega
      | cons r rest =>
          simp only [List.cons_append, size_members_cons n] at ih ⊢
          omega

/-! ### Members that say the same -/

/-- Members that write what others write, in no more levels and no more bytes. -/
structure Condenses (members members' : List (String × Json)) : Prop where
  writes (filter : Filter) : Writes members filter ↔ Writes members' filter
  under (path : List String) (entries : Filter) :
    WritesUnder path (.object members) entries ↔ WritesUnder path (.object members') entries
  levels_le : levels members' ≤ levels members
  levelsUnder_le : levelsUnder (.object members') ≤ levelsUnder (.object members)
  size_le : (compactMembers members').utf8ByteSize ≤ (compactMembers members).utf8ByteSize

theorem writes_singleton {key : String} {value : Json} {filter : Filter} :
    Writes [(key, value)] filter ↔ WritesMember key value filter := by
  simp [writes_cons, writes_nil]

theorem levels_append (ms ns : List (String × Json)) :
    levels (ms ++ ns) = max (levels ms) (levels ns) := by
  induction ms with
  | nil => simp [levels]
  | cons m rest ih =>
      obtain ⟨key, value⟩ := m
      rw [List.cons_append, levels, levels, ih, Nat.max_assoc]

theorem levels_cons (m : String × Json) (rest : List (String × Json)) :
    levels (m :: rest) = max (levels [m]) (levels rest) :=
  levels_append [m] rest

/-- An object under a path with a key that is no operator takes one level. -/
theorem levelsUnder_object {members : List (String × Json)} {m : String × Json}
    (mem : m ∈ members) (free : isOperatorKey m.1 = false) :
    levelsUnder (.object members) = levels members + 1 := by
  have form := describes_fieldForm (members.map Prod.fst)
  rw [levelsUnder, if_neg]
  intro operators
  rw [operators] at form
  have operator := form.2 m.1 (List.mem_map_of_mem mem)
  rw [free] at operator
  cases operator

/-- Operators beside another key write nothing. -/
theorem not_writesUnder_of_operator {members : List (String × Json)} {m n : String × Json}
    (mem : m ∈ members) (free : isOperatorKey m.1 = false) (mem' : n ∈ members)
    (operator : isOperatorKey n.1 = true) {path : List String} {entries : Filter} :
    ¬ WritesUnder path (.object members) entries :=
  not_writesUnder_mixed
    ⟨⟨n.1, List.mem_map_of_mem mem', operator⟩, ⟨m.1, List.mem_map_of_mem mem, free⟩⟩

section Among

variable {m m' : String × Json} (one : Condenses [m] [m']) (free : isOperatorKey m.1 = false)
  (free' : isOperatorKey m'.1 = false) (before after : List (String × Json))

include one

theorem Condenses.writes_among (filter : Filter) :
    Writes (before ++ m :: after) filter ↔ Writes (before ++ m' :: after) filter := by
  obtain ⟨key, value⟩ := m
  obtain ⟨key', value'⟩ := m'
  induction before generalizing filter with
  | nil =>
      have same (entries : Filter) : WritesMember key value entries ↔
          WritesMember key' value' entries := by
        rw [← writes_singleton, ← writes_singleton]
        exact one.writes entries
      simp only [List.nil_append, writes_cons, same]
  | cons n rest ih =>
      obtain ⟨key, value⟩ := n
      simp only [List.cons_append, writes_cons, ih]

include free free'

theorem Condenses.under_among (path : List String) (entries : Filter) :
    WritesUnder path (.object (before ++ m :: after)) entries ↔
      WritesUnder path (.object (before ++ m' :: after)) entries := by
  by_cases alone : before = [] ∧ after = []
  · obtain ⟨rfl, rfl⟩ := alone
    exact one.under path entries
  by_cases operator : ∃ n ∈ before ++ after, isOperatorKey n.1 = true
  · obtain ⟨n, mem, operator⟩ := operator
    have mem (l : String × Json) : n ∈ before ++ l :: after := by
      simp only [List.mem_append, List.mem_cons] at mem ⊢
      exact mem.imp_right .inr
    exact iff_of_false (not_writesUnder_of_operator (by simp) free (mem m) operator)
      (not_writesUnder_of_operator (by simp) free' (mem m') operator)
  · have form {l : String × Json} (plain : isOperatorKey l.1 = false) :
        FieldForm.filter.Describes ((before ++ l :: after).map Prod.fst) := by
      refine ⟨?_, .inl ?_⟩
      · simp only [List.mem_append, not_exists, not_and, Bool.not_eq_true] at operator
        simp only [List.map_append, List.map_cons, List.mem_append, List.mem_cons, List.mem_map]
        rintro key (⟨n, mem, rfl⟩ | rfl | ⟨n, mem, rfl⟩)
        · exact operator n (.inl mem)
        · exact plain
        · exact operator n (.inr mem)
      · have some : before.length + after.length ≠ 0 := by
          simpa [List.length_eq_zero_iff] using alone
        simp only [List.map_append, List.map_cons, List.length_append, List.length_cons,
          List.length_map]
        omega
    simp only [writesUnder_filter (form free), writesUnder_filter (form free'),
      one.writes_among before after]

/-- A member that condenses another one does so among others. -/
theorem Condenses.among : Condenses (before ++ m :: after) (before ++ m' :: after) := by
  have levels_le : levels (before ++ m' :: after) ≤ levels (before ++ m :: after) := by
    rw [levels_append, levels_append, levels_cons m', levels_cons m]
    have := one.levels_le
    omega
  refine ⟨one.writes_among before after, one.under_among free free' before after, levels_le, ?_,
    size_members_le one.size_le before after⟩
  rw [levelsUnder_object (m := m') (by simp) free', levelsUnder_object (m := m) (by simp) free]
  omega

end Among

/-! ### One place -/

theorem levels_field {key : String} (plain : isUnderscored key = false) (value : Json) :
    levels [(key, value)] = levelsUnder value := by
  simp [levels, ofKey?_of_plain plain]

theorem levels_combination (op : Connective) (items : List Json) :
    levels [(op.key, .array items)] = levelsItems items := by
  simp [levels, levelsCombined]

theorem levelsItems_append (xs ys : List Json) :
    levelsItems (xs ++ ys) = max (levelsItems xs) (levelsItems ys) := by
  induction xs with
  | nil => simp [levelsItems]
  | cons x rest ih => cases x <;> simp [levelsItems, ih, Nat.max_assoc]

/-- A field with one further field key under it is condensed by the dotted key. -/
theorem condenses_dotted {key further : String} (plain : isUnderscored key = false)
    (plain' : isUnderscored further = false) (value : Json) :
    Condenses [(key, .object [(further, value)])] [(key ++ "." ++ further, value)] := by
  have dotted := isUnderscored_dotted plain further
  have levels_le : levels [(key ++ "." ++ further, value)] ≤
      levels [(key, .object [(further, value)])] := by
    have inner := levelsUnder_object (List.mem_singleton_self (further, value))
      (isOperatorKey_of_plain plain')
    rw [levels_field dotted, levels_field plain, inner, levels_field plain']
    omega
  refine ⟨fun filter => ?_, fun path entries => ?_, levels_le, ?_, ?_⟩
  · rw [writes_singleton, writes_singleton, writesMember_field (ofKey?_of_plain plain),
      writesMember_field (ofKey?_of_plain dotted), writesUnder_step plain',
      isFieldKey_dotted plain plain', split_dotted, and_assoc]
  · rw [writesUnder_step plain, writesUnder_step plain', writesUnder_step dotted,
      isFieldKey_dotted plain plain', split_dotted, and_assoc, List.append_assoc]
  · have outer {k : String} (plain : isUnderscored k = false) (v : Json) :=
      levelsUnder_object (List.mem_singleton_self (k, v)) (isOperatorKey_of_plain plain)
    rw [outer dotted, outer plain]
    omega
  · rw [size_member, size_member, escapedSize_dotted, size_object, size_member]
    omega

/-- A combination is condensed with an item of it. -/
theorem condenses_item {members members' : List (String × Json)}
    (inside : Condenses members members') (op : Connective) (earlier later : List Json) :
    Condenses [(op.key, .array (earlier ++ .object members :: later))]
      [(op.key, .array (earlier ++ .object members' :: later))] := by
  have items (children : List Filter) :
      WritesItems (earlier ++ .object members :: later) children ↔
        WritesItems (earlier ++ .object members' :: later) children := by
    induction earlier generalizing children with
    | nil => simp only [List.nil_append, writesItems_cons, inside.writes]
    | cons item rest ih =>
        rw [List.cons_append, List.cons_append]
        cases item with
        | object ms => simp only [writesItems_cons, ih]
        | _ => refine iff_of_false ?_ ?_ <;> exact not_writesItems (by simp [Json.kind])
  have writes (filter : Filter) : Writes [(op.key, .array (earlier ++ .object members :: later))]
      filter ↔ Writes [(op.key, .array (earlier ++ .object members' :: later))] filter := by
    simp [writes_singleton, writesMember_connective, items]
  have form (value : Json) : FieldForm.filter.Describes ([(op.key, value)].map Prod.fst) :=
    ⟨by simp [isOperatorKey_connective], .inr ⟨op, rfl⟩⟩
  have levels_le : levels [(op.key, .array (earlier ++ .object members' :: later))] ≤
      levels [(op.key, .array (earlier ++ .object members :: later))] := by
    have := inside.levels_le
    rw [levels_combination, levels_combination, levelsItems_append, levelsItems_append,
      levelsItems, levelsItems]
    omega
  refine ⟨writes, fun path entries => ?_, levels_le, ?_, ?_⟩
  · simp only [writesUnder_filter (form _), writes]
  · have outer (v : Json) :=
      levelsUnder_object (List.mem_singleton_self (op.key, v)) (isOperatorKey_connective op)
    rw [outer, outer]
    omega
  · have item : (compact (.object members')).utf8ByteSize ≤
        (compact (.object members)).utf8ByteSize := by
      rw [size_object, size_object]
      exact Nat.add_le_add_right inside.size_le 2
    have smaller := size_items_le item earlier later
    rw [size_member, size_member, size_array, size_array]
    omega

/-- A field is condensed with the object under it. -/
theorem condenses_nested {members members' : List (String × Json)}
    (inside : Condenses members members') {key : String} (plain : isUnderscored key = false) :
    Condenses [(key, .object members)] [(key, .object members')] := by
  have levels_le : levels [(key, .object members')] ≤ levels [(key, .object members)] := by
    rw [levels_field plain, levels_field plain]
    exact inside.levelsUnder_le
  refine ⟨fun filter => ?_, fun path entries => ?_, levels_le, ?_, ?_⟩
  · simp only [writes_singleton, writesMember_field (ofKey?_of_plain plain), inside.under]
  · simp only [writesUnder_step plain, inside.under]
  · have outer (v : Json) :=
      levelsUnder_object (List.mem_singleton_self (key, v)) (isOperatorKey_of_plain plain)
    rw [outer, outer]
    omega
  · have := inside.size_le
    rw [size_member, size_member, size_object, size_object]
    omega

/-- The object in which a field has become a dotted key writes the same. -/
theorem DottedIn.condenses {members members' : List (String × Json)}
    (dotted : DottedIn members members') : Condenses members members' := by
  induction dotted with
  | here before after value plain plain' =>
      exact (condenses_dotted plain plain' value).among (isOperatorKey_of_plain plain)
        (isOperatorKey_of_plain (isUnderscored_dotted plain _)) before after
  | item before after op earlier later _ inside =>
      exact (condenses_item inside op earlier later).among (isOperatorKey_connective op)
        (isOperatorKey_connective op) before after
  | nested before after plain _ inside =>
      exact (condenses_nested inside plain).among (isOperatorKey_of_plain plain)
        (isOperatorKey_of_plain plain) before after

/-- A document with a dotted key is read as the same filter as the document with a nested object in
its place, and the other way round within the limits of size and levels. -/
theorem ofJson_dotted {nested dotted : Json} (replaced : Dotted nested dotted)
    (options : CompileOptions) (filter : Filter) :
    (ofJson options nested = .ok filter → ofJson options dotted = .ok filter) ∧
      (ofJson options dotted = .ok filter → nested.compact.utf8ByteSize ≤ options.maxBytes →
        levelsOf nested ≤ options.maxDepth → ofJson options nested = .ok filter) := by
  obtain ⟨inside⟩ := replaced
  have condenses := inside.condenses
  simp only [ofJson_eq_ok, writesDocument_object, condenses.writes, size_object, levelsOf]
  have levels_le := condenses.levels_le
  have size_le := condenses.size_le
  constructor
  · rintro ⟨writes, small, shallow⟩
    exact ⟨writes, by omega, by omega⟩
  · rintro ⟨writes, -, -⟩ small shallow
    exact ⟨writes, small, shallow⟩

/-- Books whose author also wrote Emma, with nested objects. -/
def nestedAuthor : Json :=
  .object [("_or", .array [
    .object [("id", .string "7"),
      ("author", .object [("books", .object [("title", .string "Emma")])])]])]

/-- The same with a dotted key. -/
def dottedAuthor : Json :=
  .object [("_or", .array [
    .object [("id", .string "7"), ("author.books", .object [("title", .string "Emma")])]])]

/-- Both are read as one filter. The nested one takes one level more. -/
theorem ofJson_dotted_author :
    Dotted nestedAuthor dottedAuthor ∧
    (∃ filter, ofJson {} nestedAuthor = .ok filter ∧ ofJson {} dottedAuthor = .ok filter) ∧
    levelsOf nestedAuthor = 4 ∧ levelsOf dottedAuthor = 3 ∧
    ∃ filter, ofJson { maxDepth := 4 } dottedAuthor = .ok filter ∧
      ofJson { maxDepth := 4 } nestedAuthor = .ok filter := by
  have replaced : Dotted nestedAuthor dottedAuthor :=
    .object (.item [] [] .or [] [] (.here [("id", .string "7")] [] _ rfl rfl))
  have same := ofJson_dotted replaced
  exact ⟨replaced, ⟨_, rfl, (same {} _).1 rfl⟩, rfl, rfl,
    ⟨_, rfl, (same { maxDepth := 4 } _).2 rfl (by decide) (by decide)⟩⟩

end Filter

end FilterSql
