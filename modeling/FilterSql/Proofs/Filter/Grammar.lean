import FilterSql.Proofs.Conditions

/-!
The documents that are filters.

The grammar of filter documents is given without the reader: objects that are filters at a level
(`Filter.IsObject`), their members (`Filter.IsEntry`), and what may stand under a field path
(`Filter.IsFieldValue`). Combinations, further field keys and filters under a path each take one
level, while operators and operands take none. `Filter.ofJson_accepts_iff` says that the reader
accepts null and the objects of the grammar, within the size limit, and that it fails on all other
documents.
-/

namespace FilterSql

namespace Filter

/-! ### The grammar -/

/-- A key that names a field path: it does not start with an underscore, and none of the segments
between its dots is empty. -/
structure IsFieldKey (key : String) : Prop where
  plain : isUnderscored key = false
  proper : "" ∉ Text.split '.' key

mutual

/-- The members of an object that is a filter at a level. -/
inductive IsObject (maxDepth : Nat) : Nat → List (String × Json) → Prop where
  | intro {level : Nat} {members : List (String × Json)} (within : level ≤ maxDepth)
      (entries : ∀ m ∈ members, IsEntry maxDepth level m.1 m.2) : IsObject maxDepth level members

/-- A member of a filter at a level. -/
inductive IsEntry (maxDepth : Nat) : Nat → String → Json → Prop where
  /-- a connective over filters one level further -/
  | combination {level : Nat} (op : Connective) {filters : List (List (String × Json))}
      (each : ∀ members ∈ filters, IsObject maxDepth (level + 1) members) :
      IsEntry maxDepth level op.key (.array (filters.map .object))
  | field {level : Nat} {key : String} {value : Json} (named : IsFieldKey key)
      (under : IsFieldValue maxDepth level value) : IsEntry maxDepth level key value

/-- What stands under a field path at a level. -/
inductive IsFieldValue (maxDepth : Nat) : Nat → Json → Prop where
  /-- an operand alone, which is compared for equality -/
  | operand {level : Nat} {value : Json} (bare : value.kind ≠ .object) :
      IsFieldValue maxDepth level value
  | operators {level : Nat} {members : List (String × Json)} (some : members ≠ [])
      (known : ∀ m ∈ members, ∃ operator : Operator, m.1 = operator.key) :
      IsFieldValue maxDepth level (.object members)
  /-- one further field key -/
  | step {level : Nat} {key : String} {value : Json} (named : IsFieldKey key)
      (within : level + 1 ≤ maxDepth) (under : IsFieldValue maxDepth (level + 1) value) :
      IsFieldValue maxDepth level (.object [(key, value)])
  /-- a filter that is not a single field key -/
  | filter {level : Nat} {members : List (String × Json)}
      (form : members.length ≠ 1 ∨ ∃ (op : Connective) (value : Json), members = [(op.key, value)])
      (free : ∀ m ∈ members, isOperatorKey m.1 = false)
      (inside : IsObject maxDepth (level + 1) members) :
      IsFieldValue maxDepth level (.object members)

end

/-- A document within the size limit that is null or a filter at the first level. -/
structure IsDocument (options : CompileOptions) (document : Json) : Prop where
  small : document.compact.utf8ByteSize ≤ options.maxBytes
  form : document = .null ∨
    ∃ members, document = .object members ∧ IsObject options.maxDepth 1 members

/-! ### Keys -/

theorem isOperatorKey_operator (operator : Operator) : isOperatorKey operator.key = true := by
  cases operator <;> decide

theorem isUnderscored_connective (op : Connective) : isUnderscored op.key = true := by
  cases op <;> decide

theorem isFieldKey_iff {key : String} (plain : isUnderscored key = false) :
    IsFieldKey key ↔ "" ∉ Text.split '.' key :=
  ⟨IsFieldKey.proper, fun proper => ⟨plain, proper⟩⟩

theorem IsFieldKey.isOperatorKey_eq_false {key : String} (named : IsFieldKey key) :
    isOperatorKey key = false := by
  simp [isOperatorKey, named.plain]

/-- What is known of the keys of an object under a field path, by its form. -/
def FieldForm.Describes (keys : List String) : FieldForm → Prop
  | .operators => keys ≠ [] ∧ ∀ key ∈ keys, isOperatorKey key = true
  | .mixed => (∃ key ∈ keys, isOperatorKey key = true) ∧ ∃ key ∈ keys, isOperatorKey key = false
  | .step => ∃ key, keys = [key] ∧ isUnderscored key = false
  | .filter => (∀ key ∈ keys, isOperatorKey key = false) ∧
      (keys.length ≠ 1 ∨ ∃ op : Connective, keys = [op.key])

theorem describes_fieldForm (keys : List String) : (fieldForm keys).Describes keys := by
  simp only [fieldForm]
  split
  · next none =>
      have free : ∀ key ∈ keys, isOperatorKey key = false := by
        simpa [List.filter_eq_nil_iff] using none
      split
      · next key =>
          cases combined : Connective.ofKey? key with
          | none => exact ⟨key, rfl, by simpa [isOperatorKey, combined] using free⟩
          | some op =>
              exact ⟨free, .inr ⟨op, by rw [Connective.key_of_ofKey? combined]⟩⟩
      · next several =>
          refine ⟨free, .inl fun single => ?_⟩
          obtain ⟨key, only⟩ := List.length_eq_one_iff.mp single
          exact several key only
  · next some =>
      obtain ⟨key, mem, operator⟩ : ∃ key ∈ keys, isOperatorKey key = true := by
        simpa [List.filter_eq_nil_iff] using some
      split
      · next all =>
          refine ⟨List.ne_nil_of_mem mem, ?_⟩
          exact List.length_filter_eq_length_iff.mp all
      · next part =>
          refine ⟨⟨key, mem, operator⟩, Classical.byContradiction fun others => part ?_⟩
          exact List.length_filter_eq_length_iff.mpr (by simpa using others)

/-- A key that does not start with an underscore is no filter by itself. -/
theorem not_describes_filter {key : String} (plain : isUnderscored key = false) :
    ¬ FieldForm.filter.Describes [key] := by
  rintro ⟨-, several | ⟨op, same⟩⟩
  · exact several rfl
  · rw [List.singleton_inj.mp same, isUnderscored_connective] at plain
    cases plain

section FieldValue

variable {maxDepth level : Nat} {members : List (String × Json)}

theorem describes_filter_iff :
    FieldForm.filter.Describes (members.map Prod.fst) ↔
      (members.length ≠ 1 ∨ ∃ (op : Connective) (value : Json), members = [(op.key, value)]) ∧
        ∀ m ∈ members, isOperatorKey m.1 = false := by
  constructor
  · rintro ⟨free, shape⟩
    refine ⟨?_, fun m mem => free m.1 (List.mem_map_of_mem mem)⟩
    rcases shape with several | ⟨op, same⟩
    · exact .inl (by simpa using several)
    · obtain ⟨⟨_, value⟩, rfl, rfl⟩ := List.map_eq_singleton_iff.mp same
      exact .inr ⟨op, value, rfl⟩
  · rintro ⟨form, free⟩
    refine ⟨by simpa using free, ?_⟩
    rcases form with several | ⟨op, value, rfl⟩
    · exact .inl (by simpa using several)
    · exact .inr ⟨op, rfl⟩

/-- Operators alone stand under a path if all of them are known. -/
theorem isFieldValue_operators (form : FieldForm.operators.Describes (members.map Prod.fst)) :
    IsFieldValue maxDepth level (.object members) ↔
      ∀ m ∈ members, ∃ operator : Operator, m.1 = operator.key := by
  obtain ⟨some, all⟩ := form
  constructor
  · intro value
    cases value with
    | operand bare => exact absurd rfl bare
    | operators _ known => exact known
    | @step _ key _ named _ _ =>
        have operator := all key (by simp)
        simp [named.isOperatorKey_eq_false] at operator
    | filter _ free _ =>
        obtain ⟨m, mem⟩ := List.exists_mem_of_ne_nil members (by simpa using some)
        have operator := all m.1 (List.mem_map_of_mem mem)
        simp [free m mem] at operator
  · exact .operators (by simpa using some)

/-- Operators beside other keys do not stand under a path. -/
theorem not_isFieldValue_mixed (form : FieldForm.mixed.Describes (members.map Prod.fst)) :
    ¬ IsFieldValue maxDepth level (.object members) := by
  obtain ⟨⟨_, among, operator⟩, ⟨_, among', other⟩⟩ := form
  obtain ⟨m, mem, rfl⟩ := List.mem_map.mp among
  obtain ⟨n, mem', rfl⟩ := List.mem_map.mp among'
  intro value
  cases value with
  | operand bare => exact bare rfl
  | operators _ known =>
      obtain ⟨op, same⟩ := known n mem'
      simp [same, isOperatorKey_operator] at other
  | step named _ _ =>
      obtain rfl := List.mem_singleton.mp mem
      simp [named.isOperatorKey_eq_false] at operator
  | filter _ free _ => simp [free m mem] at operator

/-- A single key that does not start with an underscore extends the path. -/
theorem isFieldValue_step (form : FieldForm.step.Describes (members.map Prod.fst)) :
    IsFieldValue maxDepth level (.object members) ↔
      ∃ key value, members = [(key, value)] ∧
        "" ∉ Text.split '.' key ∧ level + 1 ≤ maxDepth ∧
          IsFieldValue maxDepth (level + 1) value := by
  obtain ⟨key, single, plain⟩ := form
  obtain ⟨⟨_, value⟩, rfl, rfl⟩ := List.map_eq_singleton_iff.mp single
  constructor
  · intro value
    cases value with
    | operand bare => exact absurd rfl bare
    | operators _ known =>
        obtain ⟨op, same⟩ := known _ (List.mem_singleton.mpr rfl)
        have operator := isOperatorKey_operator op
        simp [← same, isOperatorKey, plain] at operator
    | step named within under => exact ⟨_, _, rfl, named.proper, within, under⟩
    | filter form _ _ =>
        rcases form with several | ⟨op, _, same⟩
        · exact absurd rfl several
        · cases same
          simp [isUnderscored_connective] at plain
  · rintro ⟨key, value, same, proper, within, under⟩
    cases same
    exact .step ⟨plain, proper⟩ within under

/-- Anything else under a path is a filter. -/
theorem isFieldValue_filter (form : FieldForm.filter.Describes (members.map Prod.fst)) :
    IsFieldValue maxDepth level (.object members) ↔ IsObject maxDepth (level + 1) members := by
  obtain ⟨shape, free⟩ := describes_filter_iff.mp form
  constructor
  · intro value
    cases value with
    | operand bare => exact absurd rfl bare
    | operators some known =>
        obtain ⟨m, mem⟩ := List.exists_mem_of_ne_nil members some
        obtain ⟨op, same⟩ := known m mem
        have other := free m mem
        simp [same, isOperatorKey_operator] at other
    | step named _ _ => exact absurd form (not_describes_filter named.plain)
    | filter _ _ inside => exact inside
  · exact .filter shape free

end FieldValue

/-! ### Acceptance -/

/-- A computation that has a result. -/
def Accepts {ε α : Type} (x : Except ε α) : Prop := ∃ a, x = .ok a

section Accepts

variable {ε α β : Type}

@[simp] theorem accepts_ok (a : α) : Accepts (.ok a : Except ε α) := ⟨a, rfl⟩

@[simp] theorem accepts_pure (a : α) : Accepts (pure a : Except ε α) := ⟨a, rfl⟩

@[simp] theorem not_accepts_error (e : ε) : ¬ Accepts (.error e : Except ε α) := by
  rintro ⟨a, same⟩
  cases same

/-- A computation in two steps has a result if both have, where the second one has for any or for no
result of the first. -/
theorem accepts_bind {x : Except ε α} {k : α → Except ε β} {P : Prop}
    (uniform : ∀ a, Accepts (k a) ↔ P) : Accepts (x >>= k) ↔ Accepts x ∧ P := by
  cases x with
  | error e => simp [bind, Except.bind]
  | ok a => simpa [bind, Except.bind] using uniform a

/-- What is made of a result does not count. -/
theorem accepts_bind_pure {x : Except ε α} (f : α → β) :
    Accepts (x >>= fun a => pure (f a)) ↔ Accepts x := by
  rw [accepts_bind fun _ => iff_true_intro (accepts_pure _), and_true]

end Accepts

theorem accepts_checkDepth {maxDepth depth : Nat} :
    Accepts (checkDepth maxDepth depth) ↔ depth ≤ maxDepth := by
  simp only [checkDepth]
  split <;> simp <;> omega

theorem accepts_checkSize {maxBytes bytes : Nat} :
    Accepts (checkSize maxBytes bytes) ↔ bytes ≤ maxBytes := by
  simp only [checkSize]
  split <;> simp <;> omega

theorem accepts_segments {key : String} : Accepts (segments key) ↔ "" ∉ Text.split '.' key := by
  simp only [segments]
  split <;> simp_all

theorem accepts_comparisons (path : List String) (members : List (String × Json)) :
    Accepts (comparisons path members) ↔
      ∀ m ∈ members, ∃ operator : Operator, m.1 = operator.key := by
  induction members with
  | nil => simp [comparisons]
  | cons m rest ih =>
      obtain ⟨key, operand⟩ := m
      rw [List.forall_mem_cons, comparisons]
      cases known : Operator.ofKey? key with
      | none =>
          have unknown : ¬ ∃ operator : Operator, key = operator.key := by
            rintro ⟨operator, rfl⟩
            simp at known
          simp [unknown]
      | some operator =>
          have named : ∃ operator : Operator, key = operator.key :=
            ⟨operator, Operator.key_of_ofKey? known⟩
          simp only [accepts_bind_pure, ih, named, true_and]

/-- The entry of a connective combines filters. -/
theorem isEntry_connective {maxDepth level : Nat} (op : Connective) {value : Json} :
    IsEntry maxDepth level op.key value ↔
      ∃ filters : List (List (String × Json)), value = .array (filters.map .object) ∧
        ∀ members ∈ filters, IsObject maxDepth (level + 1) members := by
  constructor
  · intro entry
    generalize same : op.key = key at entry
    cases entry with
    | combination _ each => exact ⟨_, rfl, each⟩
    | field named _ =>
        have plain := named.plain
        rw [← same, isUnderscored_connective] at plain
        cases plain
  · rintro ⟨filters, rfl, each⟩
    exact .combination op each

/-- The entry of any other key is a field. -/
theorem isEntry_field {maxDepth level : Nat} {key : String} (other : Connective.ofKey? key = none)
    {value : Json} : IsEntry maxDepth level key value ↔
      IsFieldKey key ∧ IsFieldValue maxDepth level value := by
  constructor
  · intro entry
    cases entry with
    | combination op _ => simp at other
    | field named under => exact ⟨named, under⟩
  · rintro ⟨named, under⟩
    exact .field named under

theorem isObject_iff {maxDepth level : Nat} {members : List (String × Json)} :
    IsObject maxDepth level members ↔
      level ≤ maxDepth ∧ ∀ m ∈ members, IsEntry maxDepth level m.1 m.2 :=
  ⟨fun ⟨within, entries⟩ => ⟨within, entries⟩, fun ⟨within, entries⟩ => ⟨within, entries⟩⟩

mutual

/-- The reader accepts the members of an object if each of them is an entry. -/
theorem accepts_ofMembers (maxDepth level : Nat) : ∀ (members : List (String × Json)),
    Accepts (ofMembers maxDepth level members) ↔ ∀ m ∈ members, IsEntry maxDepth level m.1 m.2
  | [] => by simp [ofMembers]
  | (key, value) :: rest => by
      have later : ∀ entries : Filter, Accepts (do
          let others ← ofMembers maxDepth level rest
          return entries ++ others) ↔ ∀ m ∈ rest, IsEntry maxDepth level m.1 m.2 := by
        intro entries
        rw [accepts_bind_pure, accepts_ofMembers maxDepth level rest]
      rw [List.forall_mem_cons, ofMembers]
      cases combined : Connective.ofKey? key with
      | some op =>
          obtain rfl := Connective.key_of_ofKey? combined
          have entry := accepts_ofCombined maxDepth level op.key value
          rw [isEntry_connective, ← entry]
          exact accepts_bind fun children => later [.group op children]
      | none =>
          rw [isEntry_field combined]
          dsimp only
          split
          · next underscored =>
              have unnamed : ¬ IsFieldKey key := by
                intro named
                simp [named.plain] at underscored
              simp only [unnamed, false_and, iff_false]
              exact not_accepts_error _
          · next other =>
              have plain : isUnderscored key = false := by simpa using other
              have field : ∀ path, Accepts (ofField maxDepth level path value) ↔
                  IsFieldValue maxDepth level value :=
                fun path => accepts_ofField maxDepth level path value
              rw [isFieldKey_iff plain, and_assoc, ← accepts_segments]
              refine accepts_bind fun path => ?_
              rw [← field path]
              exact accepts_bind later

theorem accepts_ofCombined (maxDepth level : Nat) (key : String) : ∀ (value : Json),
    Accepts (ofCombined maxDepth level key value) ↔
      ∃ filters : List (List (String × Json)), value = .array (filters.map .object) ∧
        ∀ members ∈ filters, IsObject maxDepth (level + 1) members
  | .array items => by
      rw [ofCombined, accepts_ofItems maxDepth level key items]
      simp
  | .null | .bool _ | .number _ | .string _ | .object _ => by simp [ofCombined]

theorem accepts_ofItems (maxDepth level : Nat) (key : String) : ∀ (items : List Json),
    Accepts (ofItems maxDepth level key items) ↔
      ∃ filters : List (List (String × Json)), items = filters.map .object ∧
        ∀ members ∈ filters, IsObject maxDepth (level + 1) members
  | [] => by simp [ofItems]
  | .object members :: rest => by
      have later : ∀ child : Filter, Accepts (do
          let children ← ofItems maxDepth level key rest
          return child :: children) ↔
          ∃ filters : List (List (String × Json)), rest = filters.map .object ∧
            ∀ members ∈ filters, IsObject maxDepth (level + 1) members := by
        intro child
        rw [accepts_bind_pure, accepts_ofItems maxDepth level key rest]
      rw [ofItems, accepts_bind fun _ => accepts_bind later, accepts_checkDepth,
        accepts_ofMembers maxDepth (level + 1) members]
      constructor
      · rintro ⟨within, entries, filters, rfl, each⟩
        exact ⟨members :: filters, rfl, List.forall_mem_cons.mpr ⟨.intro within entries, each⟩⟩
      · rintro ⟨filters, same, each⟩
        cases filters with
        | nil => cases same
        | cons first filters =>
            cases same
            obtain ⟨⟨within, entries⟩, each⟩ := List.forall_mem_cons.mp each
            exact ⟨within, entries, filters, rfl, each⟩
  | .null :: _ | .bool _ :: _ | .number _ :: _ | .string _ :: _ | .array _ :: _ => by
      simp only [ofItems, not_accepts_error, false_iff, not_exists, not_and]
      intro filters same
      cases filters <;> cases same

theorem accepts_ofField (maxDepth level : Nat) (path : List String) : ∀ (value : Json),
    Accepts (ofField maxDepth level path value) ↔ IsFieldValue maxDepth level value
  | .object members => by
      have form := describes_fieldForm (members.map Prod.fst)
      rw [ofField]
      cases shape : fieldForm (members.map Prod.fst) <;> rw [shape] at form
      case operators =>
        exact (accepts_comparisons path members).trans (isFieldValue_operators form).symm
      case mixed => exact iff_of_false (not_accepts_error _) (not_isFieldValue_mixed form)
      case step =>
        have one : members.length = 1 := by
          obtain ⟨key, single, -⟩ := form
          simpa using congrArg List.length single
        rw [isFieldValue_step form]
        exact accepts_ofStep maxDepth level path members one
      case filter =>
        rw [isFieldValue_filter form, isObject_iff, ← accepts_checkDepth,
          ← accepts_ofMembers maxDepth (level + 1) members]
        exact accepts_bind fun _ => accepts_bind_pure _
  | .null | .bool _ | .number _ | .string _ | .array _ => by
      simp only [ofField]
      exact iff_of_true (accepts_ok _) (.operand (by simp [Json.kind]))

theorem accepts_ofStep (maxDepth level : Nat) (path : List String) :
    ∀ (members : List (String × Json)), members.length = 1 →
    (Accepts (ofStep maxDepth level path members) ↔
      ∃ key value, members = [(key, value)] ∧
        "" ∉ Text.split '.' key ∧ level + 1 ≤ maxDepth ∧ IsFieldValue maxDepth (level + 1) value)
  | [], one => by cases one
  | (key, value) :: rest, one => by
      obtain rfl := List.length_eq_zero_iff.mp (Nat.succ.inj one)
      have field : ∀ further, Accepts (ofField maxDepth (level + 1) (path ++ further) value) ↔
          IsFieldValue maxDepth (level + 1) value :=
        fun further => accepts_ofField maxDepth (level + 1) (path ++ further) value
      rw [ofStep, accepts_bind fun _ => accepts_bind field, accepts_checkDepth, accepts_segments,
        and_left_comm]
      constructor
      · rintro step
        exact ⟨key, value, rfl, step⟩
      · rintro ⟨_, _, same, step⟩
        cases same
        exact step

end

theorem isDocument_iff {options : CompileOptions} {document : Json} :
    IsDocument options document ↔ document.compact.utf8ByteSize ≤ options.maxBytes ∧
      (document = .null ∨
        ∃ members, document = .object members ∧ IsObject options.maxDepth 1 members) :=
  ⟨fun ⟨small, form⟩ => ⟨small, form⟩, fun ⟨small, form⟩ => ⟨small, form⟩⟩

/-- The reader gives a filter exactly for the documents of the grammar that are within the size
limit, and an error for all others. -/
theorem ofJson_accepts_iff (options : CompileOptions) (document : Json) :
    ((∃ filter, ofJson options document = .ok filter) ↔ IsDocument options document) ∧
      ((∃ e, ofJson options document = .error e) ↔ ¬ IsDocument options document) := by
  have accepts : Accepts (ofJson options document) ↔ IsDocument options document := by
    unfold ofJson
    rw [isDocument_iff, ← accepts_checkSize]
    refine accepts_bind fun _ => ?_
    cases document with
    | object members =>
        have object : Accepts (do
            checkDepth options.maxDepth 1
            ofMembers options.maxDepth 1 members) ↔ IsObject options.maxDepth 1 members := by
          rw [isObject_iff, ← accepts_checkDepth, ← accepts_ofMembers]
          exact accepts_bind fun _ => Iff.rfl
        simpa using object
    | null => simp
    | _ => exact iff_of_false (not_accepts_error _) (by simp)
  refine ⟨accepts, ?_⟩
  rw [← accepts]
  cases ofJson options document with
  | ok filter => simp
  | error e => simp

end Filter

end FilterSql
