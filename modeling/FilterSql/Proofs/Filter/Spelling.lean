import FilterSql.Proofs.Filter.Grammar

/-!
What a filter document says.

The filter that an object writes is given by rules, without the reader and its limits
(`Filter.Writes`): a connective over objects is one group with a filter for each of them, operators
are one comparison each, all with the path that leads to them, and a path goes on through objects
whose only key is a field. The levels that a document takes are counted apart (`Filter.levels`).
`Filter.ofJson_eq_ok` says that the reader gives a filter exactly if the document writes it and is
within the limits, so that the limits have no part in what is read.
-/

namespace FilterSql

namespace Filter

/-! ### The rules -/

/-- Operators with their operands, as members of an object. -/
def testMembers (tests : List (Operator × Json)) : List (String × Json) :=
  tests.map fun (operator, operand) => (operator.key, operand)

/-- Operators with their operands, as comparisons of what a path leads to. -/
def testEntries (path : List String) (tests : List (Operator × Json)) : Filter :=
  tests.map fun (operator, operand) => .leaf path operator operand

mutual

/-- The filter that the members of an object write: the entries of each member, in order. -/
inductive Writes : List (String × Json) → Filter → Prop where
  | nil : Writes [] []
  | cons {key : String} {value : Json} {rest : List (String × Json)} {entries others : Filter}
      (first : WritesMember key value entries) (later : Writes rest others) :
      Writes ((key, value) :: rest) (entries ++ others)

/-- The entries that a member of a filter writes. -/
inductive WritesMember : String → Json → Filter → Prop where
  /-- a connective over objects: one entry, with a filter for each of them -/
  | combination (op : Connective) {items : List Json} {children : List Filter}
      (each : WritesItems items children) :
      WritesMember op.key (.array items) [.group op children]
  | field {key : String} {value : Json} {entries : Filter} (named : IsFieldKey key)
      (under : WritesUnder (Text.split '.' key) value entries) : WritesMember key value entries

/-- The filters that the items of a combination write. -/
inductive WritesItems : List Json → List Filter → Prop where
  | nil : WritesItems [] []
  | cons {members : List (String × Json)} {rest : List Json} {child : Filter}
      {children : List Filter} (first : Writes members child) (later : WritesItems rest children) :
      WritesItems (.object members :: rest) (child :: children)

/-- The entries that a value writes under a field path. -/
inductive WritesUnder : List String → Json → Filter → Prop where
  /-- an operand alone, which is compared for equality -/
  | operand {path : List String} {value : Json} (bare : value.kind ≠ .object) :
      WritesUnder path value [.leaf path .eq value]
  /-- one comparison for each operator -/
  | operators {path : List String} {tests : List (Operator × Json)} (any : tests ≠ []) :
      WritesUnder path (.object (testMembers tests)) (testEntries path tests)
  /-- one further field key, which goes on with the path -/
  | step {path : List String} {key : String} {value : Json} {entries : Filter}
      (named : IsFieldKey key) (under : WritesUnder (path ++ Text.split '.' key) value entries) :
      WritesUnder path (.object [(key, value)]) entries
  /-- a filter that is not a single field key -/
  | filter {path : List String} {members : List (String × Json)} {body : Filter}
      (form : members.length ≠ 1 ∨ ∃ (op : Connective) (value : Json), members = [(op.key, value)])
      (free : ∀ m ∈ members, isOperatorKey m.1 = false) (inside : Writes members body) :
      WritesUnder path (.object members) [.nested path body]

end

/-- The filter that a document writes. -/
inductive WritesDocument : Json → Filter → Prop where
  | null : WritesDocument .null []
  | object {members : List (String × Json)} {filter : Filter} (inside : Writes members filter) :
      WritesDocument (.object members) filter

/-! ### Levels -/

mutual

/-- How many levels the members of a filter take, beyond that of the filter itself. -/
def levels : List (String × Json) → Nat
  | [] => 0
  | (key, value) :: rest =>
    max (if (Connective.ofKey? key).isSome then levelsCombined value else levelsUnder value)
      (levels rest)

/-- The levels of the items of a combination. -/
def levelsCombined : Json → Nat
  | .array items => levelsItems items
  | _ => 0

/-- The levels of items: each of them takes one. -/
def levelsItems : List Json → Nat
  | [] => 0
  | .object members :: rest => max (levels members + 1) (levelsItems rest)
  | _ :: rest => levelsItems rest

/-- The levels of what stands under a field path: each object takes one, but operators take none. -/
def levelsUnder : Json → Nat
  | .object members =>
    if fieldForm (members.map Prod.fst) = .operators then 0 else levels members + 1
  | _ => 0

end

/-- The levels of a document. -/
def levelsOf : Json → Nat
  | .object members => levels members + 1
  | _ => 0

/-! ### The rules, case by case -/

/-- A key that starts with no underscore is no connective. -/
theorem ofKey?_of_plain {key : String} (plain : isUnderscored key = false) :
    Connective.ofKey? key = none := by
  cases known : Connective.ofKey? key with
  | none => rfl
  | some op =>
      have underscored := isUnderscored_connective op
      rw [← Connective.key_of_ofKey? known, plain] at underscored
      cases underscored

theorem writes_nil {filter : Filter} : Writes [] filter ↔ filter = [] := by
  constructor
  · intro writes
    cases writes
    rfl
  · rintro rfl
    exact .nil

theorem writes_cons {key : String} {value : Json} {rest : List (String × Json)}
    {filter : Filter} :
    Writes ((key, value) :: rest) filter ↔ ∃ entries, WritesMember key value entries ∧
      ∃ others, Writes rest others ∧ entries ++ others = filter := by
  constructor
  · intro writes
    cases writes with
    | cons first later => exact ⟨_, first, _, later, rfl⟩
  · rintro ⟨entries, first, others, later, rfl⟩
    exact .cons first later

/-- The member of a connective combines filters. -/
theorem writesMember_connective (op : Connective) {value : Json} {entries : Filter} :
    WritesMember op.key value entries ↔ ∃ items children, value = .array items ∧
      WritesItems items children ∧ entries = [.group op children] := by
  constructor
  · intro writes
    generalize same : op.key = key at writes
    cases writes with
    | combination op' each =>
        have ops := Connective.ofKey?_key op
        rw [same, Connective.ofKey?_key] at ops
        cases ops
        exact ⟨_, _, rfl, each, rfl⟩
    | field named _ =>
        have plain := named.plain
        rw [← same, isUnderscored_connective] at plain
        cases plain
  · rintro ⟨items, children, rfl, each, rfl⟩
    exact .combination op each

/-- Any other member is a field. -/
theorem writesMember_field {key : String} (other : Connective.ofKey? key = none) {value : Json}
    {entries : Filter} : WritesMember key value entries ↔
      IsFieldKey key ∧ WritesUnder (Text.split '.' key) value entries := by
  constructor
  · intro writes
    cases writes with
    | combination op _ => simp at other
    | field named under => exact ⟨named, under⟩
  · rintro ⟨named, under⟩
    exact .field named under

theorem writesItems_nil {children : List Filter} : WritesItems [] children ↔ children = [] := by
  constructor
  · intro writes
    cases writes
    rfl
  · rintro rfl
    exact .nil

theorem writesItems_cons {members : List (String × Json)} {rest : List Json}
    {children : List Filter} :
    WritesItems (.object members :: rest) children ↔ ∃ child, Writes members child ∧
      ∃ others, WritesItems rest others ∧ child :: others = children := by
  constructor
  · intro writes
    cases writes with
    | cons first later => exact ⟨_, first, _, later, rfl⟩
  · rintro ⟨child, first, others, later, rfl⟩
    exact .cons first later

/-- An item of a combination is an object. -/
theorem not_writesItems {item : Json} (bare : item.kind ≠ .object) {rest : List Json}
    {children : List Filter} : ¬ WritesItems (item :: rest) children := by
  intro writes
  cases writes
  exact bare rfl

section Under

variable {path : List String} {members : List (String × Json)} {entries : Filter}

theorem writesUnder_operand {value : Json} (bare : value.kind ≠ .object) :
    WritesUnder path value entries ↔ entries = [.leaf path .eq value] := by
  constructor
  · intro writes
    cases writes with
    | operand _ => rfl
    | operators _ | step _ _ | filter _ _ _ => exact absurd rfl bare
  · rintro rfl
    exact .operand bare

theorem isOperatorKey_of_mem_testMembers {tests : List (Operator × Json)} {m : String × Json}
    (mem : m ∈ testMembers tests) : isOperatorKey m.1 = true := by
  obtain ⟨test, -, rfl⟩ := List.mem_map.mp mem
  exact isOperatorKey_operator test.1

theorem writesUnder_operators (form : FieldForm.operators.Describes (members.map Prod.fst)) :
    WritesUnder path (.object members) entries ↔
      ∃ tests, members = testMembers tests ∧ entries = testEntries path tests := by
  obtain ⟨any, all⟩ := form
  constructor
  · intro writes
    cases writes with
    | operand bare => exact absurd rfl bare
    | operators _ => exact ⟨_, rfl, rfl⟩
    | @step _ key _ _ named _ =>
        have operator := all key (by simp)
        simp [named.isOperatorKey_eq_false] at operator
    | filter _ free _ =>
        obtain ⟨m, mem⟩ := List.exists_mem_of_ne_nil members (by simpa using any)
        have operator := all m.1 (List.mem_map_of_mem mem)
        simp [free m mem] at operator
  · rintro ⟨tests, rfl, rfl⟩
    refine .operators ?_
    rintro rfl
    exact any rfl

theorem not_writesUnder_mixed (form : FieldForm.mixed.Describes (members.map Prod.fst)) :
    ¬ WritesUnder path (.object members) entries := by
  obtain ⟨⟨_, among, operator⟩, ⟨_, among', other⟩⟩ := form
  obtain ⟨m, mem, rfl⟩ := List.mem_map.mp among
  obtain ⟨n, mem', rfl⟩ := List.mem_map.mp among'
  intro writes
  cases writes with
  | operand bare => exact bare rfl
  | operators _ => simp [isOperatorKey_of_mem_testMembers mem'] at other
  | step named _ =>
      obtain rfl := List.mem_singleton.mp mem
      simp [named.isOperatorKey_eq_false] at operator
  | filter _ free _ => simp [free m mem] at operator

theorem writesUnder_step {key : String} (plain : isUnderscored key = false) {value : Json} :
    WritesUnder path (.object [(key, value)]) entries ↔
      IsFieldKey key ∧ WritesUnder (path ++ Text.split '.' key) value entries := by
  constructor
  · intro writes
    generalize same : [(key, value)] = members at writes
    cases writes with
    | operand bare => exact absurd rfl bare
    | operators _ =>
        have operator := isOperatorKey_of_mem_testMembers (same ▸ List.mem_singleton_self _)
        simp [isOperatorKey, plain] at operator
    | step named under =>
        cases same
        exact ⟨named, under⟩
    | filter form _ _ =>
        subst same
        rcases form with several | ⟨op, _, same⟩
        · exact absurd rfl several
        · cases same
          simp [isUnderscored_connective] at plain
  · rintro ⟨named, under⟩
    exact .step named under

theorem writesUnder_filter (form : FieldForm.filter.Describes (members.map Prod.fst)) :
    WritesUnder path (.object members) entries ↔
      ∃ body, Writes members body ∧ entries = [.nested path body] := by
  obtain ⟨shape, free⟩ := describes_filter_iff.mp form
  constructor
  · intro writes
    cases writes with
    | operand bare => exact absurd rfl bare
    | operators any =>
        obtain ⟨test, mem⟩ := List.exists_mem_of_ne_nil _ any
        have other := free (test.1.key, test.2) (List.mem_map_of_mem mem)
        simp [isOperatorKey_operator] at other
    | step named _ => exact absurd form (not_describes_filter named.plain)
    | filter _ _ inside => exact ⟨_, inside, rfl⟩
  · rintro ⟨body, inside, rfl⟩
    exact .filter shape free inside

end Under

/-! ### The reader -/

/-- A computation gives what is asked for and nothing else, as long as a condition holds. -/
def Gives {ε α : Type} (x : Except ε α) (asked : α → Prop) (condition : Prop) : Prop :=
  ∀ a, x = .ok a ↔ asked a ∧ condition

namespace Gives

variable {ε α β : Type} {P Q : α → Prop} {A B : Prop}

theorem ok {a : α} (condition : A) : Gives (.ok a : Except ε α) (a = ·) A := by
  intro b
  simp [condition]

theorem pure (a : α) : Gives (Pure.pure a : Except ε α) (a = ·) True := ok trivial

theorem error {e : ε} (none : ∀ a, ¬ P a) : Gives (.error e) P A := by
  intro a
  simp [none a]

theorem congr {x : Except ε α} (gives : Gives x P A) (asked : ∀ a, P a ↔ Q a)
    (condition : A ↔ B) : Gives x Q B := by
  intro a
  rw [gives a, asked a, condition]

/-- A computation in two steps gives what the second one makes of what the first one gives. -/
theorem bind {x : Except ε α} {k : α → Except ε β} {R : α → β → Prop} (first : Gives x P A)
    (second : A → ∀ a, Gives (k a) (R a) B) :
    Gives (x >>= k) (fun b => ∃ a, P a ∧ R a b) (A ∧ B) := by
  intro b
  cases x with
  | error e =>
      have nothing (a : α) : ¬ (P a ∧ A) := by simp [← first a]
      simp only [Bind.bind, Except.bind, reduceCtorEq, false_iff]
      rintro ⟨⟨a, asked, -⟩, condition, -⟩
      exact nothing a ⟨asked, condition⟩
  | ok a =>
      have only (a' : α) : a = a' ↔ P a' ∧ A := by simp [← first a']
      obtain ⟨asked, condition⟩ := (only a).mp rfl
      show k a = .ok b ↔ _
      rw [second condition a b]
      constructor
      · rintro ⟨made, further⟩
        exact ⟨⟨a, asked, made⟩, condition, further⟩
      · rintro ⟨⟨a', asked', made⟩, -, further⟩
        obtain rfl := (only a').mpr ⟨asked', condition⟩
        exact ⟨made, further⟩

/-- What is made of a result in the end does not depend on a condition. -/
theorem map {x : Except ε α} (gives : Gives x P A) (f : α → β) :
    Gives (x >>= fun a => Pure.pure (f a)) (fun b => ∃ a, P a ∧ f a = b) A :=
  (gives.bind fun _ a => pure (f a)).congr (fun _ => Iff.rfl) (iff_of_eq (and_true A))

end Gives

theorem checkDepth_gives (maxDepth depth : Nat) :
    Gives (checkDepth maxDepth depth) (fun _ => True) (depth ≤ maxDepth) := by
  intro u
  simp only [checkDepth]
  split <;> simp <;> omega

theorem segments_gives (key : String) :
    Gives (segments key) (fun path => "" ∉ Text.split '.' key ∧ Text.split '.' key = path)
      True := by
  intro path
  simp only [segments]
  split
  · next some =>
      have improper : "" ∈ Text.split '.' key := by simpa using some
      simp [improper]
  · next none =>
      have proper : "" ∉ Text.split '.' key := by simpa using none
      simp [proper]

theorem comparisons_gives (path : List String) (members : List (String × Json)) :
    Gives (comparisons path members)
      (fun filter => ∃ tests, members = testMembers tests ∧ filter = testEntries path tests)
      True := by
  induction members with
  | nil =>
      refine (Gives.ok trivial).congr ?_ Iff.rfl
      intro filter
      constructor
      · rintro rfl
        exact ⟨[], rfl, rfl⟩
      · rintro ⟨tests, same, rfl⟩
        rw [List.map_eq_nil_iff.mp same.symm]
        rfl
  | cons m rest ih =>
      obtain ⟨key, operand⟩ := m
      rw [comparisons]
      cases known : Operator.ofKey? key with
      | none =>
          refine .error ?_
          rintro filter ⟨_ | ⟨test, tests⟩, same, -⟩ <;> cases same
          simp at known
      | some operator =>
          obtain rfl := Operator.key_of_ofKey? known
          refine (ih.map (.leaf path operator operand :: ·)).congr (fun filter => ?_) Iff.rfl
          constructor
          · rintro ⟨entries, ⟨tests, rfl, rfl⟩, rfl⟩
            exact ⟨(operator, operand) :: tests, rfl, rfl⟩
          · rintro ⟨_ | ⟨⟨operator', operand'⟩, tests⟩, same, rfl⟩
            · cases same
            · obtain ⟨⟨keys, rfl⟩, rfl⟩ : (operator.key = operator'.key ∧ operand = operand') ∧
                  rest = testMembers tests := by simpa [testMembers] using same
              rw [keys, Operator.ofKey?_key] at known
              cases known
              exact ⟨_, ⟨tests, rfl, rfl⟩, rfl⟩

/-- The reader of one member. -/
def ofMember (maxDepth depth : Nat) (key : String) (value : Json) : Except CompileError Filter :=
  match Connective.ofKey? key with
  | some op => do
    let children ← ofCombined maxDepth depth key value
    return [.group op children]
  | none =>
    if isUnderscored key then throw (misplacedKey key)
    else do
      let path ← segments key
      ofField maxDepth depth path value

theorem ofMembers_cons (maxDepth depth : Nat) (key : String) (value : Json)
    (rest : List (String × Json)) :
    ofMembers maxDepth depth ((key, value) :: rest) = do
      let entries ← ofMember maxDepth depth key value
      let others ← ofMembers maxDepth depth rest
      return entries ++ others := by
  rw [ofMembers, ofMember]
  cases Connective.ofKey? key with
  | some op => simp only [bind_assoc]
  | none =>
      dsimp only
      split
      · rfl
      · simp only [bind_assoc]

/-- The greater of two numbers of levels is within a limit if both are. -/
theorem max_within {depth a b limit : Nat} :
    depth + a ≤ limit ∧ depth + b ≤ limit ↔ depth + max a b ≤ limit := by
  omega

mutual

/-- The reader gives what the members of an object write, within the limit of levels. -/
theorem ofMembers_gives {maxDepth depth : Nat} (within : depth ≤ maxDepth) :
    ∀ (members : List (String × Json)),
    Gives (ofMembers maxDepth depth members) (Writes members) (depth + levels members ≤ maxDepth)
  | [] => by
      refine (Gives.ok within).congr (fun filter => ?_) Iff.rfl
      rw [writes_nil, eq_comm]
  | (key, value) :: rest => by
      have first : Gives (ofMember maxDepth depth key value) (WritesMember key value)
          (depth + (if (Connective.ofKey? key).isSome then levelsCombined value
            else levelsUnder value) ≤ maxDepth) := by
        unfold ofMember
        cases combined : Connective.ofKey? key with
        | some op =>
            obtain rfl := Connective.key_of_ofKey? combined
            refine ((ofCombined_gives within op.key value).map fun children =>
              [Entry.group op children]).congr (fun entries => ?_) Iff.rfl
            rw [writesMember_connective]
            constructor
            · rintro ⟨children, ⟨items, rfl, each⟩, rfl⟩
              exact ⟨items, children, rfl, each, rfl⟩
            · rintro ⟨items, children, rfl, each, rfl⟩
              exact ⟨children, ⟨items, rfl, each⟩, rfl⟩
        | none =>
            dsimp only
            split
            · next underscored =>
                refine .error fun entries => ?_
                rw [writesMember_field combined]
                rintro ⟨named, -⟩
                simp [named.plain] at underscored
            · next other =>
                have plain : isUnderscored key = false := by simpa using other
                refine ((segments_gives key).bind fun _ path =>
                  ofField_gives within path value).congr (fun entries => ?_) (by simp)
                rw [writesMember_field combined, isFieldKey_iff plain]
                simp only [and_assoc, exists_and_left, exists_eq_left']
      rw [ofMembers_cons, levels]
      refine (first.bind fun _ entries => (ofMembers_gives within rest).map
        (entries ++ ·)).congr (fun filter => writes_cons.symm) max_within

theorem ofCombined_gives {maxDepth depth : Nat} (within : depth ≤ maxDepth) (key : String) :
    ∀ (value : Json),
    Gives (ofCombined maxDepth depth key value)
      (fun children => ∃ items, value = .array items ∧ WritesItems items children)
      (depth + levelsCombined value ≤ maxDepth)
  | .array items => by
      refine (ofItems_gives within key items).congr (fun children => ?_) Iff.rfl
      simp
  | .null | .bool _ | .number _ | .string _ | .object _ => .error (by simp)

theorem ofItems_gives {maxDepth depth : Nat} (within : depth ≤ maxDepth) (key : String) :
    ∀ (items : List Json),
    Gives (ofItems maxDepth depth key items) (WritesItems items)
      (depth + levelsItems items ≤ maxDepth)
  | [] => by
      refine (Gives.ok within).congr (fun children => ?_) Iff.rfl
      rw [writesItems_nil, eq_comm]
  | .object members :: rest => by
      rw [ofItems, levelsItems]
      refine ((checkDepth_gives maxDepth (depth + 1)).bind fun deeper _ =>
        (ofMembers_gives deeper members).bind fun _ child =>
          (ofItems_gives within key rest).map (child :: ·)).congr (fun children => ?_) ?_
      · simp [writesItems_cons]
      · omega
  | .null :: _ | .bool _ :: _ | .number _ :: _ | .string _ :: _ | .array _ :: _ =>
      .error fun _ => not_writesItems (by simp [Json.kind])

theorem ofField_gives {maxDepth depth : Nat} (within : depth ≤ maxDepth) (path : List String) :
    ∀ (value : Json),
    Gives (ofField maxDepth depth path value) (WritesUnder path value)
      (depth + levelsUnder value ≤ maxDepth)
  | .object members => by
      have form := describes_fieldForm (members.map Prod.fst)
      rw [ofField, levelsUnder]
      cases shape : fieldForm (members.map Prod.fst) <;> rw [shape] at form
      case operators =>
        refine (comparisons_gives path members).congr (fun entries => ?_) (by simp [within])
        rw [writesUnder_operators form]
      case mixed => exact .error fun _ => not_writesUnder_mixed form
      case step => exact ofStep_gives within path members form
      case filter =>
        refine ((checkDepth_gives maxDepth (depth + 1)).bind fun deeper _ =>
          (ofMembers_gives deeper members).map fun body =>
            [Entry.nested path body]).congr (fun entries => ?_) ?_
        · simp [writesUnder_filter form, eq_comm]
        · simp
          omega
  | .null | .bool _ | .number _ | .string _ | .array _ => by
      simp only [ofField]
      refine (Gives.ok within).congr (fun entries => ?_) Iff.rfl
      rw [writesUnder_operand (by simp [Json.kind]), eq_comm]

theorem ofStep_gives {maxDepth depth : Nat} (within : depth ≤ maxDepth) (path : List String) :
    ∀ (members : List (String × Json)), FieldForm.step.Describes (members.map Prod.fst) →
    Gives (ofStep maxDepth depth path members) (WritesUnder path (.object members))
      (depth + (levels members + 1) ≤ maxDepth)
  | [], form => by simp [FieldForm.Describes] at form
  | (key, value) :: rest, form => by
      obtain ⟨_, single, plain⟩ := form
      obtain ⟨rfl, rfl⟩ : key = _ ∧ rest = [] := by simpa using single
      rw [ofStep]
      refine ((checkDepth_gives maxDepth (depth + 1)).bind fun deeper _ =>
        (segments_gives key).bind fun _ further =>
          ofField_gives deeper (path ++ further) value).congr (fun entries => ?_) ?_
      · simp only [writesUnder_step plain, isFieldKey_iff plain, and_assoc, exists_and_left,
          exists_eq_left', true_and, exists_const]
      · simp [levels, ofKey?_of_plain plain]
        omega

end

theorem checkSize_gives (maxBytes bytes : Nat) :
    Gives (checkSize maxBytes bytes) (fun _ => True) (bytes ≤ maxBytes) := by
  intro u
  simp only [checkSize]
  split <;> simp <;> omega

theorem writesDocument_null {filter : Filter} : WritesDocument .null filter ↔ filter = [] := by
  constructor
  · intro writes
    cases writes
    rfl
  · rintro rfl
    exact .null

theorem writesDocument_object {members : List (String × Json)} {filter : Filter} :
    WritesDocument (.object members) filter ↔ Writes members filter := by
  constructor
  · intro writes
    cases writes with
    | object inside => exact inside
  · exact .object

/-- The reader gives a filter exactly if the document writes it, is not too large and does not take
too many levels. -/
theorem ofJson_eq_ok {options : CompileOptions} {document : Json} {filter : Filter} :
    ofJson options document = .ok filter ↔ WritesDocument document filter ∧
      document.compact.utf8ByteSize ≤ options.maxBytes ∧ levelsOf document ≤ options.maxDepth := by
  have sized := checkSize_gives options.maxBytes document.compact.utf8ByteSize
  unfold ofJson
  cases document with
  | object members =>
      refine ((sized.bind fun _ _ => (checkDepth_gives options.maxDepth 1).bind fun within _ =>
        ofMembers_gives within members).congr (fun filter => ?_) ?_) filter
      · simp [writesDocument_object]
      · simp only [levelsOf]
        omega
  | null =>
      refine ((sized.bind fun _ _ => Gives.pure []).congr (fun filter => ?_) ?_) filter
      · simp [writesDocument_null, eq_comm]
      · simp [levelsOf]
  | _ =>
      refine ((sized.bind fun _ _ => Gives.error (P := fun _ => False) (A := True)
        fun _ => id).congr (fun filter => ?_) (by simp [levelsOf])) filter
      constructor
      · rintro ⟨_, _, no⟩
        exact no.elim
      · intro writes
        cases writes

end Filter

end FilterSql
