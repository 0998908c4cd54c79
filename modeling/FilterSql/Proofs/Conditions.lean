import FilterSql.Filter.Document

/-!
The comparisons of a filter.

`Filter.conditions` lists them in the order of the document, each with the whole path from the
collection that the filter is on. Comparisons inside a disjunction with an empty filter in it are
left out, since that disjunction holds whatever they say. A filter that was read from a document is
`Filter.Pathed`: each of its comparisons has a path, so each of them names a column
(`Filter.pathed_of_ofJson`).
-/

namespace FilterSql

/-- A comparison of a filter, with its path from the collection that the filter is on. -/
structure Condition where
  path : List String
  operator : Operator
  operand : Json
  deriving DecidableEq

namespace Filter

mutual

/-- The comparisons of a filter that stands behind a path, in order. Those inside a disjunction with
an empty filter in it are left out. -/
def conditions (before : List String) : List Entry → List Condition
  | [] => []
  | e :: rest => conditionsEntry before e ++ conditions before rest

/-- The comparisons of an entry. -/
def conditionsEntry (before : List String) : Entry → List Condition
  | .group op children =>
    if Entry.shortCircuits op children then [] else conditionsAll before children
  | .leaf path operator operand => [⟨before ++ path, operator, operand⟩]
  | .nested path body => conditions (before ++ path) body

/-- The comparisons of combined filters. -/
def conditionsAll (before : List String) : List (List Entry) → List Condition
  | [] => []
  | child :: rest => conditions before child ++ conditionsAll before rest

end

mutual

/-- Each comparison of a filter has a path. -/
def Pathed : List Entry → Prop
  | [] => True
  | e :: rest => PathedEntry e ∧ Pathed rest

/-- Each comparison of an entry has a path. -/
def PathedEntry : Entry → Prop
  | .group _ children => PathedAll children
  | .leaf path _ _ => path ≠ []
  | .nested _ body => Pathed body

/-- Each comparison of combined filters has a path. -/
def PathedAll : List (List Entry) → Prop
  | [] => True
  | child :: rest => Pathed child ∧ PathedAll rest

end

theorem pathed_append {fs gs : List Entry} (first : Pathed fs) (later : Pathed gs) :
    Pathed (fs ++ gs) := by
  induction fs with
  | nil => exact later
  | cons e rest ih => exact ⟨first.1, ih first.2⟩

/-! ### Filters that are read -/

/-- A computation in two steps has a result if both have. -/
theorem bind_eq_ok {ε α β : Type} {x : Except ε α} {k : α → Except ε β} {b : β}
    (ran : x >>= k = .ok b) : ∃ a, x = .ok a ∧ k a = .ok b := by
  cases x with
  | error e => cases ran
  | ok a => exact ⟨a, rfl, ran⟩

theorem segments_ne_nil {key : String} {path : List String} (read : segments key = .ok path) :
    path ≠ [] := by
  dsimp only [segments] at read
  split at read <;> cases read
  simpa [Text.split] using Text.splitChars_ne_nil '.' key.toList

theorem pathed_comparisons {path : List String} (proper : path ≠ []) :
    ∀ (members : List (String × Json)) {filter : Filter},
      comparisons path members = .ok filter → Pathed filter
  | [], _, read => by
      cases read
      trivial
  | (key, operand) :: rest, filter, read => by
      simp only [comparisons] at read
      split at read
      · cases read
      · obtain ⟨entries, later, gave⟩ := bind_eq_ok read
        cases gave
        exact ⟨proper, pathed_comparisons proper rest later⟩

mutual

theorem pathed_ofMembers (maxDepth depth : Nat) : ∀ (members : List (String × Json))
    {filter : Filter}, ofMembers maxDepth depth members = .ok filter → Pathed filter
  | [], _, read => by
      cases read
      trivial
  | (key, value) :: rest, filter, read => by
      simp only [ofMembers] at read
      split at read
      · obtain ⟨children, combined, read⟩ := bind_eq_ok read
        obtain ⟨entries, one, read⟩ := bind_eq_ok read
        cases one
        obtain ⟨others, later, gave⟩ := bind_eq_ok read
        cases gave
        exact ⟨pathed_ofCombined maxDepth depth key value combined,
          pathed_ofMembers maxDepth depth rest later⟩
      · split at read
        · cases read
        · obtain ⟨path, named, read⟩ := bind_eq_ok read
          obtain ⟨entries, field, read⟩ := bind_eq_ok read
          obtain ⟨others, later, gave⟩ := bind_eq_ok read
          cases gave
          exact pathed_append (pathed_ofField maxDepth depth (segments_ne_nil named) value field)
            (pathed_ofMembers maxDepth depth rest later)

theorem pathed_ofCombined (maxDepth depth : Nat) (key : String) : ∀ (value : Json)
    {children : List Filter}, ofCombined maxDepth depth key value = .ok children →
    PathedAll children
  | .array items, _, read => pathed_ofItems maxDepth depth key items read
  | .null, _, read | .bool _, _, read | .number _, _, read | .string _, _, read
  | .object _, _, read => by cases read

theorem pathed_ofItems (maxDepth depth : Nat) (key : String) : ∀ (items : List Json)
    {children : List Filter}, ofItems maxDepth depth key items = .ok children → PathedAll children
  | [], _, read => by
      cases read
      trivial
  | .object members :: rest, _, read => by
      simp only [ofItems] at read
      obtain ⟨_, -, read⟩ := bind_eq_ok read
      obtain ⟨child, first, read⟩ := bind_eq_ok read
      obtain ⟨children, later, gave⟩ := bind_eq_ok read
      cases gave
      exact ⟨pathed_ofMembers maxDepth (depth + 1) members first,
        pathed_ofItems maxDepth depth key rest later⟩
  | .null :: _, _, read | .bool _ :: _, _, read | .number _ :: _, _, read
  | .string _ :: _, _, read | .array _ :: _, _, read => by cases read

theorem pathed_ofField (maxDepth depth : Nat) {path : List String} (proper : path ≠ []) :
    ∀ (value : Json) {filter : Filter}, ofField maxDepth depth path value = .ok filter →
    Pathed filter
  | .object members, filter, read => by
      simp only [ofField] at read
      split at read
      · exact pathed_comparisons proper members read
      · cases read
      · exact pathed_ofStep maxDepth depth path members read
      · obtain ⟨_, -, read⟩ := bind_eq_ok read
        obtain ⟨body, inside, gave⟩ := bind_eq_ok read
        cases gave
        exact ⟨pathed_ofMembers maxDepth (depth + 1) members inside, trivial⟩
  | .null, _, read | .bool _, _, read | .number _, _, read | .string _, _, read
  | .array _, _, read => by
      cases read
      exact ⟨proper, trivial⟩

theorem pathed_ofStep (maxDepth depth : Nat) (path : List String) :
    ∀ (members : List (String × Json)) {filter : Filter},
    ofStep maxDepth depth path members = .ok filter → Pathed filter
  | [], _, read => by
      cases read
      trivial
  | (key, value) :: _, filter, read => by
      simp only [ofStep] at read
      obtain ⟨_, -, read⟩ := bind_eq_ok read
      obtain ⟨further, named, field⟩ := bind_eq_ok read
      exact pathed_ofField maxDepth (depth + 1)
        (List.append_ne_nil_of_right_ne_nil path (segments_ne_nil named)) value field

end

/-- Each comparison of a filter that was read from a document has a path. -/
theorem pathed_of_ofJson {options : CompileOptions} {document : Json} {filter : Filter}
    (read : ofJson options document = .ok filter) : Pathed filter := by
  unfold ofJson at read
  obtain ⟨_, -, read⟩ := bind_eq_ok read
  split at read
  · obtain ⟨_, -, read⟩ := bind_eq_ok read
    exact pathed_ofMembers options.maxDepth 1 _ read
  · cases read
    trivial
  · cases read

end Filter

end FilterSql
