import FilterSql.Proofs.Filter.Spelling

/-!
What reading keeps of a document.

A document and the filter that is read from it are walked apart, in order. The comparisons of a
document are listed by the chain that leads to them (`Filter.documentLeaves`): the field segments
that are passed, and the items that are taken in combinations. The outline of a document
(`Filter.documentOutline`) says more: where each combination and each nested filter stands, which
items of a combination are empty, and in which filter a comparison stands, with the path that it has
there. The leaves and the outline of a filter (`Filter.leaves`, `Filter.outline`) are read off the
tree. By `Filter.ofJson_outline` both are the same: nothing is lost, added or moved.
-/

namespace FilterSql

namespace Filter

/-- What is passed on the way into a filter: a segment of a field path, or an item of a
combination. -/
inductive Waypoint where
  | segment (name : String)
  | item (op : Connective) (index : Nat)
  deriving DecidableEq, Repr

/-- A way that goes on along a field path. -/
def along (way : List Waypoint) (path : List String) : List Waypoint :=
  way ++ path.map .segment

@[simp] theorem along_nil (way : List Waypoint) : along way [] = way := List.append_nil way

@[simp] theorem along_append (way : List Waypoint) (path further : List String) :
    along way (path ++ further) = along (along way path) further := by
  simp [along]

/-- A comparison with the way that leads to it. -/
structure ChainedLeaf where
  chain : List Waypoint
  operator : Operator
  operand : Json

/-- What stands in a filter, with the way to the filter in which it stands. -/
inductive Mark where
  /-- a combination, which says of each of its items whether it is empty -/
  | group (way : List Waypoint) (op : Connective) (items : List Bool)
  /-- a comparison, with its path in the filter in which it stands -/
  | comparison (way : List Waypoint) (path : List String) (operator : Operator) (operand : Json)
  /-- a filter on what a path leads to -/
  | nested (way : List Waypoint) (path : List String)

/-- The comparison that a mark stands for, by its whole chain. -/
def Mark.leaf? : Mark → Option ChainedLeaf
  | .comparison way path operator operand => some ⟨along way path, operator, operand⟩
  | _ => none

/-! ### Documents -/

/-- The object without members. -/
def isEmptyObject : Json → Bool
  | .object [] => true
  | _ => false

mutual

/-- The comparisons among the members of an object to which a chain leads. -/
def documentLeaves (chain : List Waypoint) : List (String × Json) → List ChainedLeaf
  | [] => []
  | (key, value) :: rest =>
    (match Operator.ofKey? key, Connective.ofKey? key with
      | some operator, _ => [⟨chain, operator, value⟩]
      | none, some op => combinedLeaves chain op value
      | none, none => leavesUnder (along chain (Text.split '.' key)) value) ++
    documentLeaves chain rest

/-- The comparisons of a combination. -/
def combinedLeaves (chain : List Waypoint) (op : Connective) : Json → List ChainedLeaf
  | .array items => itemLeaves chain op 0 items
  | _ => []

/-- The comparisons of the items of a combination, which are counted from a number. -/
def itemLeaves (chain : List Waypoint) (op : Connective) (index : Nat) :
    List Json → List ChainedLeaf
  | [] => []
  | .object members :: rest =>
    documentLeaves (chain ++ [.item op index]) members ++ itemLeaves chain op (index + 1) rest
  | _ :: rest => itemLeaves chain op (index + 1) rest

/-- The comparisons under a field. An operand alone is compared for equality. -/
def leavesUnder (chain : List Waypoint) : Json → List ChainedLeaf
  | .object members => documentLeaves chain members
  | operand => [⟨chain, .eq, operand⟩]

end

mutual

/-- The outline of the members of an object at a path in a filter. -/
def documentOutline (way : List Waypoint) (path : List String) :
    List (String × Json) → List Mark
  | [] => []
  | (key, value) :: rest =>
    (match Operator.ofKey? key, Connective.ofKey? key with
      | some operator, _ => [.comparison way path operator value]
      | none, some op => combinedOutline (along way path) op value
      | none, none => outlineUnder way (path ++ Text.split '.' key) value) ++
    documentOutline way path rest

/-- The outline of a combination. -/
def combinedOutline (way : List Waypoint) (op : Connective) : Json → List Mark
  | .array items => .group way op (items.map isEmptyObject) :: itemOutline way op 0 items
  | _ => []

/-- The outline of the items of a combination, which are counted from a number. -/
def itemOutline (way : List Waypoint) (op : Connective) (index : Nat) : List Json → List Mark
  | [] => []
  | .object members :: rest =>
    documentOutline (way ++ [.item op index]) [] members ++ itemOutline way op (index + 1) rest
  | _ :: rest => itemOutline way op (index + 1) rest

/-- The outline of what stands under a path. An object goes on with the path, unless it is a filter
of its own. -/
def outlineUnder (way : List Waypoint) (path : List String) : Json → List Mark
  | .object members =>
    if fieldForm (members.map Prod.fst) = .filter then
      .nested way path :: documentOutline (along way path) [] members
    else documentOutline way path members
  | operand => [.comparison way path .eq operand]

end

/-- The comparisons of a document. -/
def leavesOf : Json → List ChainedLeaf
  | .object members => documentLeaves [] members
  | _ => []

/-- The outline of a document. -/
def outlineOf : Json → List Mark
  | .object members => documentOutline [] [] members
  | _ => []

/-! ### Filters -/

mutual

/-- The comparisons of a filter to which a chain leads. -/
def leaves (chain : List Waypoint) : List Entry → List ChainedLeaf
  | [] => []
  | e :: rest => entryLeaves chain e ++ leaves chain rest

/-- The comparisons of an entry. -/
def entryLeaves (chain : List Waypoint) : Entry → List ChainedLeaf
  | .group op children => childLeaves chain op 0 children
  | .leaf path operator operand => [⟨along chain path, operator, operand⟩]
  | .nested path body => leaves (along chain path) body

/-- The comparisons of combined filters, which are counted from a number. -/
def childLeaves (chain : List Waypoint) (op : Connective) (index : Nat) :
    List (List Entry) → List ChainedLeaf
  | [] => []
  | child :: rest =>
    leaves (chain ++ [.item op index]) child ++ childLeaves chain op (index + 1) rest

end

mutual

/-- The outline of a filter. -/
def outline (way : List Waypoint) : List Entry → List Mark
  | [] => []
  | e :: rest => entryOutline way e ++ outline way rest

/-- The outline of an entry. -/
def entryOutline (way : List Waypoint) : Entry → List Mark
  | .group op children =>
    .group way op (children.map Filter.isEmpty) :: childOutline way op 0 children
  | .leaf path operator operand => [.comparison way path operator operand]
  | .nested path body => .nested way path :: outline (along way path) body

/-- The outline of combined filters, which are counted from a number. -/
def childOutline (way : List Waypoint) (op : Connective) (index : Nat) :
    List (List Entry) → List Mark
  | [] => []
  | child :: rest =>
    outline (way ++ [.item op index]) child ++ childOutline way op (index + 1) rest

end

theorem outline_append (way : List Waypoint) (fs gs : Filter) :
    outline way (fs ++ gs) = outline way fs ++ outline way gs := by
  induction fs with
  | nil => rfl
  | cons e rest ih => simp [outline, ih]

@[simp] theorem outline_singleton (way : List Waypoint) (e : Entry) :
    outline way [e] = entryOutline way e :=
  List.append_nil _

/-! ### Leaves in outlines -/

/-- The comparisons that an outline holds. -/
def comparisonsIn (marks : List Mark) : List ChainedLeaf := marks.filterMap Mark.leaf?

@[simp] theorem comparisonsIn_append (ms ns : List Mark) :
    comparisonsIn (ms ++ ns) = comparisonsIn ms ++ comparisonsIn ns :=
  List.filterMap_append

@[simp] theorem comparisonsIn_nil : comparisonsIn [] = [] := rfl

@[simp] theorem comparisonsIn_group (way : List Waypoint) (op : Connective) (items : List Bool)
    (ms : List Mark) : comparisonsIn (.group way op items :: ms) = comparisonsIn ms := rfl

@[simp] theorem comparisonsIn_nested (way : List Waypoint) (path : List String) (ms : List Mark) :
    comparisonsIn (.nested way path :: ms) = comparisonsIn ms := rfl

@[simp] theorem comparisonsIn_comparison (way : List Waypoint) (path : List String)
    (operator : Operator) (operand : Json) (ms : List Mark) :
    comparisonsIn (.comparison way path operator operand :: ms) =
      ⟨along way path, operator, operand⟩ :: comparisonsIn ms := rfl

mutual

theorem comparisonsIn_documentOutline (way : List Waypoint) (path : List String) :
    ∀ members, comparisonsIn (documentOutline way path members) =
      documentLeaves (along way path) members
  | [] => rfl
  | (key, value) :: rest => by
      rw [documentOutline, documentLeaves, comparisonsIn_append,
        comparisonsIn_documentOutline way path rest]
      congr 1
      split
      · rfl
      · exact comparisonsIn_combinedOutline (along way path) _ value
      · rw [comparisonsIn_outlineUnder, along_append]

theorem comparisonsIn_combinedOutline (way : List Waypoint) (op : Connective) :
    ∀ value, comparisonsIn (combinedOutline way op value) = combinedLeaves way op value
  | .array items => comparisonsIn_itemOutline way op 0 items
  | .null | .bool _ | .number _ | .string _ | .object _ => rfl

theorem comparisonsIn_itemOutline (way : List Waypoint) (op : Connective) (index : Nat) :
    ∀ items, comparisonsIn (itemOutline way op index items) = itemLeaves way op index items
  | [] => rfl
  | .object members :: rest => by
      rw [itemOutline, itemLeaves, comparisonsIn_append, comparisonsIn_documentOutline,
        comparisonsIn_itemOutline way op (index + 1) rest, along_nil]
  | .null :: rest | .bool _ :: rest | .number _ :: rest | .string _ :: rest | .array _ :: rest =>
      comparisonsIn_itemOutline way op (index + 1) rest

theorem comparisonsIn_outlineUnder (way : List Waypoint) (path : List String) :
    ∀ value, comparisonsIn (outlineUnder way path value) = leavesUnder (along way path) value
  | .object members => by
      rw [outlineUnder, leavesUnder]
      split
      · rw [comparisonsIn_nested, comparisonsIn_documentOutline, along_nil]
      · exact comparisonsIn_documentOutline way path members
  | .null | .bool _ | .number _ | .string _ | .array _ => rfl

end

theorem comparisonsIn_outlineOf : ∀ document,
    comparisonsIn (outlineOf document) = leavesOf document
  | .object members => comparisonsIn_documentOutline [] [] members
  | .null | .bool _ | .number _ | .string _ | .array _ => rfl

mutual

theorem comparisonsIn_outline (way : List Waypoint) :
    ∀ filter, comparisonsIn (outline way filter) = leaves way filter
  | [] => rfl
  | e :: rest => by
      rw [outline, leaves, comparisonsIn_append, comparisonsIn_entryOutline way e,
        comparisonsIn_outline way rest]

theorem comparisonsIn_entryOutline (way : List Waypoint) :
    ∀ e, comparisonsIn (entryOutline way e) = entryLeaves way e
  | .group op children => comparisonsIn_childOutline way op 0 children
  | .leaf _ _ _ => rfl
  | .nested path body => comparisonsIn_outline (along way path) body

theorem comparisonsIn_childOutline (way : List Waypoint) (op : Connective) (index : Nat) :
    ∀ children, comparisonsIn (childOutline way op index children) =
      childLeaves way op index children
  | [] => rfl
  | child :: rest => by
      rw [childOutline, childLeaves, comparisonsIn_append,
        comparisonsIn_outline _ child,
        comparisonsIn_childOutline way op (index + 1) rest]

end

/-! ### What is written is kept -/

theorem WritesUnder.ne_nil {path : List String} {value : Json} {entries : Filter} :
    WritesUnder path value entries → entries ≠ []
  | .operand _ | .filter _ _ _ => by simp
  | .operators any => by simpa [testEntries] using any
  | .step _ under => under.ne_nil

/-- A filter has no entries exactly if its object has no members. -/
theorem Writes.isEmpty_eq {members : List (String × Json)} {filter : Filter}
    (writes : Writes members filter) : Filter.isEmpty filter = isEmptyObject (.object members) := by
  cases writes with
  | nil => rfl
  | @cons _ _ _ entries _ first _ =>
      have some : entries ≠ [] := by
        cases first with
        | combination op each => simp
        | field _ under => exact under.ne_nil
      cases entries with
      | nil => exact absurd rfl some
      | cons e es => rfl

theorem WritesItems.map_isEmpty : ∀ {items : List Json} {children : List Filter},
    WritesItems items children → children.map Filter.isEmpty = items.map isEmptyObject
  | _, _, .nil => rfl
  | _, _, .cons first later => by
      rw [List.map_cons, List.map_cons, first.isEmpty_eq, later.map_isEmpty]

/-- Operators with their operands leave one comparison each, with the whole path. -/
theorem documentOutline_testMembers (way : List Waypoint) (path : List String)
    (tests : List (Operator × Json)) :
    documentOutline way path (testMembers tests) = outline way (testEntries path tests) := by
  induction tests with
  | nil => rfl
  | cons test rest ih =>
      rw [testMembers, testEntries] at ih ⊢
      rw [List.map_cons, List.map_cons, documentOutline, outline, ih, entryOutline,
        Operator.ofKey?_key]

theorem IsFieldKey.ofKey?_eq_none {key : String} (named : IsFieldKey key) :
    Operator.ofKey? key = none ∧ Connective.ofKey? key = none := by
  refine ⟨?_, ofKey?_of_plain named.plain⟩
  cases known : Operator.ofKey? key with
  | none => rfl
  | some operator =>
      have operates := isOperatorKey_operator operator
      rw [← Operator.key_of_ofKey? known, named.isOperatorKey_eq_false] at operates
      cases operates

/-- The objects under a path that are filters of their own. -/
theorem fieldForm_eq_filter_iff {keys : List String} :
    fieldForm keys = .filter ↔ FieldForm.filter.Describes keys := by
  have actual := describes_fieldForm keys
  constructor
  · intro shape
    rwa [shape] at actual
  · intro filter
    have free := filter.1
    cases shape : fieldForm keys <;> rw [shape] at actual
    case operators =>
      obtain ⟨key, mem⟩ := List.exists_mem_of_ne_nil keys actual.1
      have operator := actual.2 key mem
      simp [free key mem] at operator
    case mixed =>
      obtain ⟨⟨key, mem, operator⟩, -⟩ := actual
      simp [free key mem] at operator
    case step =>
      obtain ⟨key, rfl, plain⟩ := actual
      exact absurd filter (not_describes_filter plain)

theorem fieldForm_testMembers {tests : List (Operator × Json)} (any : tests ≠ []) :
    fieldForm ((testMembers tests).map Prod.fst) ≠ .filter := by
  rw [Ne, fieldForm_eq_filter_iff]
  rintro ⟨free, -⟩
  obtain ⟨test, mem⟩ := List.exists_mem_of_ne_nil tests any
  have other := free test.1.key
    (List.mem_map_of_mem (f := Prod.fst) (List.mem_map_of_mem mem))
  simp [isOperatorKey_operator] at other

theorem fieldForm_step {key : String} (named : IsFieldKey key) : fieldForm [key] ≠ .filter := by
  rw [Ne, fieldForm_eq_filter_iff]
  rintro ⟨-, several | ⟨op, same⟩⟩
  · exact several rfl
  · have plain := named.plain
    rw [List.singleton_inj.mp same, isUnderscored_connective] at plain
    cases plain

mutual

/-- The outline of an object is that of the filter it writes. -/
theorem Writes.outline_eq (way : List Waypoint) : ∀ {members : List (String × Json)}
    {filter : Filter}, Writes members filter → documentOutline way [] members = outline way filter
  | _, _, .nil => rfl
  | _, _, .cons (.combination op each) later => by
      have other : Operator.ofKey? op.key = none := by cases op <;> rfl
      rw [documentOutline, outline_append, Writes.outline_eq way later, other,
        Connective.ofKey?_key, outline_singleton, entryOutline, each.map_isEmpty,
        ← each.outline_eq way op 0]
      simp only [combinedOutline, along_nil]
  | _, _, .cons (.field named under) later => by
      obtain ⟨operator, combined⟩ := named.ofKey?_eq_none
      rw [documentOutline, outline_append, Writes.outline_eq way later, operator, combined]
      simp only
      rw [List.nil_append, under.outline_eq way]

/-- The outline of the items of a combination is that of the filters they write. -/
theorem WritesItems.outline_eq (way : List Waypoint) (op : Connective) (index : Nat) :
    ∀ {items : List Json} {children : List Filter}, WritesItems items children →
      itemOutline way op index items = childOutline way op index children
  | _, _, .nil => rfl
  | _, _, .cons first later => by
      rw [itemOutline, childOutline, first.outline_eq, later.outline_eq way op (index + 1)]

/-- The outline of what stands under a path is that of the entries it writes. -/
theorem WritesUnder.outline_eq (way : List Waypoint) : ∀ {path : List String} {value : Json}
    {entries : Filter}, WritesUnder path value entries →
      outlineUnder way path value = outline way entries
  | _, value, _, .operand bare => by
      cases value with
      | object members => exact absurd rfl bare
      | _ => rfl
  | _, _, _, .operators any => by
      rw [outlineUnder, if_neg (fieldForm_testMembers any), documentOutline_testMembers]
  | _, _, _, .step named under => by
      obtain ⟨operator, combined⟩ := named.ofKey?_eq_none
      rw [outlineUnder, List.map_singleton, if_neg (fieldForm_step named), documentOutline,
        operator, combined]
      simp only
      rw [documentOutline, List.append_nil, under.outline_eq way]
  | _, _, _, .filter form free inside => by
      have own := fieldForm_eq_filter_iff.mpr (describes_filter_iff.mpr ⟨form, free⟩)
      rw [outlineUnder, if_pos own, inside.outline_eq, outline_singleton, entryOutline]

end

/-- The comparisons of a filter that is read are those of the document, in order, and so are the
combinations and nested filters, each in its place. -/
theorem ofJson_outline {options : CompileOptions} {document : Json} {filter : Filter}
    (read : ofJson options document = .ok filter) :
    leavesOf document = leaves [] filter ∧ outlineOf document = outline [] filter := by
  have same : outlineOf document = outline [] filter := by
    cases (ofJson_eq_ok.mp read).1 with
    | null => rfl
    | object inside => exact inside.outline_eq []
  refine ⟨?_, same⟩
  rw [← comparisonsIn_outlineOf, same, comparisonsIn_outline]

/-- A disjunction with an empty filter, operators under a dotted key, fields within fields and a
combination under a field. -/
def sortedDocument : Json :=
  .object [
    ("_or", .array [.object [],
      .object [("author.name", .object [("_gt", .string "A"), ("_lt", .string "M")])]]),
    ("author", .object [("books", .object [("title", .string "Emma")])]),
    ("publisher", .object [("_and", .array [.object [("city", .string "Rome")]])])]

/-- The filter that it writes. -/
def sorted : Filter := [
  .group .or [[], [.leaf ["author", "name"] .gt (.string "A"),
    .leaf ["author", "name"] .lt (.string "M")]],
  .leaf ["author", "books", "title"] .eq (.string "Emma"),
  .nested ["publisher"] [.group .and [[.leaf ["city"] .eq (.string "Rome")]]]]

set_option maxRecDepth 2000 in
/-- The four comparisons of the document come with their chains, and the outline tells the two of a
filter that takes one path as a whole from one that stands on its own. -/
theorem ofJson_outline_sorted :
    ofJson {} sortedDocument = .ok sorted ∧
    leavesOf sortedDocument = [
      ⟨[.item .or 1, .segment "author", .segment "name"], .gt, .string "A"⟩,
      ⟨[.item .or 1, .segment "author", .segment "name"], .lt, .string "M"⟩,
      ⟨[.segment "author", .segment "books", .segment "title"], .eq, .string "Emma"⟩,
      ⟨[.segment "publisher", .item .and 0, .segment "city"], .eq, .string "Rome"⟩] ∧
    outlineOf sortedDocument = [
      .group [] .or [true, false],
      .comparison [.item .or 1] ["author", "name"] .gt (.string "A"),
      .comparison [.item .or 1] ["author", "name"] .lt (.string "M"),
      .comparison [] ["author", "books", "title"] .eq (.string "Emma"),
      .nested [] ["publisher"],
      .group [.segment "publisher"] .and [false],
      .comparison [.segment "publisher", .item .and 0] ["city"] .eq (.string "Rome")] ∧
    leavesOf sortedDocument = leaves [] sorted ∧ outlineOf sortedDocument = outline [] sorted := by
  have read : ofJson {} sortedDocument = .ok sorted := rfl
  exact ⟨read, rfl, rfl, ofJson_outline read⟩

end Filter

end FilterSql
