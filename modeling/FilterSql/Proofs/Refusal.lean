import FilterSql.Proofs.Attachment
import FilterSql.Proofs.Failure

/-!
What a query is refused for.

A document that is no filter fails with an error of its own sort (`Filter.ofJson_raises`), and a
filter fails as `Filter.Failing` says. In an accepted catalog both ends of a relation exist, so a
collection can be missing only where the request names it. This leaves errors of the request: no
query is refused for the catalog (`Query.compile_error`).
-/

namespace FilterSql

namespace Filter

/-- The errors of documents that are no filters. -/
inductive Misread : CompileError → Prop where
  | form (fault : FilterFault) : Misread (.invalidFilter fault)
  | operator (key : String) : Misread (.unknownOperator key)

variable {maxDepth depth : Nat}

theorem segments_raises (key : String) : Raises (segments key) Misread := by
  simp only [segments]
  split
  · exact .error (.form _)
  · exact .ok _

theorem checkDepth_raises : Raises (checkDepth maxDepth depth) Misread := by
  unfold checkDepth
  split
  · exact .error (.form _)
  · exact .ok _

theorem comparisons_raises (path : List String) (members : List (String × Json)) :
    Raises (comparisons path members) Misread := by
  induction members with
  | nil => exact .ok _
  | cons m rest ih =>
      unfold comparisons
      split
      · exact .error (.operator _)
      · exact .bind ih fun _ => .ok _

theorem misread_misplacedKey (key : String) : Misread (misplacedKey key) := by
  unfold misplacedKey
  split
  · exact .form _
  · exact .operator _

mutual

theorem ofMembers_raises {depth : Nat} :
    ∀ members, Raises (ofMembers maxDepth depth members) Misread
  | [] => .ok _
  | (key, value) :: rest => by
      have later (entries : Filter) : Raises
          (ofMembers maxDepth depth rest >>= fun others => pure (entries ++ others)) Misread :=
        .bind (ofMembers_raises rest) fun _ => .ok _
      unfold ofMembers
      split
      · exact .bind (ofCombined_raises key value) fun _ => later _
      · split
        · exact .error (misread_misplacedKey key)
        · exact .bind (segments_raises key) fun path => .bind (ofField_raises path value) later

theorem ofCombined_raises {depth : Nat} (key : String) :
    ∀ value, Raises (ofCombined maxDepth depth key value) Misread
  | .array items => by
      unfold ofCombined
      exact ofItems_raises key items
  | .null | .bool _ | .number _ | .string _ | .object _ => .error (.form _)

theorem ofItems_raises {depth : Nat} (key : String) :
    ∀ items, Raises (ofItems maxDepth depth key items) Misread
  | [] => .ok _
  | .object members :: rest => by
      unfold ofItems
      exact .bind checkDepth_raises fun _ => .bind (ofMembers_raises members) fun _ =>
        .bind (ofItems_raises key rest) fun _ => .ok _
  | .null :: _ | .bool _ :: _ | .number _ :: _ | .string _ :: _ | .array _ :: _ => .error (.form _)

theorem ofField_raises {depth : Nat} (path : List String) :
    ∀ value, Raises (ofField maxDepth depth path value) Misread
  | .object members => by
      unfold ofField
      split
      · exact comparisons_raises path members
      · exact .error (.form _)
      · exact ofStep_raises path members
      · exact .bind checkDepth_raises fun _ => .bind (ofMembers_raises members) fun _ => .ok _
  | .null | .bool _ | .number _ | .string _ | .array _ => .ok _

theorem ofStep_raises {depth : Nat} (path : List String) :
    ∀ members, Raises (ofStep maxDepth depth path members) Misread
  | [] => .ok _
  | (key, value) :: _ => by
      unfold ofStep
      exact .bind checkDepth_raises fun _ => .bind (segments_raises key) fun further =>
        ofField_raises (path ++ further) value

end

/-- Reading a document fails with its size, its form or an operator that there is not. -/
theorem ofJson_raises (options : CompileOptions) (document : Json) :
    Raises (ofJson options document) Misread := by
  refine .bind ?_ fun _ => ?_
  · unfold checkSize
    split
    · exact .error (.form _)
    · exact .ok _
  · split
    · exact .bind checkDepth_raises fun _ => ofMembers_raises _
    · exact .ok _
    · exact .error (.form _)

end Filter

namespace Catalog

variable {cat : Catalog} {name : String}

theorem requireCollection_of_not_mem (gone : name ∉ cat.names) :
    cat.requireCollection name = .error (.unknownCollection name) := by
  cases required : cat.requireCollection name with
  | ok c => exact absurd (mem_names_of_requireCollection required) gone
  | error e => rw [(requireCollection_raises name e required).1]

end Catalog

namespace Query

/-- What a query on a collection that is there can be refused for. -/
inductive Refused (q : Query) (options : CompileOptions) : CompileError → Prop where
  | unread {document : Json} {e : CompileError} (asked : q.filter = some document)
      (failed : Filter.ofJson options document = .error e) : Refused q options e
  | operand (operator : Operator) (field : String) (fault : OperandFault) :
      Refused q options (.invalidOperand operator field fault)
  | astray (strict : options.unresolvedPaths = .reject) (start : String) (path : List String)
      (segment : String) : Refused q options (.malformedPath start path segment)

section Refusal

variable {cat : Catalog} {q : Query} {options : CompileOptions} {draws : Nat → Nat}
  {collection : String} {e : CompileError}

theorem Refused.isClientError (refused : q.Refused options e) :
    e.isClientError = true ∧ ∀ name, e ≠ .unknownCollection name := by
  cases refused with
  | unread asked failed =>
      cases Filter.ofJson_raises options _ e failed with
      | form fault => exact ⟨rfl, nofun⟩
      | operator key => exact ⟨rfl, nofun⟩
  | operand operator field fault => exact ⟨rfl, nofun⟩
  | astray strict start path segment => exact ⟨rfl, nofun⟩

/-- Where both ends of all relations exist, a filter fails with an operand or with a path. -/
theorem refused_of_fault {fields : List Field} (linked : cat.Linked)
    (fault : cat.Fault options.unresolvedPaths collection fields e) : q.Refused options e := by
  cases fault with
  | operand operator field fault => exact .operand operator field fault
  | astray strict _ _ _ _ => exact .astray strict _ _ _
  | missing known gone => exact absurd (linked _ known).1.mem_names gone

theorem applyFilter_fails (linked : cat.Linked) (known : collection ∈ cat.names) :
    (q.applyFilter cat options draws collection).Fails (q.Refused options) := by
  unfold applyFilter
  split
  · exact .pure _
  · next document asked =>
      refine .bind (.ofExcept ?_) fun _ _ => .ok _
      unfold compileFilter
      intro e failed
      cases read : Filter.ofJson options document with
      | error e' =>
          rw [read] at failed
          cases failed
          exact .unread asked read
      | ok filter =>
          rw [read] at failed
          rcases Filter.compile_fails false filter _ e failed with ⟨-, gone⟩ | fault
          · exact absurd known gone
          · exact refused_of_fault linked fault

/-- A search on a collection that is there does not fail. -/
theorem applySearch_ok (known : collection ∈ cat.names) (s : Select) :
    ∃ s', q.applySearch cat collection s = (.ok (), s') := by
  obtain ⟨c, required⟩ := Catalog.requireCollection_of_mem known
  cases asked : q.search with
  | none => exact ⟨s, by simp [applySearch, asked]⟩
  | some term =>
      cases blank : Text.isAllBlank term with
      | true => exact ⟨s, by simp [applySearch, asked, blank]⟩
      | false =>
          simp only [applySearch, asked, blank, Search.predicate, required]
          exact ⟨_, rfl⟩

/-- A query on a collection that is not there is refused at once. -/
theorem apply_of_not_mem (gone : collection ∉ cat.names) (s : Select) :
    q.apply cat options draws collection s = (.error (.unknownCollection collection), s) := by
  unfold apply
  rw [Catalog.requireCollection_of_not_mem gone]
  rfl

theorem apply_fails (linked : cat.Linked) (known : collection ∈ cat.names) :
    (q.apply cat options draws collection).Fails (q.Refused options) := by
  obtain ⟨c, required⟩ := Catalog.requireCollection_of_mem known
  unfold apply
  rw [required]
  refine .bind (.ofExcept (.ok c)) fun _ => .bind (fun _ => .ok _) fun _ =>
    .bind (applyFilter_fails linked known) fun _ s => ?_
  obtain ⟨s', found⟩ := applySearch_ok (q := q) known s
  rw [found]
  exact .ok _

theorem compile_eq_error :
    q.compile cat options draws collection = .error e ↔
      (q.apply cat options draws collection (Select.ofCollection collection)).1 = .error e := by
  unfold Query.compile
  split
  · next applied => simp [applied]
  · next applied => simp [applied]

end Refusal

/-- An accepted catalog is never the reason why a query is refused. A collection is unknown exactly
where the one that the query is on is not there; what a query on a collection that is there can be
refused for is the document of its filter, an operand or, under strict paths only, a path. No
sub-select along a relation misses its collection, and no search fails. -/
theorem compile_error {collections : List Collection} {relations : List Relation} {cat : Catalog}
    (built : Catalog.build collections relations = .ok cat) (q : Query) (options : CompileOptions)
    (draws : Nat → Nat) (collection : String) :
    (∀ name, q.compile cat options draws collection = .error (.unknownCollection name) ↔
      name = collection ∧ collection ∉ cat.names) ∧
    (∀ e, q.compile cat options draws collection = .error e →
      (e = .unknownCollection collection ∨ q.Refused options e) ∧
        (∀ fault, e ≠ .schemaIntegrity fault) ∧ e.isClientError = true) ∧
    (∀ policy, ∀ r ∈ cat.relations, ∀ (filter : Filter) (t : AliasTable) (name : String),
      (filter.compile cat policy true r.manyCollection t).1 ≠ .error (.unknownCollection name)) ∧
    (collection ∈ cat.names → ∀ s, ∃ s', q.applySearch cat collection s = (.ok (), s')) := by
  have linked := Catalog.linked_of_build built
  have refused (known : collection ∈ cat.names) :
      ∀ e, q.compile cat options draws collection = .error e → q.Refused options e := by
    intro e failed
    exact apply_fails linked known _ e (compile_eq_error.mp failed)
  have missing (gone : collection ∉ cat.names) :
      q.compile cat options draws collection = .error (.unknownCollection collection) := by
    rw [compile_eq_error, apply_of_not_mem gone]
  refine ⟨?_, ?_, ?_, applySearch_ok⟩
  · intro name
    by_cases known : collection ∈ cat.names
    · refine ⟨fun failed => absurd rfl ((refused known _ failed).isClientError.2 name), ?_⟩
      exact fun unknown => absurd known unknown.2
    · rw [missing known]
      constructor
      · intro same
        cases same
        exact ⟨rfl, known⟩
      · rintro ⟨rfl, -⟩
        rfl
  · intro e failed
    have client : e.isClientError = true ∧ (e = .unknownCollection collection ∨
        q.Refused options e) := by
      by_cases known : collection ∈ cat.names
      · exact ⟨(refused known e failed).isClientError.1, .inr (refused known e failed)⟩
      · rw [missing known] at failed
        cases failed
        exact ⟨rfl, .inl rfl⟩
    refine ⟨client.2, ?_, client.1⟩
    rintro fault rfl
    exact Bool.noConfusion client.1
  · intro policy r known filter t name failed
    have many := (linked r known).1.mem_names
    rcases Filter.compile_fails true filter t _ failed with ⟨-, gone⟩ | fault
    · exact gone many
    · cases fault with
      | missing known gone => exact gone (linked _ known).1.mem_names

/-- The books whose author has the name Ann in a column that there is not. -/
def ghostly : Query where
  filter := some (.object [("author", .object [("ghost", .string "Ann")])])

/-- Under strict paths the query is refused for its path, which is a fault of the request. -/
theorem compile_error_ghostly :
    Catalog.build (Catalog.library.collections.take 2) (Catalog.library.relations.take 1) =
      .ok .library ∧
    ∃ e, ghostly.compile .library { unresolvedPaths := .reject } (fun _ => 0) "books" = .error e ∧
      e = .malformedPath "books" ["author", "ghost"] "ghost" ∧
      ghostly.Refused { unresolvedPaths := .reject } e ∧ e.isClientError = true := by
  refine ⟨Catalog.build_library, ?_⟩
  have astray : failure? (ghostly.compile .library { unresolvedPaths := .reject } (fun _ => 0)
      "books") = some (.malformedPath "books" ["author", "ghost"] "ghost") := by
    decide +kernel
  have compiled := failure?_eq_some.mp astray
  have refused := (compile_error Catalog.build_library ghostly { unresolvedPaths := .reject }
    (fun _ => 0) "books").2.1 _ compiled
  exact ⟨_, compiled, rfl, refused.1.resolve_left nofun, refused.2.2⟩

end Query

end FilterSql
