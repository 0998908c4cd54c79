import FilterSql.Proofs.Conditions
import FilterSql.Proofs.Emission

/-!
Strict compilation drops no condition.

The tests of a compiled filter are read from left to right and into sub-selects
(`Predicate.ReadAs`). Each of them stands at an anchor, which hops lead to from the collection of
its statement: along relations to the anchor's collection, and along the aliases given out to the
name that qualifies its columns (`AliasTable.Leads`). Where paths that lead nowhere are rejected,
the tests are those of the conditions of the filter, one for one and in the order of the document
(`Filter.compile_strict_tests`). Nothing is asked of the table that gives out the aliases, which may
have been used before.
-/

namespace FilterSql

/-! ### Walks with any table -/

/-- Hops lead to an anchor in a scope: along relations to its collection, and along the aliases
given out to the name that qualifies its columns. -/
structure AliasTable.Leads (t : AliasTable) (cat : Catalog) (scope : Scope) (root : String)
    (hops : List String) (there : Anchor) : Prop where
  arrives : cat.arrival scope.joinsReverse root hops = some there.collection
  named : t.name? scope.id root hops = some there.qualifier

namespace Walk

variable {cat : Catalog} {scope : Scope} {root : String} {w : Walk} {here : Place}
  {anchor : Anchor}

theorem Stands.leads (stands : w.Stands cat scope root here anchor) :
    w.aliases.Leads cat scope root here.hops anchor :=
  ⟨stands.collection_eq ▸ stands.located, stands.named⟩

/-- A hop that is joined leads to an anchor behind it. -/
theorem Stands.hop (stands : w.Stands cat scope root here anchor) {field : String} {link : Link}
    (linked : cat.link? scope.joinsReverse here.collection field = some link) :
    ∃ there w', w.hop scope anchor field link.table link.near link.far = (there, w') ∧
      w'.Stands cat scope root (here.next field link) there ∧ w.aliases.Grows w'.aliases := by
  rcases w.aliases.aliasFor_cases ⟨scope.id, anchor.qualifier, field⟩ with
    ⟨name, issued, call⟩ | ⟨t', call, issues⟩
  · refine ⟨_, _, by simp only [Walk.hop, call]; rfl, ⟨stands.located.next linked, rfl, ?_⟩,
      .refl _⟩
    rw [Place.next, AliasTable.name?_snoc, stands.named, Option.bind_some, issued]
  · refine ⟨_, _, by simp only [Walk.hop, call]; rfl, ⟨stands.located.next linked, rfl, ?_⟩,
      issues.grows⟩
    rw [Place.next, AliasTable.name?_snoc, issues.grows.name? stands.named, Option.bind_some,
      issues.issued, if_pos rfl]

/-- A path leads where its course does. -/
theorem Stands.follow (stands : w.Stands cat scope root here anchor) (consumed : Nat)
    (hops : List String) :
    ∃ w', w.follow cat scope consumed anchor hops =
        ((cat.course scope.joinsReverse consumed here hops).resolution
          (w'.aliases.naming scope.id root), w') ∧
      w'.Stands cat scope root (cat.course scope.joinsReverse consumed here hops).place
        ((cat.course scope.joinsReverse consumed here hops).place.anchor
          (w'.aliases.naming scope.id root)) ∧
      w.aliases.Grows w'.aliases := by
  induction hops generalizing w here anchor consumed with
  | nil =>
      have same := stands.eq_anchor
      exact ⟨w, by rw [follow_nil, same]; rfl, same ▸ stands, .refl _⟩
  | cons field rest ih =>
      rw [follow_cons, stands.collection_eq]
      simp only [Catalog.course]
      cases linked : cat.link? scope.joinsReverse here.collection field with
      | none =>
          have same := stands.eq_anchor
          cases known : cat.relationFor here.collection field with
          | none => exact ⟨w, by rw [same]; rfl, same ▸ stands, .refl _⟩
          | some exposed => exact ⟨w, by rw [same]; rfl, same ▸ stands, .refl _⟩
      | some link =>
          obtain ⟨there, w₁, step, stands₁, grows₁⟩ := stands.hop linked
          obtain ⟨w₂, run, stands₂, grows₂⟩ := ih stands₁ (consumed + 1)
          exact ⟨w₂, by simpa only [step] using run, stands₂, grows₁.trans grows₂⟩

end Walk

/-! ### The tests of a statement -/

/-- A test of a column in a compiled filter. -/
structure Test where
  /-- the hops from the collection of the whole statement -/
  hops : List String
  /-- where they lead to -/
  there : Anchor
  column : String
  predicate : Predicate

/-- The tests in conditions of a statement, from left to right and into sub-selects. The statement
is on the collection `root`, which the hops `before` lead to from that of the whole statement. A
test for emptiness is made of two others, and it may be read as one test or as these two. -/
inductive Predicate.ReadAs (cat : Catalog) (t : AliasTable) :
    Scope → String → List String → List Predicate → List Test → Prop where
  | nil {scope : Scope} {root : String} {before : List String} :
      ReadAs cat t scope root before [] []
  | test {scope : Scope} {root : String} {before hops : List String} {there : Anchor}
      {column : String} {test : ColumnRef → Predicate} {rest : List Predicate} {tests : List Test}
      (leads : t.Leads cat scope root hops there) (isTest : Leaf.IsTest test)
      (later : ReadAs cat t scope root before rest tests) :
      ReadAs cat t scope root before (test (there.column column) :: rest)
        (⟨before ++ hops, there, column, test (there.column column)⟩ :: tests)
  | and {scope : Scope} {root : String} {before : List String} {items rest : List Predicate}
      {tests more : List Test} (inside : ReadAs cat t scope root before items tests)
      (later : ReadAs cat t scope root before rest more) :
      ReadAs cat t scope root before (.and items :: rest) (tests ++ more)
  | or {scope : Scope} {root : String} {before : List String} {items rest : List Predicate}
      {tests more : List Test} (inside : ReadAs cat t scope root before items tests)
      (later : ReadAs cat t scope root before rest more) :
      ReadAs cat t scope root before (.or items :: rest) (tests ++ more)
  | inSelect {scope : Scope} {root : String} {before hops : List String} {there : Anchor}
      {field : String} {r : Relation} {id : Nat} {s : Select} {rest : List Predicate}
      {tests more : List Test} (leads : t.Leads cat scope root hops there)
      (exposed : cat.relationFor there.collection field = some (r, .reverse))
      (many : s.collection = r.manyCollection) (selected : s.columns = [r.manyField])
      (inside : ReadAs cat t ⟨id, true⟩ r.manyCollection (before ++ (hops ++ [field]))
        s.predicates tests)
      (later : ReadAs cat t scope root before rest more) :
      ReadAs cat t scope root before (.inSelect (there.column r.onePrimary) s :: rest)
        (tests ++ more)

/-- A test is the one that a condition asks for: the predicate of its operator and operand for the
column that its path ends with, on the collection that the path reaches, of that column's type. -/
structure Test.Answers (cat : Catalog) (collection : String) (c : Condition) (test : Test) :
    Prop where
  path : c.path = test.hops ++ [test.column]
  arrives : cat.arrival true collection test.hops = some test.there.collection
  predicate : Leaf.predicate (test.there.column test.column)
    (cat.localType test.there.collection test.column) c.operator c.operand = .ok test.predicate

namespace Predicate.ReadAs

variable {cat : Catalog} {t t' : AliasTable} {scope : Scope} {root : String}
  {before : List String} {ps qs : List Predicate} {tests more : List Test}

/-- What was given out stays given out, so tests stay where they are. -/
theorem later (read : ReadAs cat t scope root before ps tests) (grows : t.Grows t') :
    ReadAs cat t' scope root before ps tests := by
  have leads : ∀ {scope : Scope} {root : String} {hops : List String} {there : Anchor},
      t.Leads cat scope root hops there → t'.Leads cat scope root hops there := by
    intro scope root hops there leads
    exact ⟨leads.arrives, grows.name? leads.named⟩
  induction read with
  | nil => exact .nil
  | test led isTest _ ih => exact .test (leads led) isTest ih
  | and _ _ ih₁ ih₂ => exact .and ih₁ ih₂
  | or _ _ ih₁ ih₂ => exact .or ih₁ ih₂
  | inSelect led exposed many selected _ _ ih₁ ih₂ =>
      exact .inSelect (leads led) exposed many selected ih₁ ih₂

theorem append (first : ReadAs cat t scope root before ps tests)
    (later : ReadAs cat t scope root before qs more) :
    ReadAs cat t scope root before (ps ++ qs) (tests ++ more) := by
  induction first with
  | nil => exact later
  | test leads isTest _ ih => exact .test leads isTest (ih later)
  | and inside _ _ ih =>
      rw [List.cons_append, List.append_assoc]
      exact .and inside (ih later)
  | or inside _ _ ih =>
      rw [List.cons_append, List.append_assoc]
      exact .or inside (ih later)
  | inSelect leads exposed many selected inside _ _ ih =>
      rw [List.cons_append, List.append_assoc]
      exact .inSelect leads exposed many selected inside (ih later)

theorem group (op : Connective) (read : ReadAs cat t scope root before ps tests) :
    ReadAs cat t scope root before [Predicate.group op ps] tests := by
  rw [← List.append_nil tests]
  cases op <;> rcases ps with _ | ⟨p, _ | ⟨q, rest⟩⟩
  · exact .and read .nil
  · rwa [group_singleton, List.append_nil]
  · exact .and read .nil
  · exact .or read .nil
  · rwa [group_singleton, List.append_nil]
  · exact .or read .nil

end Predicate.ReadAs

/-- Predicates make the tests that conditions ask for, one for one and in order. -/
def Answered (cat : Catalog) (collection : String) (t : AliasTable) (scope : Scope) (root : String)
    (before : List String) (conditions : List Condition) (ps : List Predicate) : Prop :=
  ∃ tests, Predicate.ReadAs cat t scope root before ps tests ∧
    List.Forall₂ (Test.Answers cat collection) conditions tests

namespace Answered

variable {cat : Catalog} {collection : String} {t t' : AliasTable} {scope : Scope} {root : String}
  {before : List String} {ps qs : List Predicate} {cs ds : List Condition}

theorem nil : Answered cat collection t scope root before [] [] := ⟨[], .nil, .nil⟩

theorem later (answered : Answered cat collection t scope root before cs ps) (grows : t.Grows t') :
    Answered cat collection t' scope root before cs ps := by
  obtain ⟨tests, read, answers⟩ := answered
  exact ⟨tests, read.later grows, answers⟩

theorem append (first : Answered cat collection t scope root before cs ps)
    (second : Answered cat collection t scope root before ds qs) :
    Answered cat collection t scope root before (cs ++ ds) (ps ++ qs) := by
  obtain ⟨tests, read, answers⟩ := first
  obtain ⟨more, read', answers'⟩ := second
  exact ⟨tests ++ more, read.append read', List.rel_append answers answers'⟩

theorem group (op : Connective) (answered : Answered cat collection t scope root before cs ps) :
    Answered cat collection t scope root before cs
      (if ps.isEmpty then [] else [Predicate.group op ps]) := by
  obtain ⟨tests, read, answers⟩ := answered
  cases ps with
  | nil => exact ⟨tests, read, answers⟩
  | cons p rest => exact ⟨tests, read.group op, answers⟩

end Answered

/-! ### The second walk -/

namespace Compile

variable {cat : Catalog} {collection : String}

/-- What is asked of the delegate of a walk: a filter behind a reverse hop becomes a test against a
statement that makes the tests of the filter. A walk that joins reverse hops needs no delegate. -/
def Delivers (cat : Catalog) (collection : String) (joinsReverse : Bool) : Option Delegate → Prop
  | none => joinsReverse = true
  | some d => ∀ (there : Anchor) (r : Relation) (child : Filter) (t t' : AliasTable)
      (p : Predicate) (before : List String), Filter.Pathed child →
      cat.arrival true collection before = some r.manyCollection →
      d there r child t = (.ok p, t') →
      t.Grows t' ∧ ∃ (s : Select) (id : Nat), p = .inSelect (there.column r.onePrimary) s ∧
        s.collection = r.manyCollection ∧ s.columns = [r.manyField] ∧
        Answered cat collection t' ⟨id, true⟩ r.manyCollection before
          (Filter.conditions before child) s.predicates

/-- A place behind further hops is reached from the collection of the whole statement. -/
theorem arrives_behind {before hops : List String} {joinsReverse : Bool} {root table : String}
    (arrives : cat.arrival true collection before = some root)
    (leads : cat.arrival joinsReverse root hops = some table) :
    cat.arrival true collection (before ++ hops) = some table := by
  rw [Catalog.arrival_append, arrives, Option.bind_some, Catalog.arrival_true leads]

/-- A comparison whose hops are joined makes its test. -/
theorem emitLeaf_answered {f : Frame} {t : AliasTable} {root start : String}
    {before hops path : List String} {there : Anchor} {operator : Operator} {operand : Json}
    {ps : List Predicate} (arrives : f.catalog.arrival true collection before = some root)
    (leads : t.Leads f.catalog f.scope root (hops ++ path.dropLast) there) (proper : path ≠ [])
    (made : f.emitLeaf start there path operator operand = .ok ps) :
    Answered f.catalog collection t f.scope root before
      [⟨before ++ hops ++ path, operator, operand⟩] ps := by
  obtain ⟨column, p, ended, compared, rfl⟩ := (emitLeaf_eq_ok made).resolve_left fun h => proper h.1
  obtain ⟨test, isTest, rfl, -⟩ := Leaf.predicate_isTest compared
  refine ⟨_, .test leads isTest .nil, .cons ⟨?_, ?_, compared⟩ .nil⟩
  · rw [List.append_assoc, ← List.dropLast_append_getLast? column ended]
    simp
  · exact arrives_behind arrives leads.arrives

/-- A filter behind a reverse hop makes its tests in a sub-select. -/
theorem delegated_answered {f : Frame} {delegate : Option Delegate}
    (delivers : Delivers f.catalog collection f.scope.joinsReverse delegate) {root : String}
    {before : List String} (arrives : f.catalog.arrival true collection before = some root)
    {here there : Place} {anchor : Anchor} {w w' : Walk} {r : Relation} {consumed : Nat}
    {hops : List String} {child : Filter} {ps : List Predicate}
    (led : f.catalog.course f.scope.joinsReverse 0 here hops = .deferred there r consumed)
    (stands : w.Stands f.catalog f.scope root there anchor) (proper : Filter.Pathed child)
    (ran : delegated delegate anchor r child w = (.ok ps, w')) :
    w.aliases.Grows w'.aliases ∧ Answered f.catalog collection w'.aliases f.scope root before
      (Filter.conditions (before ++ here.hops ++ hops.take consumed) child) ps := by
  have outer := (Catalog.relationFor_of_course_deferred led).1
  obtain ⟨field, exposed, eq⟩ := Catalog.hops_of_course_deferred led
  rw [Nat.sub_zero] at eq
  have behind : f.catalog.arrival true collection (before ++ (there.hops ++ [field])) =
      some r.manyCollection := by
    have many : f.catalog.arrival true root (there.hops ++ [field]) = some r.manyCollection := by
      rw [Catalog.arrival_append, Catalog.arrival_true stands.located]
      simp [Catalog.arrival, Catalog.link?, exposed, Relation.backward]
    exact arrives_behind arrives many
  cases delegate with
  | none => simp [Delivers, outer] at delivers
  | some d =>
      obtain ⟨p, w₁, inside, gave⟩ := Step.bind_eq_ok ran
      cases gave
      simp only [Step.within, Prod.mk.injEq] at inside
      obtain ⟨made, rfl⟩ := inside
      obtain ⟨grows, s, id, rfl, many, selected, tests, read, answers⟩ :=
        delivers _ _ _ _ _ _ _ proper behind (Prod.ext made rfl)
      refine ⟨grows, tests, ?_, ?_⟩
      · rw [← stands.collection_eq] at exposed
        rw [← List.append_nil tests]
        exact .inSelect ⟨stands.leads.arrives, grows.name? stands.named⟩ exposed many selected read
          .nil
      · rwa [List.append_assoc, ← eq]

section Walks

variable {f : Frame} {delegate : Option Delegate} {root : String} {before : List String}

mutual

/-- Where nothing is ignored, the predicates of a filter make its tests. -/
theorem emit_answered (strict : f.policy = .reject)
    (delivers : Delivers f.catalog collection f.scope.joinsReverse delegate)
    (arrives : f.catalog.arrival true collection before = some root) :
    ∀ (entries : List Entry) {w w' : Walk} {here : Place} {anchor : Anchor} {ps : List Predicate},
    w.Stands f.catalog f.scope root here anchor → Filter.Pathed entries →
    emit f delegate anchor entries w = (.ok ps, w') →
    w.aliases.Grows w'.aliases ∧ Answered f.catalog collection w'.aliases f.scope root before
      (Filter.conditions (before ++ here.hops) entries) ps
  | [], w, w', here, anchor, ps, _, _, ran => by
      cases ran
      exact ⟨.refl _, .nil⟩
  | e :: rest, w, w', here, anchor, ps, stands, proper, ran => by
      obtain ⟨qs, w₁, first, more⟩ := Step.bind_eq_ok ran
      obtain ⟨rs, w₂, second, gave⟩ := Step.bind_eq_ok more
      cases gave
      obtain ⟨grows₁, answered₁⟩ :=
        emitEntry_answered strict delivers arrives e stands proper.1 first
      obtain ⟨grows₂, answered₂⟩ :=
        emit_answered strict delivers arrives rest (stands.later grows₁) proper.2 second
      exact ⟨grows₁.trans grows₂, (answered₁.later grows₂).append answered₂⟩

theorem emitEntry_answered (strict : f.policy = .reject)
    (delivers : Delivers f.catalog collection f.scope.joinsReverse delegate)
    (arrives : f.catalog.arrival true collection before = some root) :
    ∀ (e : Entry) {w w' : Walk} {here : Place} {anchor : Anchor} {ps : List Predicate},
    w.Stands f.catalog f.scope root here anchor → Filter.PathedEntry e →
    emitEntry f delegate anchor e w = (.ok ps, w') →
    w.aliases.Grows w'.aliases ∧ Answered f.catalog collection w'.aliases f.scope root before
      (Filter.conditionsEntry (before ++ here.hops) e) ps
  | .group op children, w, w', here, anchor, ps, stands, proper, ran => by
      simp only [emitEntry, Filter.conditionsEntry] at ran ⊢
      split at ran
      · next short =>
          cases ran
          rw [if_pos short]
          exact ⟨.refl _, .nil⟩
      · next long =>
          obtain ⟨items, w₁, inside, gave⟩ := Step.bind_eq_ok ran
          cases gave
          rw [if_neg long]
          obtain ⟨grows, answered⟩ :=
            emitAll_answered strict delivers arrives children stands proper inside
          exact ⟨grows, answered.group op⟩
  | .leaf path operator operand, w, w', here, anchor, ps, stands, proper, ran => by
      obtain ⟨w₁, run, stands₁, grows₁⟩ := stands.follow 0 path.dropLast
      simp only [emitEntry, Step.bind_apply, Step.ofTotal, Frame.follow, run] at ran
      cases led : f.catalog.course f.scope.joinsReverse 0 here path.dropLast with
      | reached there =>
          rw [led] at ran stands₁
          obtain ⟨made, rfl⟩ := Step.ofExcept_eq_ok ran
          have leads := stands₁.leads
          rw [Course.place, Catalog.hops_of_course_reached led] at leads
          exact ⟨grows₁, emitLeaf_answered arrives leads proper made⟩
      | deferred there r consumed =>
          rw [led] at ran stands₁
          have short := (Catalog.consumed_of_course_deferred led).2
          have some : 0 < path.length := List.length_pos_iff.mpr proper
          rw [List.length_dropLast] at short
          have further : path.drop consumed ≠ [] := by
            rw [Ne, List.drop_eq_nil_iff]
            omega
          have inside : Filter.Pathed [.leaf (path.drop consumed) operator operand] :=
            ⟨further, trivial⟩
          obtain ⟨grows₂, answered⟩ := delegated_answered delivers arrives led stands₁ inside ran
          refine ⟨grows₁.trans grows₂, ?_⟩
          have whole : path.dropLast.take consumed ++ path.drop consumed = path := by
            rw [List.dropLast_eq_take, List.take_take, Nat.min_eq_left (by omega),
              List.take_append_drop]
          simpa [Filter.conditions, Filter.conditionsEntry, whole] using answered
      | unresolved there segment =>
          rw [led] at ran
          simp [(emitUnresolved_eq_ok ran).1] at strict
  | .nested path body, w, w', here, anchor, ps, stands, proper, ran => by
      obtain ⟨w₁, run, stands₁, grows₁⟩ := stands.follow 0 path
      simp only [emitEntry, Step.bind_apply, Step.ofTotal, Frame.follow, run] at ran
      cases led : f.catalog.course f.scope.joinsReverse 0 here path with
      | reached there =>
          rw [led] at ran stands₁
          obtain ⟨grows₂, answered⟩ :=
            emit_answered strict delivers arrives body stands₁ proper ran
          refine ⟨grows₁.trans grows₂, ?_⟩
          rwa [Course.place, Catalog.hops_of_course_reached led, ← List.append_assoc] at answered
      | deferred there r consumed =>
          rw [led] at ran stands₁
          have inside : Filter.Pathed
              (if (path.drop consumed).isEmpty then body
                else [.nested (path.drop consumed) body]) := by
            split
            · exact proper
            · exact ⟨proper, trivial⟩
          obtain ⟨grows₂, answered⟩ := delegated_answered delivers arrives led stands₁ inside ran
          refine ⟨grows₁.trans grows₂, ?_⟩
          have whole := List.take_append_drop consumed path
          cases rest : path.drop consumed with
          | nil =>
              rw [rest, List.append_nil] at whole
              simpa [Filter.conditionsEntry, rest, whole] using answered
          | cons field further =>
              rw [rest] at whole
              simpa [Filter.conditions, Filter.conditionsEntry, rest, whole] using answered
      | unresolved there segment =>
          rw [led] at ran
          simp [(emitUnresolved_eq_ok ran).1] at strict

theorem emitAll_answered (strict : f.policy = .reject)
    (delivers : Delivers f.catalog collection f.scope.joinsReverse delegate)
    (arrives : f.catalog.arrival true collection before = some root) :
    ∀ (children : List (List Entry)) {w w' : Walk} {here : Place} {anchor : Anchor}
    {items : List Predicate},
    w.Stands f.catalog f.scope root here anchor → Filter.PathedAll children →
    emitAll f delegate anchor children w = (.ok items, w') →
    w.aliases.Grows w'.aliases ∧ Answered f.catalog collection w'.aliases f.scope root before
      (Filter.conditionsAll (before ++ here.hops) children) items
  | [], w, w', here, anchor, items, _, _, ran => by
      cases ran
      exact ⟨.refl _, .nil⟩
  | child :: rest, w, w', here, anchor, items, stands, proper, ran => by
      obtain ⟨ps, w₁, first, more⟩ := Step.bind_eq_ok ran
      obtain ⟨later, w₂, second, gave⟩ := Step.bind_eq_ok more
      cases gave
      obtain ⟨grows₁, answered₁⟩ :=
        emit_answered strict delivers arrives child stands proper.1 first
      obtain ⟨grows₂, answered₂⟩ :=
        emitAll_answered strict delivers arrives rest (stands.later grows₁) proper.2 second
      refine ⟨grows₁.trans grows₂, ?_⟩
      rw [Filter.conditionsAll]
      have both := ((answered₁.later grows₂).group .and).append answered₂
      cases ps <;> simpa using both

end

end Walks

/-- Walks take no alias back. -/
theorem kept_grows (f : Frame) (t : AliasTable) : Kept f fun w => t.Grows w.aliases where
  hop {w} here field table left right grows := by
    rcases w.aliases.aliasFor_cases ⟨f.scope.id, here.qualifier, field⟩ with
      ⟨name, -, call⟩ | ⟨t', call, issues⟩
    · simpa [Walk.hop, call] using grows
    · simpa [Walk.hop, call] using grows.trans issues.grows

/-- Compiling a filter in a scope makes the tests of the filter. -/
theorem inScope_answered {f : Frame} {delegate : Option Delegate} {root : String}
    {before : List String} (strict : f.policy = .reject)
    (delivers : Delivers f.catalog collection f.scope.joinsReverse delegate)
    (arrives : f.catalog.arrival true collection before = some root) {filter : Filter}
    (proper : Filter.Pathed filter) {t t' : AliasTable} {c : CompiledFilter}
    (ran : inScope f delegate root filter t = (.ok c, t')) :
    t.Grows t' ∧ Answered f.catalog collection t' f.scope root before
      (Filter.conditions before filter) c.predicate.toList := by
  have found : t.Grows (discover f (.root root) filter ⟨t, []⟩).aliases :=
    (kept_grows f t).discover filter (.refl t)
  simp only [inScope] at ran
  generalize discover f (.root root) filter ⟨t, []⟩ = w at found ran
  split at ran
  · next ps w' made =>
      cases ran
      obtain ⟨grows, answered⟩ := emit_answered strict delivers arrives filter
        (Walk.stands_root f.catalog f.scope root w) proper made
      refine ⟨found.trans grows, ?_⟩
      rw [Place.root, List.append_nil] at answered
      cases ps with
      | nil => exact answered
      | cons p rest => exact answered.group .and
  · cases ran

end Compile

namespace Filter

variable {cat : Catalog} {collection : String} {t t' : AliasTable}

/-- A filter behind a reverse hop makes its tests in a sub-select. -/
theorem membership_answered {there : Anchor} {r : Relation} {child : Filter} {p : Predicate}
    {before : List String} (proper : Pathed child)
    (arrives : cat.arrival true collection before = some r.manyCollection)
    (ran : membership cat .reject there r child t = (.ok p, t')) :
    t.Grows t' ∧ ∃ (s : Select) (id : Nat), p = .inSelect (there.column r.onePrimary) s ∧
      s.collection = r.manyCollection ∧ s.columns = [r.manyField] ∧
      Answered cat collection t' ⟨id, true⟩ r.manyCollection before (conditions before child)
        s.predicates := by
  obtain ⟨s, t₁, selected, gave⟩ := Step.bind_eq_ok ran
  cases gave
  obtain ⟨c, t₂, inner, gave⟩ := Step.bind_eq_ok selected
  cases gave
  obtain ⟨_, t₁, required, more⟩ := Step.bind_eq_ok inner
  obtain ⟨-, rfl⟩ := Step.ofExcept_eq_ok required
  obtain ⟨id, t₂, opened, ran⟩ := Step.bind_eq_ok more
  cases opened
  have delivers : Compile.Delivers cat collection true none := rfl
  obtain ⟨grows, answered⟩ := Compile.inScope_answered rfl delivers arrives proper ran
  exact ⟨(AliasTable.grows_newScope t₁).trans grows, _, _, rfl, rfl, rfl, answered⟩

/-- Where paths that lead nowhere are rejected, a compiled filter tests what the filter asks for:
its tests, from left to right and into sub-selects, are those of the conditions of the filter, one
for one and in the order of the document. -/
theorem compile_strict_tests {options : CompileOptions} {document : Json} {filter : Filter}
    {c : CompiledFilter} (read : ofJson options document = .ok filter)
    (compiled : filter.compile cat .reject false collection t = (.ok c, t')) :
    ∃ tests, Predicate.ReadAs cat t' .root collection [] c.predicate.toList tests ∧
      List.Forall₂ (Test.Answers cat collection) (conditions [] filter) tests := by
  obtain ⟨_, t₁, required, ran⟩ := Step.bind_eq_ok compiled
  obtain ⟨-, rfl⟩ := Step.ofExcept_eq_ok required
  have delivers : Compile.Delivers cat collection false (some (membership cat .reject)) := by
    intro there r child t t' p before proper arrives
    exact membership_answered proper arrives
  exact (Compile.inScope_answered rfl delivers rfl (pathed_of_ofJson read) ran).2

/-- The document of a filter for the books whose author has a name and a book of a title; the
disjunction in it always holds. -/
def fellowsDocument : Json :=
  .object
    [ ("author", .object
        [ ("name", .object [("_eq", .string "Ann")]),
          ("books.title", .object [("_empty", .bool false)]) ]),
      ("_or", .array [.object [], .object [("title", .object [("_eq", .string "Emma")])]]) ]

/-- The filter that the document reads as. -/
def fellows : Filter :=
  [ .nested ["author"]
      [.leaf ["name"] .eq (.string "Ann"), .leaf ["books", "title"] .isEmpty (.bool false)],
    .group .or [[], [.leaf ["title"] .eq (.string "Emma")]] ]

/-- Both conditions on the author are tested, the second one in a sub-select, and what stands in the
disjunction is not. -/
theorem compile_strict_tests_fellows :
    ofJson {} fellowsDocument = .ok fellows ∧
    conditions [] fellows = [⟨["author", "name"], .eq, .string "Ann"⟩,
      ⟨["author", "books", "title"], .isEmpty, .bool false⟩] ∧
    ∃ c t', fellows.compile .library .reject false "books"
        (.fresh .sequential (fun _ => 0) Catalog.library.names) = (.ok c, t') ∧
      ∃ tests, Predicate.ReadAs .library t' .root "books" [] c.predicate.toList tests ∧
        List.Forall₂ (Test.Answers .library "books") (conditions [] fellows) tests := by
  have outcome : (fellows.compile .library .reject false "books"
      (.fresh .sequential (fun _ => 0) Catalog.library.names)).1.toOption.map
        (·.joins.map (·.qualifier)) = some ["aaaaa"] := by decide +kernel
  have read : ofJson {} fellowsDocument = .ok fellows := rfl
  refine ⟨read, rfl, ?_⟩
  rcases compiled : fellows.compile .library .reject false "books"
      (.fresh .sequential (fun _ => 0) Catalog.library.names) with ⟨_ | c, t'⟩
  · simp [compiled, Except.toOption] at outcome
  · exact ⟨c, t', rfl, compile_strict_tests read compiled⟩

end Filter

end FilterSql
