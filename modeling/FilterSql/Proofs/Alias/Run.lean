import FilterSql.Proofs.Alias.Table
import Mathlib.Data.List.Dedup

/-!
The life of an alias table.

A table that was made with reserved names serves requests one after another, and the log of its
answers (`serve`) tells what happened. Keys may be asked for in any scope, opened or not. What is
known of a table after some events is `Recorded`; one more answer keeps it (`Recorded.answer`), and
so does a whole run (`Recorded.serve`). By `serve_collisionFree` each alias that is given is in
order (`Grant.Follows`), two grants have the same alias exactly if they have the same key, and no
scope is opened twice.

The counter goes through one number after another until one is free. A grant keeps the names that it
has tried, so that the log also tells how far the search for a free name went: all of them but the
last were in the way, and there are no more of those than names that are reserved or given out.
-/

namespace FilterSql

namespace AliasTable

/-! ### The search for a free number -/

theorem le_firstFree (taken : Std.TreeSet String) (fuel n : Nat) :
    n ≤ firstFree taken fuel n ∧ firstFree taken fuel n ≤ n + fuel := by
  induction fuel generalizing n with
  | zero => exact ⟨Nat.le_refl n, Nat.le_refl n⟩
  | succ fuel ih =>
      simp only [firstFree]
      split
      · have := ih (n + 1)
        omega
      · omega

/-- All numbers that the search passes are taken. -/
theorem taken_of_lt_firstFree {taken : Std.TreeSet String} {fuel n i : Nat} (from_ : n ≤ i)
    (passed : i < firstFree taken fuel n) : encode i ∈ taken := by
  induction fuel generalizing n with
  | zero =>
      simp only [firstFree] at passed
      omega
  | succ fuel ih =>
      simp only [firstFree] at passed
      split at passed
      · next first =>
          rcases Nat.eq_or_lt_of_le from_ with rfl | later
          · exact Std.TreeSet.mem_iff_contains.mpr first
          · exact ih later passed
      · omega

/-- The names that the counter has come to between two states of a table. -/
def tried (t t' : AliasTable) : List String :=
  (List.range' t.counter (t'.counter - t.counter)).map encode

/-- Names that were tried until one was free: those before it were all taken. -/
def Exhausts (taken : Std.TreeSet String) (names : List String) (found : String) : Prop :=
  ∃ refused, names = refused ++ [found] ∧ refused.length ≤ taken.size ∧
    ∀ name ∈ refused, name ∈ taken

theorem exhausts_nextSequential (t : AliasTable) :
    Exhausts t.taken (tried t t.nextSequential.2) t.nextSequential.1 := by
  obtain ⟨reached, bound⟩ := le_firstFree t.taken t.taken.size t.counter
  let n := firstFree t.taken t.taken.size t.counter
  have steps : n + 1 - t.counter = n - t.counter + 1 := by omega
  have last : t.counter + (n - t.counter) = n := by omega
  refine ⟨(List.range' t.counter (n - t.counter)).map encode, ?_, ?_, ?_⟩
  · change (List.range' t.counter (n + 1 - t.counter)).map encode = _
    rw [steps, List.range'_1_concat, last, List.map_append]
    rfl
  · simp only [List.length_map, List.length_range']
    omega
  · intro name mem
    obtain ⟨i, among, rfl⟩ := List.mem_map.mp mem
    have bounds := List.mem_range'_1.mp among
    have passed : i < n := by omega
    exact taken_of_lt_firstFree bounds.1 passed

/-- The next alias is found by the counter, or the counter is left alone, which only random tables
do. -/
theorem tried_next (t : AliasTable) :
    (t.strategy = .random ∧ tried t t.next.2 = []) ∨
      Exhausts t.taken (tried t t.next.2) t.next.1 := by
  unfold next
  split
  · exact .inr (exhausts_nextSequential t)
  · next random =>
      split
      · exact .inl ⟨random, by simp [tried]⟩
      · next drawn _ => exact .inr (exhausts_nextSequential { t with drawn := drawn })

theorem exists_encode_drawFree (t : AliasTable) {attempts drawn later : Nat} {name : String}
    (drew : t.drawFree attempts drawn = (some name, later)) : ∃ n, encode n = name := by
  induction attempts generalizing drawn with
  | zero => simp [drawFree] at drew
  | succ k ih =>
      simp only [drawFree] at drew
      split at drew
      · cases drew
        exact ⟨_, rfl⟩
      · exact ih drew

/-- The next alias is the code of a number. -/
theorem exists_encode_next (t : AliasTable) : ∃ n, encode n = t.next.1 := by
  unfold next
  split
  · exact ⟨_, rfl⟩
  · split
    · next drew => exact exists_encode_drawFree t drew
    · exact ⟨_, rfl⟩

theorem strategy_next (t : AliasTable) : t.next.2.strategy = t.strategy := by
  unfold next
  split
  · rfl
  · split <;> rfl

/-! ### Logs -/

/-- What a table may be asked for. -/
inductive Request where
  | newScope
  | aliasFor (key : AliasKey)
  deriving DecidableEq, Repr

/-- An alias that was given for a key, for the first time or again, and the names of the counter
that were tried for it. -/
structure Grant where
  key : AliasKey
  name : String
  created : Bool
  tried : List String
  deriving DecidableEq, Repr

/-- What a table has answered. -/
inductive Event where
  | opened (scope : Nat)
  | gave (grant : Grant)
  deriving DecidableEq, Repr

/-- The answer to a request. -/
def answer (t : AliasTable) : Request → Event × AliasTable
  | .newScope =>
    let (scope, t') := t.newScope
    (.opened scope, t')
  | .aliasFor key =>
    let ((name, created), t') := t.aliasFor key
    (.gave ⟨key, name, created, tried t t'⟩, t')

/-- The answers to requests, one after another. -/
def serve (t : AliasTable) : List Request → List Event
  | [] => []
  | r :: rest => (t.answer r).1 :: (t.answer r).2.serve rest

/-- The alias that an event is the first to give. -/
def Event.issued? : Event → Option String
  | .gave ⟨_, name, true, _⟩ => some name
  | _ => none

/-- The aliases given out, each of them once. -/
def issuedNames (log : List Event) : List String := log.filterMap Event.issued?

/-- What is asked of an alias that is given after some events. -/
structure Grant.Follows (strategy : AliasStrategy) (reserved : List String) (before : List Event)
    (g : Grant) : Prop where
  /-- no more names are tried than may be in the way, and one -/
  bounded : g.tried.length ≤ (issuedNames before).length + reserved.dedup.length + 1
  /-- names are tried until one is free, or none are tried -/
  searched : g.tried = [] ∨ ∃ refused, g.tried = refused ++ [g.name] ∧
    ∀ name ∈ refused, name ∈ reserved ∨ name ∈ issuedNames before
  /-- a sequential table makes up its aliases by trying names -/
  counted : strategy = .sequential → g.created = true → g.tried ≠ []
  created_iff : g.created = true ↔ ∀ h : Grant, .gave h ∈ before → h.key ≠ g.key
  unreserved : g.name ∉ reserved
  lower : ∀ c ∈ g.name.toList, c.isLower = true
  long : 5 ≤ g.name.length

/-! ### What a log says about a table -/

/-- What is known of a table after some events. -/
structure Recorded (strategy : AliasStrategy) (reserved : List String) (past : List Event)
    (t : AliasTable) : Prop where
  strategy_eq : t.strategy = strategy
  issued_iff : ∀ (k : AliasKey) (a : String),
    t.issued[k]? = some a ↔ ∃ g : Grant, .gave g ∈ past ∧ g.key = k ∧ g.name = a
  taken_iff : ∀ a, a ∈ t.taken ↔ a ∈ reserved ∨ a ∈ issuedNames past
  issued_taken : ∀ {k : AliasKey} {a : String}, t.issued[k]? = some a → a ∈ issuedNames past
  issued_unreserved : ∀ {k : AliasKey} {a : String}, t.issued[k]? = some a → a ∉ reserved
  injective : ∀ {k l : AliasKey} {a : String},
    t.issued[k]? = some a → t.issued[l]? = some a → k = l
  encoded : ∀ {k : AliasKey} {a : String}, t.issued[k]? = some a → ∃ n, encode n = a
  opened_iff : ∀ n, .opened n ∈ past ↔ n ≠ 0 ∧ n < t.nextScope
  root_opened : 0 < t.nextScope

section Recorded

variable {strategy : AliasStrategy} {reserved : List String} {past : List Event} {t : AliasTable}

theorem recorded_fresh (strategy : AliasStrategy) (draws : Nat → Nat) (reserved : List String) :
    Recorded strategy reserved [] (fresh strategy draws reserved) where
  strategy_eq := rfl
  issued_iff k a := by simp [fresh]
  taken_iff a := by simp [fresh, issuedNames, Std.TreeSet.mem_ofList]
  issued_taken h := by simp [fresh] at h
  issued_unreserved h := by simp [fresh] at h
  injective h := by simp [fresh] at h
  encoded h := by simp [fresh] at h
  opened_iff n := by
    simp only [fresh, List.not_mem_nil, false_iff]
    omega
  root_opened := Nat.one_pos

/-- There are no more names in the way than are reserved or given out. -/
theorem Recorded.size_taken_le (recorded : Recorded strategy reserved past t) :
    t.taken.size ≤ (issuedNames past).length + reserved.dedup.length := by
  have different : t.taken.toList.Nodup := by
    refine Std.TreeSet.distinct_toList.imp ?_
    rintro a _ apart rfl
    exact apart (Std.compare_eq_iff_eq.mpr rfl)
  have known : t.taken.toList ⊆ issuedNames past ++ reserved.dedup := by
    intro a mem
    rw [List.mem_append, List.mem_dedup, or_comm]
    exact (recorded.taken_iff a).mp (Std.TreeSet.mem_toList.mp mem)
  have count := (different.subperm known).length_le
  rwa [Std.TreeSet.length_toList, List.length_append] at count

/-- A key has an alias exactly if it was given one. -/
theorem Recorded.issued_eq_none_iff (recorded : Recorded strategy reserved past t)
    (key : AliasKey) :
    t.issued[key]? = none ↔ ∀ g : Grant, .gave g ∈ past → g.key ≠ key := by
  constructor
  · intro unknown g mem same
    have known := (recorded.issued_iff key g.name).mpr ⟨g, mem, same, rfl⟩
    rw [unknown] at known
    cases known
  · intro never
    cases known : t.issued[key]? with
    | none => rfl
    | some a =>
        obtain ⟨g, mem, same, -⟩ := (recorded.issued_iff key a).mp known
        exact absurd same (never g mem)

/-- Opening a scope is recorded. -/
theorem Recorded.newScope (recorded : Recorded strategy reserved past t) :
    Recorded strategy reserved (past ++ [.opened t.nextScope]) t.newScope.2 where
  strategy_eq := recorded.strategy_eq
  issued_iff k a := by simpa [AliasTable.newScope] using recorded.issued_iff k a
  taken_iff a := by
    simpa [issuedNames, Event.issued?, AliasTable.newScope] using recorded.taken_iff a
  issued_taken known := by
    simpa [issuedNames, Event.issued?] using recorded.issued_taken known
  issued_unreserved := recorded.issued_unreserved
  injective := recorded.injective
  encoded := recorded.encoded
  opened_iff n := by
    have := recorded.root_opened
    rw [List.mem_append, recorded.opened_iff]
    simp only [List.mem_singleton, Event.opened.injEq, AliasTable.newScope]
    omega
  root_opened := Nat.lt_succ_of_lt recorded.root_opened

/-- An alias given again is recorded. -/
theorem Recorded.repeats (recorded : Recorded strategy reserved past t) {g : Grant}
    (known : t.issued[g.key]? = some g.name) (again : g.created = false) :
    Recorded strategy reserved (past ++ [.gave g]) t := by
  have names : issuedNames (past ++ [.gave g]) = issuedNames past := by
    obtain ⟨key, name, created, tried⟩ := g
    obtain rfl : created = false := again
    simp [issuedNames, Event.issued?]
  refine
    { recorded with
      issued_iff := fun k a => ?_
      taken_iff := by rw [names]; exact recorded.taken_iff
      issued_taken := by rw [names]; exact recorded.issued_taken
      opened_iff := by simpa using recorded.opened_iff }
  rw [recorded.issued_iff]
  constructor
  · rintro ⟨h, mem, parts⟩
    exact ⟨h, List.mem_append_left _ mem, parts⟩
  · rintro ⟨h, mem, rfl, rfl⟩
    rcases List.mem_append.mp mem with old | new
    · exact ⟨h, old, rfl, rfl⟩
    · cases List.mem_singleton.mp new
      exact (recorded.issued_iff _ _).mp known

/-- A new alias is recorded. -/
theorem Recorded.issues (recorded : Recorded strategy reserved past t) {g : Grant}
    {t' : AliasTable} (issues : Issues t g.key g.name t') (first : g.created = true)
    (encoded : ∃ n, encode n = g.name) (same : t'.strategy = t.strategy) :
    Recorded strategy reserved (past ++ [.gave g]) t' := by
  have names : issuedNames (past ++ [.gave g]) = issuedNames past ++ [g.name] := by
    obtain ⟨key, name, created, tried⟩ := g
    obtain rfl : created = true := first
    simp [issuedNames, Event.issued?]
  have new : g.name ∉ reserved ∧ g.name ∉ issuedNames past := by
    rw [← not_or, ← recorded.taken_iff]
    exact issues.free
  have never := (recorded.issued_eq_none_iff g.key).mp issues.unissued
  have other {k : AliasKey} (old : t.issued[k]? ≠ none) : k ≠ g.key := by
    rintro rfl
    exact old issues.unissued
  refine ⟨same.trans recorded.strategy_eq, ?_, ?_, ?_, ?_, ?_, ?_, ?_, ?_⟩
  · intro k a
    rw [issues.issued]
    constructor
    · intro known
      split at known
      · next own => exact ⟨g, by simp, own.symm, Option.some.inj known⟩
      · obtain ⟨h, mem, parts⟩ := (recorded.issued_iff k a).mp known
        exact ⟨h, List.mem_append_left _ mem, parts⟩
    · rintro ⟨h, mem, rfl, rfl⟩
      rcases List.mem_append.mp mem with old | now
      · rw [if_neg (never h old)]
        exact (recorded.issued_iff _ _).mpr ⟨h, old, rfl, rfl⟩
      · cases List.mem_singleton.mp now
        rw [if_pos rfl]
  · intro a
    rw [issues.taken, recorded.taken_iff, names, List.mem_append, List.mem_singleton, or_comm,
      or_assoc]
  · intro k a known
    rw [issues.issued] at known
    rw [names, List.mem_append, List.mem_singleton]
    split at known
    · exact .inr (Option.some.inj known).symm
    · exact .inl (recorded.issued_taken known)
  · intro k a known
    rw [issues.issued] at known
    split at known
    · exact Option.some.inj known ▸ new.1
    · exact recorded.issued_unreserved known
  · intro k l a known known'
    rw [issues.issued] at known known'
    split at known <;> split at known'
    · next own own' => rw [own, own']
    · exact absurd (Option.some.inj known ▸ recorded.issued_taken known') new.2
    · exact absurd (Option.some.inj known' ▸ recorded.issued_taken known) new.2
    · exact recorded.injective known known'
  · intro k a known
    rw [issues.issued] at known
    split at known
    · exact Option.some.inj known ▸ encoded
    · exact recorded.encoded known
  · intro n
    rw [issues.nextScope, List.mem_append, recorded.opened_iff]
    simp
  · rw [issues.nextScope]
    exact recorded.root_opened

theorem aliasFor_unissued {key : AliasKey} (unknown : t.issued[key]? = none) :
    (t.aliasFor key).2.strategy = t.strategy ∧ tried t (t.aliasFor key).2 = tried t t.next.2 := by
  simp only [aliasFor, unknown]
  exact ⟨strategy_next t, rfl⟩

/-- One more answer is recorded. -/
theorem Recorded.answer (recorded : Recorded strategy reserved past t) (r : Request) :
    Recorded strategy reserved (past ++ [(t.answer r).1]) (t.answer r).2 := by
  cases r with
  | newScope => exact recorded.newScope
  | aliasFor key =>
      simp only [AliasTable.answer]
      rcases t.aliasFor_cases key with ⟨name, known, call⟩ | ⟨t', call, issues⟩
      · rw [call]
        exact recorded.repeats known rfl
      · have same := (aliasFor_unissued issues.unissued).1
        rw [call] at same ⊢
        exact recorded.issues issues rfl t.exists_encode_next same

/-- A grant is in order, after the events that are recorded. -/
theorem Recorded.follows (recorded : Recorded strategy reserved past t) {r : Request} {g : Grant}
    (gave : (t.answer r).1 = .gave g) : g.Follows strategy reserved past := by
  cases r with
  | newScope => cases gave
  | aliasFor key =>
      simp only [AliasTable.answer] at gave
      rcases t.aliasFor_cases key with ⟨name, known, call⟩ | ⟨t', call, issues⟩
      · rw [call] at gave
        cases gave
        obtain ⟨h, old, same, -⟩ := (recorded.issued_iff key name).mp known
        obtain ⟨n, rfl⟩ := recorded.encoded known
        have none : tried t t = [] := by simp [tried]
        refine ⟨?_, .inl none, nofun, ?_, recorded.issued_unreserved known,
          isLower_of_mem_encode n, width_le_length_encode n⟩
        · simp [none]
        · simp only [Bool.false_eq_true, false_iff]
          exact fun never => never h old same
      · have search := (aliasFor_unissued issues.unissued).2
        rw [call] at gave search
        cases gave
        have size := recorded.size_taken_le
        have unreserved : t.next.1 ∉ reserved := by
          intro mem
          exact issues.free ((recorded.taken_iff _).mpr (.inl mem))
        have never := (recorded.issued_eq_none_iff key).mp issues.unissued
        obtain ⟨n, same⟩ := t.exists_encode_next
        have lower : ∀ c ∈ t.next.1.toList, c.isLower = true := same ▸ isLower_of_mem_encode n
        have long : 5 ≤ t.next.1.length := same ▸ width_le_length_encode n
        rcases t.tried_next with ⟨random, none⟩ | ⟨refused, all, few, taken⟩
        · rw [← search] at none
          refine ⟨by simp [none], .inl none, ?_, by simpa using never, unreserved, lower, long⟩
          intro sequential
          rw [← recorded.strategy_eq, random] at sequential
          cases sequential
        · rw [← search] at all
          refine ⟨?_, .inr ⟨refused, all, ?_⟩, ?_, by simpa using never, unreserved, lower, long⟩
          · simp only [all, List.length_append, List.length_singleton]
            omega
          · intro name mem
            exact (recorded.taken_iff name).mp (taken name mem)
          · simp [all]

/-- All answers to requests are recorded. -/
theorem Recorded.serve (recorded : Recorded strategy reserved past t) (requests : List Request) :
    ∃ t', Recorded strategy reserved (past ++ t.serve requests) t' := by
  induction requests generalizing past t with
  | nil => exact ⟨t, by simpa [AliasTable.serve] using recorded⟩
  | cons r rest ih =>
      obtain ⟨t', later⟩ := ih (recorded.answer r)
      exact ⟨t', by simpa [AliasTable.serve] using later⟩

/-- Each event of a run is the answer of a table for which all that was before it is recorded. -/
theorem Recorded.before (recorded : Recorded strategy reserved past t) {requests : List Request}
    {before after : List Event} {e : Event}
    (split : t.serve requests = before ++ e :: after) :
    ∃ (t' : AliasTable) (r : Request),
      Recorded strategy reserved (past ++ before) t' ∧ (t'.answer r).1 = e := by
  induction requests generalizing past t before with
  | nil => simp [AliasTable.serve] at split
  | cons r rest ih =>
      simp only [AliasTable.serve] at split
      cases before with
      | nil =>
          obtain ⟨answered, -⟩ := List.cons.inj split
          exact ⟨t, r, by simpa using recorded, answered⟩
      | cons first before =>
          obtain ⟨rfl, later⟩ := List.cons.inj split
          obtain ⟨t', r', recorded', answered⟩ := ih (recorded.answer r) later
          exact ⟨t', r', by simpa using recorded', answered⟩

end Recorded

/-- In each run of a fresh table, whatever it is asked for and whatever is drawn, each grant is in
order: it comes after few enough tries, is marked as new exactly if it is the first one of its key,
and its alias is no reserved name and consists of five lower-case letters or more. Two grants have
the same alias exactly if they have the same key. Each scope that is opened is a new one and not
that of a whole statement. -/
theorem serve_collisionFree (strategy : AliasStrategy) (draws : Nat → Nat)
    (reserved : List String) (requests : List Request) :
    let log := (fresh strategy draws reserved).serve requests
    (∀ before g after, log = before ++ .gave g :: after → g.Follows strategy reserved before) ∧
    (∀ g h : Grant, .gave g ∈ log → .gave h ∈ log → (g.name = h.name ↔ g.key = h.key)) ∧
    (∀ before scope after, log = before ++ .opened scope :: after →
      scope ≠ 0 ∧ .opened scope ∉ before) := by
  intro log
  have start := recorded_fresh strategy draws reserved
  refine ⟨?_, ?_, ?_⟩
  · intro before g after split
    obtain ⟨t, r, recorded, gave⟩ := start.before split
    exact recorded.follows gave
  · intro g h first second
    obtain ⟨t, recorded⟩ := start.serve requests
    have known := (recorded.issued_iff g.key g.name).mpr ⟨g, first, rfl, rfl⟩
    have known' := (recorded.issued_iff h.key h.name).mpr ⟨h, second, rfl, rfl⟩
    constructor
    · intro same
      rw [← same] at known'
      exact recorded.injective known known'
    · intro same
      rw [← same, known] at known'
      exact Option.some.inj known'
  · intro before scope after split
    obtain ⟨t, r, recorded, opened⟩ := start.before split
    cases r with
    | aliasFor key => cases opened
    | newScope =>
        obtain rfl : t.nextScope = scope := Event.opened.inj opened
        have root := recorded.root_opened
        refine ⟨by omega, fun old => ?_⟩
        have earlier := (recorded.opened_iff _).mp old
        exact Nat.lt_irrefl _ earlier.2

/-- The joins of two authors, the first of them asked for twice. -/
def twoAuthors : List Request :=
  [.aliasFor ⟨0, "books", "author"⟩, .newScope, .aliasFor ⟨1, "books", "author"⟩,
    .aliasFor ⟨0, "books", "author"⟩]

/-- All draws of a random table give the same letters, so that the second alias is made up by the
counter, which has to pass the first one. -/
theorem serve_collisionFree_unlucky :
    ∃ first second : Grant,
      (fresh .random (fun _ => 0) ["aaaab"]).serve twoAuthors =
        [.gave first, .opened 1, .gave second, .gave { first with created := false }] ∧
      second.tried = ["aaaaa", "aaaab", "aaaac"] ∧ second.name ≠ first.name ∧
      second.tried.length ≤
        (issuedNames [.gave first, .opened 1]).length + ["aaaab"].dedup.length + 1 := by
  let first : Grant := ⟨⟨0, "books", "author"⟩, "aaaaa", true, []⟩
  let second : Grant := ⟨⟨1, "books", "author"⟩, "aaaac", true, ["aaaaa", "aaaab", "aaaac"]⟩
  have log : (fresh .random (fun _ => 0) ["aaaab"]).serve twoAuthors =
      [.gave first, .opened 1, .gave second, .gave { first with created := false }] := by
    decide +kernel
  obtain ⟨follows, apart, -⟩ :=
    serve_collisionFree .random (fun _ => 0) ["aaaab"] twoAuthors
  refine ⟨first, second, log, rfl, ?_, ?_⟩
  · intro same
    have keys := (apart second first (by simp [log]) (by simp [log])).mp same
    exact absurd keys (by decide)
  · have order := follows [.gave first, .opened 1] second [.gave { first with created := false }] log
    exact order.bounded

end AliasTable

end FilterSql
