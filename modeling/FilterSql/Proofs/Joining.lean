import FilterSql.Proofs.Database
import FilterSql.Proofs.Plan

/-!
The joined rows of a plan.

A view gives a row to each hop sequence. It is consistent if each hop leads to a row that matches,
or to the row of nulls where none does (`Engine.Consistent`). The environments that the joins of a
plan make are the consistent views of the hop sequences seen, under their names: each environment
is one (`meets_of_mem_joinAll`), and each view has an environment (`exists_mem_joinAll`). A view of
the hop sequences seen extends to all hop sequences (`consistent_extend`).
-/

namespace FilterSql

namespace Engine

variable {E : Engine}

/-- A row behind a link: one that matches, or the row of nulls if none does. -/
def Meets (db : E.Database) (link : Link) (near far : E.Row) : Prop :=
  (far ∈ db link.table ∧ Same (near link.near) (far link.far)) ∨
    (∀ row ∈ db link.table, ¬ Same (near link.near) (row link.far)) ∧ far = E.nullRow

/-- The first row behind a link, or the row of nulls if there is none. -/
def next (db : E.Database) (link : Link) (near : E.Row) : E.Row :=
  ((db link.table).find? fun row => Same (near link.near) (row link.far)).getD E.nullRow

theorem meets_next (db : E.Database) (link : Link) (near : E.Row) :
    Meets db link near (next db link near) := by
  unfold next Meets
  cases found : (db link.table).find? fun row => Same (near link.near) (row link.far) with
  | none => exact .inr ⟨by simpa using found, rfl⟩
  | some row =>
      exact .inl ⟨List.mem_of_find?_eq_some found, by simpa using List.find?_some found⟩

/-- Where no two rows match, the row behind a link is the first one. -/
theorem Meets.eq_next {db : E.Database} {link : Link} {near far : E.Row}
    (unique : ∀ x ∈ db link.table, ∀ y ∈ db link.table, Same (x link.far) (y link.far) → x = y)
    (meets : Meets db link near far) : far = next db link near := by
  rcases meets_next db link near with ⟨mem, same⟩ | ⟨none, null⟩
  · rcases meets with ⟨mem', same'⟩ | ⟨none, -⟩
    · exact unique far mem' _ mem (same'.symm.trans same)
    · exact absurd same (none _ mem)
  · rcases meets with ⟨mem', same'⟩ | ⟨-, null'⟩
    · exact absurd same' (none far mem')
    · rw [null, null']

/-- A row for each hop sequence, so that each hop that is joined leads to a row behind its link. -/
def Consistent (db : E.Database) (cat : Catalog) (joinsReverse : Bool) (root : String)
    (view : List String → E.Row) : Prop :=
  ∀ path link, cat.lastLink joinsReverse root path = some link →
    Meets db link (view path.dropLast) (view path)

/-! ### The environments of joins -/

@[simp] theorem bind_self (env : E.Env) (name : String) (row : E.Row) :
    env.bind name row name = row := if_pos rfl

theorem bind_of_ne (env : E.Env) {name q : String} (row : E.Row) (other : q ≠ name) :
    env.bind name row q = env q := if_neg other

/-- The rows that a left join finds behind a link. -/
def behind (db : E.Database) (link : Link) (near : E.Row) : List E.Row :=
  let matching := (db link.table).filter fun row => Same (near link.near) (row link.far)
  if matching.isEmpty then [E.nullRow] else matching

theorem mem_behind {db : E.Database} {link : Link} {near far : E.Row} :
    far ∈ behind db link near ↔ Meets db link near far := by
  unfold behind
  cases found : (db link.table).filter fun row => Same (near link.near) (row link.far) with
  | nil =>
      have none : ∀ row ∈ db link.table, ¬ Same (near link.near) (row link.far) := by
        simpa using List.filter_eq_nil_iff.mp found
      have unmatched : ¬ (far ∈ db link.table ∧ Same (near link.near) (far link.far)) := by
        rintro ⟨mem, same⟩
        exact none far mem same
      simp [Meets, unmatched, and_iff_right none]
  | cons row rest =>
      obtain ⟨mem, same⟩ := List.mem_filter.mp (found ▸ List.mem_cons_self : row ∈ _)
      have same := of_decide_eq_true same
      have some : ¬ ((∀ row ∈ db link.table, ¬ Same (near link.near) (row link.far)) ∧
          far = E.nullRow) := by
        rintro ⟨none, -⟩
        exact none row mem same
      dsimp only
      rw [Meets, or_iff_left some, List.isEmpty_cons, if_neg (by simp), ← found, List.mem_filter,
        decide_eq_true_eq]

/-- A left join binds its name to the rows behind its link. -/
theorem joinOne_joinOf {db : E.Database} {cat : Catalog} {joinsReverse : Bool} {root : String}
    {names : List String → String} {path : List String} {link : Link} (env : E.Env)
    (linked : cat.lastLink joinsReverse root path = some link)
    (apart : names path.dropLast ≠ names path) :
    joinOne db (cat.joinOf joinsReverse root names path) env =
      (behind db link (env (names path.dropLast))).map (env.bind (names path)) := by
  have matching : ∀ row : E.Row, Same
      (Env.cell (env.bind (names path) row) ⟨names path.dropLast, link.near⟩)
      (Env.cell (env.bind (names path) row) ⟨names path, link.far⟩) ↔
      Same (env (names path.dropLast) link.near) (row link.far) := by
    intro row
    rw [Env.cell, Env.cell, bind_of_ne _ _ apart, bind_self]
  simp only [joinOne, behind, Catalog.joinOf, linked, Option.getD_some, matching]

/-- A left join binds its name to a row behind its link. -/
theorem mem_joinOne {db : E.Database} {cat : Catalog} {joinsReverse : Bool} {root : String}
    {names : List String → String} {path : List String} {link : Link} {env joined : E.Env}
    (linked : cat.lastLink joinsReverse root path = some link)
    (apart : names path.dropLast ≠ names path) :
    joined ∈ joinOne db (cat.joinOf joinsReverse root names path) env ↔
      ∃ far, Meets db link (env (names path.dropLast)) far ∧
        joined = env.bind (names path) far := by
  rw [joinOne_joinOf env linked apart, List.mem_map]
  exact exists_congr fun far => and_congr mem_behind eq_comm

@[simp] theorem joinAll_nil (db : E.Database) (env : E.Env) : joinAll db [] env = [env] := rfl

theorem joinAll_snoc (db : E.Database) (joins : List Join) (j : Join) (env : E.Env) :
    joinAll db (joins ++ [j]) env = (joinAll db joins env).flatMap (joinOne db j) := by
  simp [joinAll]

section Joins

variable {db : E.Database} {cat : Catalog} {joinsReverse : Bool} {root : String}
  {names : List String → String} {seen : List (List String)}

/-- Each environment of the joins keeps the row it starts from and holds a row behind each link. -/
theorem meets_of_mem_joinAll (grown : Grown seen) (apart : Apart names seen)
    (linked : ∀ path ∈ seen, (cat.lastLink joinsReverse root path).isSome) {env joined : E.Env}
    (mem : joined ∈ joinAll db (seen.map (cat.joinOf joinsReverse root names)) env) :
    joined (names []) = env (names []) ∧
      ∀ path ∈ seen, ∀ link, cat.lastLink joinsReverse root path = some link →
        Meets db link (joined (names path.dropLast)) (joined (names path)) := by
  induction grown generalizing joined with
  | nil =>
      obtain rfl := List.mem_singleton.mp mem
      exact ⟨rfl, by simp⟩
  | @snoc seen before field rest reached new ih =>
      have inner := apart.init
      have other := apart.ne_last new
      obtain ⟨link, last⟩ := Option.isSome_iff_exists.mp (linked (before ++ [field]) (by simp))
      rw [List.map_append, List.map_singleton, joinAll_snoc, List.mem_flatMap] at mem
      obtain ⟨env', mem, one⟩ := mem
      obtain ⟨start, met⟩ := ih inner (fun path old => linked path (by simp [old])) mem
      rw [mem_joinOne last (by simpa using other before reached), List.dropLast_concat] at one
      obtain ⟨far, meets, rfl⟩ := one
      refine ⟨by rw [bind_of_ne _ _ (other [] (.inl rfl)), start], ?_⟩
      intro path known link' last'
      rcases List.mem_append.mp known with old | latest
      · rw [bind_of_ne _ _ (other path (.inr old)),
          bind_of_ne _ _ (other _ (rest.dropLast_mem old))]
        exact met path old link' last'
      · obtain rfl := List.mem_singleton.mp latest
        obtain rfl : link = link' := Option.some.inj (last.symm.trans last')
        rwa [List.dropLast_concat, bind_self, bind_of_ne _ _ (other before reached)]

/-- A view of the hop sequences seen has an environment. -/
theorem exists_mem_joinAll (grown : Grown seen) (apart : Apart names seen)
    (linked : ∀ path ∈ seen, (cat.lastLink joinsReverse root path).isSome)
    (view : List String → E.Row) (env : E.Env) (start : env (names []) = view [])
    (meets : ∀ path ∈ seen, ∀ link, cat.lastLink joinsReverse root path = some link →
      Meets db link (view path.dropLast) (view path)) :
    ∃ joined ∈ joinAll db (seen.map (cat.joinOf joinsReverse root names)) env,
      ∀ path, path = [] ∨ path ∈ seen → joined (names path) = view path := by
  induction grown with
  | nil => exact ⟨env, by simp, by simpa using start⟩
  | @snoc seen before field rest reached new ih =>
      have inner := apart.init
      have other := apart.ne_last new
      obtain ⟨link, last⟩ := Option.isSome_iff_exists.mp (linked (before ++ [field]) (by simp))
      obtain ⟨joined, mem, agree⟩ := ih inner (fun path old => linked path (by simp [old]))
        (fun path old => meets path (by simp [old]))
      have far := meets (before ++ [field]) (by simp) link last
      rw [List.dropLast_concat, ← agree before reached] at far
      refine ⟨joined.bind (names (before ++ [field])) (view (before ++ [field])), ?_, ?_⟩
      · rw [List.map_append, List.map_singleton, joinAll_snoc, List.mem_flatMap]
        refine ⟨joined, mem, (mem_joinOne last (by simpa using other before reached)).mpr ?_⟩
        exact ⟨_, by rwa [List.dropLast_concat], rfl⟩
      · intro path known
        by_cases latest : path = before ++ [field]
        · rw [latest, bind_self]
        · have old : path = [] ∨ path ∈ seen := by
            rcases known with start | mem
            · exact .inl start
            · rcases List.mem_append.mp mem with earlier | last
              · exact .inr earlier
              · exact absurd (List.mem_singleton.mp last) latest
          rw [bind_of_ne _ _ (other path old), agree path old]

/-! ### Views of all hop sequences -/

/-- The view that agrees with a given one on the hop sequences seen and goes on behind them with the
first row behind each link. -/
def extend (db : E.Database) (cat : Catalog) (joinsReverse : Bool) (root : String)
    (seen : List (List String)) (view : List String → E.Row) (path : List String) : E.Row :=
  path.reverseRecOn (view []) fun before field row =>
    if seen.contains (before ++ [field]) then view (before ++ [field])
    else (cat.lastLink joinsReverse root (before ++ [field])).elim E.nullRow (next db · row)

theorem extend_snoc (view : List String → E.Row) (before : List String) (field : String) :
    extend db cat joinsReverse root seen view (before ++ [field]) =
      if seen.contains (before ++ [field]) then view (before ++ [field])
      else (cat.lastLink joinsReverse root (before ++ [field])).elim E.nullRow
        (next db · (extend db cat joinsReverse root seen view before)) := by
  rw [extend, List.reverseRecOn_concat, ← extend]

theorem extend_of_mem (grown : Grown seen) (view : List String → E.Row) {path : List String}
    (known : path = [] ∨ path ∈ seen) :
    extend db cat joinsReverse root seen view path = view path := by
  rcases known with rfl | mem
  · simp [extend]
  · obtain ⟨before, field, rfl⟩ := List.eq_nil_or_concat path |>.resolve_left (grown.ne_nil mem)
    rw [List.concat_eq_append] at mem ⊢
    rw [extend_snoc, if_pos (List.contains_iff_mem.mpr mem)]

/-- A view that is consistent on the hop sequences seen extends to a consistent one. -/
theorem consistent_extend (grown : Grown seen) {view : List String → E.Row}
    (meets : ∀ path ∈ seen, ∀ link, cat.lastLink joinsReverse root path = some link →
      Meets db link (view path.dropLast) (view path)) :
    Consistent db cat joinsReverse root (extend db cat joinsReverse root seen view) := by
  intro path link last
  rcases List.eq_nil_or_concat path with rfl | ⟨before, field, rfl⟩
  · cases last
  · rw [List.concat_eq_append] at last ⊢
    by_cases mem : before ++ [field] ∈ seen
    · rw [extend_of_mem grown view (.inr mem), extend_of_mem grown view (grown.dropLast_mem mem)]
      exact meets _ mem link last
    · rw [extend_snoc, if_neg (mt List.contains_iff_mem.mp mem), last, Option.elim_some, List.dropLast_concat]
      exact meets_next db link _

end Joins

end Engine

end FilterSql
