import FilterSql.Proofs.Json.Record
import FilterSql.Proofs.Json.RoundTrip
import FilterSql.Query.Basic

/-!
Queries are written and read back.

A query that is read from a text is one that can be written (`Stored`): its filter fits into the
depth that is left to it, its counts fit sixty-four bits, and its sort keys are those of texts. Such
a query is read back from the document that is written for it (`Stored.reader_toJson`), provided
that the binary64 numbers in its filter are (`Number.ReadsBack`).
-/

namespace FilterSql

/-- The text of a sort key that is read is the text that it was read from. -/
theorem SortKey.toText_ofText (s : String) : (ofText s).toText = s := by
  unfold ofText
  split
  · next rest chars =>
      have text : ("-" ++ String.ofList rest).toList = '-' :: rest := by
        simp [String.toList_append, String.toList_ofList]
      exact String.toList_inj.mp (text.trans chars.symm)
  · rfl

namespace Json

/-- What stands under a key of a record has numbers of the record. -/
theorem Source.numbers_member? {keys : List String} {key : String} {x y : Source}
    (found : x.member? keys key = some y) : y.numbers ⊆ x.numbers := by
  cases x with
  | object members closed =>
      rw [member?] at found
      induction members with
      | nil => cases found
      | cons m rest ih =>
          obtain ⟨k, z⟩ := m
          rw [List.lookup_cons] at found
          split at found
          · cases found
            exact List.subset_append_left _ _
          · exact List.subset_append_of_subset_right _ (ih found)
  | array items closed =>
      have mem := List.mem_of_getElem? found
      clear found
      induction items with
      | nil => cases mem
      | cons z rest ih =>
          rcases List.mem_cons.mp mem with rfl | later
          · exact List.subset_append_left _ _
          · exact List.subset_append_of_subset_right _ (ih later)
  | _ => cases found

/-- A list of strings is read from strings, and from nothing else. -/
theorem Reader.mapM_text_eq_ok {items : List Source} {texts : List String} :
    items.mapM text = .ok texts ↔ items = texts.map fun s => .string (some s) := by
  constructor
  · intro read
    induction items generalizing texts with
    | nil =>
        cases read
        rfl
    | cons x items ih =>
        rw [List.mapM_cons] at read
        obtain ⟨s, first, read⟩ := Filter.bind_eq_ok read
        obtain ⟨later, rest, read⟩ := Filter.bind_eq_ok read
        cases read
        unfold text at first
        split at first
        · cases first
          rw [ih rest, List.map_cons]
        · cases first
  · rintro rfl
    induction texts with
    | nil => rfl
    | cons s texts ih =>
        rw [List.map_cons, List.mapM_cons, ih]
        rfl

end Json

namespace Query

open Json (Field Fits Reader Reads Shape Source)

/-! ### What is read -/

/-- The filter, the sort keys and the counts are read into slots of their own. -/
theorem keeps_fields :
    shape.Keeps "filter" (·.filter) readFilter ∧
    shape.Keeps "sort" (·.sort) readSort ∧
    shape.Keeps "limit" (·.limit) readCount ∧
    shape.Keeps "offset" (·.offset) readCount ∧
    shape.Keeps "page" (·.page) readCount := by
  refine ⟨.of_fields [] rfl rfl (by decide) rfl (Field.fills fun _ _ => rfl) ?_,
    .of_fields [_, _] rfl rfl (by decide) rfl (Field.fills fun _ _ => rfl) ?_,
    .of_fields [_, _, _] rfl rfl (by decide) rfl (Field.fills fun _ _ => rfl) ?_,
    .of_fields [_, _, _, _] rfl rfl (by decide) rfl (Field.fills fun _ _ => rfl) ?_,
    .of_fields [_, _, _, _, _] rfl rfl (by decide) rfl (Field.fills fun _ _ => rfl) ?_⟩
  all_goals
    simp only [List.nil_append, List.cons_append, List.forall_mem_cons]
    exact ⟨Field.leaves fun _ _ => rfl, Field.leaves fun _ _ => rfl,
      Field.leaves fun _ _ => rfl, Field.leaves fun _ _ => rfl, Field.leaves fun _ _ => rfl,
      Field.leaves fun _ _ => rfl, nofun⟩

/-- A document that is read as a filter is one that can be written. -/
theorem stored_filter {x : Source} {f : Json} (held : Source.Held x.numbers)
    (read : readFilter x = .ok (some f)) :
    f ≠ .null ∧ Fits (Json.depthLimit - 1) f ∧ Source.Held f.numbers := by
  rcases Reader.optional_eq_ok read with ⟨-, none⟩ | ⟨doc, made, same⟩
  · cases none
  · obtain rfl := Option.some.inj same
    rw [Reader.document] at made
    split at made
    · next whole =>
        cases made
        obtain ⟨fits, subset⟩ := Source.toJson?_eq_some x _ _ whole
        refine ⟨?_, fits, fun n mem => held n (subset mem)⟩
        rintro rfl
        obtain rfl := Source.eq_null_of_toJson? whole
        cases read
    · cases made

/-- A count that is read fits sixty-four bits. -/
theorem stored_count {x : Source} {n : Nat} (held : Source.Held x.numbers)
    (read : readCount x = .ok (some n)) : n < Word64.count := by
  rcases Reader.optional_eq_ok read with ⟨-, none⟩ | ⟨m, made, same⟩
  · cases none
  · obtain rfl := Option.some.inj same
    unfold Reader.natural at made
    split at made
    · next n =>
        split at made
        · cases made
        · next positive =>
            cases made
            have bounds := held n (by simp [Source.numbers])
            obtain ⟨-, below⟩ := bounds
            omega
    · cases made

/-- Sort keys are read from their texts. -/
theorem stored_sort {x : Source} {keys : List SortKey} (read : readSort x = .ok keys) :
    x = .array ((keys.map SortKey.toText).map fun s => .string (some s)) true ∧
      ∀ k ∈ keys, SortKey.ofText k.toText = k := by
  obtain ⟨texts, listed, read⟩ := Filter.bind_eq_ok read
  cases read
  unfold Reader.list at listed
  split at listed
  · obtain ⟨values, items, listed⟩ := Filter.bind_eq_ok listed
    split at listed
    · next closed =>
        cases listed
        obtain rfl := Reader.mapM_text_eq_ok.mp items
        simp [closed, SortKey.toText_ofText, Function.comp_def]
    · cases listed
  · cases listed

/-- Queries that can be written and read back. -/
structure Stored (q : Query) : Prop where
  filter : ∀ f, q.filter = some f →
    f ≠ .null ∧ Fits (Json.depthLimit - 1) f ∧ Source.Held f.numbers
  sort : ∀ k ∈ q.sort, SortKey.ofText k.toText = k
  limit : ∀ n, q.limit = some n → n < Word64.count
  offset : ∀ n, q.offset = some n → n < Word64.count
  page : ∀ n, q.page = some n → n < Word64.count

/-- A query that is read is stored. -/
theorem stored_of_reader {x : Source} {q : Query} (held : Source.Held x.numbers)
    (read : shape.reader x = .ok q) : q.Stored := by
  obtain ⟨entry, gathered, finished⟩ := Json.Shape.gathered_of_reader read
  obtain ⟨filter, sort, limit, offset, page⟩ := keeps_fields
  cases finished
  have inside {key : String} {y : Source} (found : x.member? shape.keys key = some y) :
      Source.Held y.numbers := fun n mem => held n (Source.numbers_member? found mem)
  have count {key : String} {slot : Entry → Option (Option Nat)}
      (keeps : shape.Keeps key slot readCount) (n : Nat)
      (given : (slot entry).getD none = some n) : n < Word64.count := by
    obtain ⟨y, found, read⟩ := Reads.of_getD_eq_some (keeps.reads gathered) given
    exact stored_count (inside found) read
  refine ⟨fun f given => ?_, fun k mem => ?_, count limit, count offset, count page⟩
  · obtain ⟨y, found, read⟩ := Reads.of_getD_eq_some (filter.reads gathered) given
    exact stored_filter (inside found) read
  · have reads := sort.reads gathered
    generalize x.member? shape.keys "sort" = y at reads
    generalize entry.sort = given at reads mem
    cases reads with
    | absent => cases mem
    | present value => exact (stored_sort value).2 k mem

/-- The items that stand under the key of the sort keys are their texts. -/
theorem sort_of_reader {x y : Source} {q : Query} (read : shape.reader x = .ok q)
    (found : x.member? shape.keys "sort" = some y) :
    y = .array ((q.sort.map SortKey.toText).map fun s => .string (some s)) true := by
  obtain ⟨entry, gathered, finished⟩ := Json.Shape.gathered_of_reader read
  obtain ⟨-, sort, -⟩ := keeps_fields
  cases finished
  have reads := sort.reads gathered
  rw [found] at reads
  generalize entry.sort = given at reads
  cases reads with
  | present value => exact (stored_sort value).1

/-! ### Reading what is written -/

theorem readFilter_ofJson {filter : Option Json}
    (stored : ∀ f, filter = some f → f ≠ .null ∧ Fits (Json.depthLimit - 1) f) :
    readFilter (Source.ofJson (orNull id filter)) = .ok filter := by
  cases filter with
  | none => rfl
  | some f =>
      obtain ⟨other, fits⟩ := stored f rfl
      have apart : Source.ofJson f ≠ .null := by
        cases f with
        | null => exact absurd rfl other
        | _ => nofun
      rw [orNull, id, readFilter, Reader.optional_of_ne_null _ apart, Reader.document,
        Source.toJson?_ofJson f _ fits]
      rfl

theorem readText_ofJson (s : Option String) :
    Reader.optional Reader.text (Source.ofJson (orNull .string s)) = .ok s := by
  cases s <;> rfl

theorem readCount_ofJson (n : Option Nat) :
    readCount (Source.ofJson (orNull countToJson n)) = .ok n := by
  cases n with
  | none => rfl
  | some n =>
      have positive : ¬ (n : Int) < 0 := by omega
      simp [orNull, countToJson, Json.ofInt, Source.ofJson, readCount, Reader.optional,
        Reader.natural, positive, Except.map]

theorem ofItems_sort (keys : List SortKey) :
    Source.ofItems (keys.map fun k => .string k.toText) =
      (keys.map SortKey.toText).map fun s => .string (some s) := by
  rw [Source.ofItems_eq_map, List.map_map, List.map_map]
  rfl

theorem readSort_ofJson {keys : List SortKey}
    (stored : ∀ k ∈ keys, SortKey.ofText k.toText = k) :
    readSort (Source.ofJson (.array (keys.map fun k => .string k.toText))) = .ok keys := by
  have listed := Reader.mapM_text_eq_ok.mpr (ofItems_sort keys)
  have back : (keys.map SortKey.toText).map SortKey.ofText = keys := by
    rw [List.map_map]
    exact (List.map_congr_left stored).trans (List.map_id' keys)
  rw [readSort, Source.ofJson, Reader.list, listed]
  exact congrArg _ back

/-- A stored query is read from its document. -/
theorem Stored.reader_toJson {q : Query} (stored : q.Stored) :
    shape.reader (Source.ofJson q.toJson) = .ok q := by
  have filter := readFilter_ofJson fun f given =>
    ⟨(stored.filter f given).1, (stored.filter f given).2.1⟩
  have sort := readSort_ofJson stored.sort
  rw [Source.ofJson] at sort
  simp [toJson, Source.ofJson, Source.ofMembers, Shape.reader, Shape.gather, shape, filter, sort,
    readText_ofJson, readCount_ofJson, Reader.flag, bind, Except.bind, pure, Except.pure]

/-- The numbers of a stored query are read back if the binary64 numbers of its filter are. -/
theorem Stored.readsBack {q : Query} (stored : q.Stored)
    (floats : ∀ f, q.filter = some f → ∀ x, .floating x ∈ f.numbers →
      Number.ReadsBack (.floating x)) : ∀ n ∈ q.toJson.numbers, n.ReadsBack := by
  have count {m : Option Nat} (below : ∀ k, m = some k → k < Word64.count) :
      ∀ n ∈ (orNull countToJson m).numbers, n.ReadsBack := by
    cases m with
    | none => nofun
    | some k =>
        intro n mem
        obtain rfl := List.mem_singleton.mp mem
        have fits := below k rfl
        exact Number.Held.readsBack ⟨by omega, by omega⟩
  have filter : ∀ n ∈ (orNull id q.filter).numbers, n.ReadsBack := by
    cases given : q.filter with
    | none => nofun
    | some f =>
        intro n mem
        cases n with
        | integer n => exact ((stored.filter f given).2.2 n mem).readsBack
        | floating x => exact floats f given x mem
  have search : (orNull Json.string q.search).numbers = [] := by
    cases q.search <;> rfl
  have sort : Json.itemNumbers (q.sort.map fun k => .string k.toText) = [] := by
    induction q.sort with
    | nil => rfl
    | cons k keys ih => exact ih
  intro n mem
  simp only [toJson, Json.numbers, Json.memberNumbers, search, sort, List.nil_append,
    List.append_nil, List.mem_append] at mem
  rcases mem with mem | mem | mem | mem
  · exact filter n mem
  · exact count stored.limit n mem
  · exact count stored.offset n mem
  · exact count stored.page n mem

/-- A query that is read from a text is read back from what is written for it, if the binary64
numbers of its filter are. What is read back is written as the query is, and the texts that were
given to sort by stand in it as they were given. -/
theorem ofText_written {text : String} {q : Query} (read : ofText text = .ok q)
    (floats : ∀ f, q.filter = some f → ∀ x, .floating x ∈ f.numbers →
      Number.ReadsBack (.floating x)) :
    ofText q.toJson.compact = .ok q ∧
    (∀ q', ofText q.toJson.compact = .ok q' → q'.toJson.compact = q.toJson.compact) ∧
    (∀ x, (Source.ofText text).1.member? shape.keys "sort" = some x →
      (Source.ofText q.toJson.compact).1.member? shape.keys "sort" = some x) ∧
    ∀ s, (SortKey.ofText s).toText = s := by
  have made := Json.source_of_readText read
  have stored := stored_of_reader (Source.held_ofText text) made
  have readsBack := stored.readsBack floats
  have back : ofText q.toJson.compact = .ok q :=
    Json.readText_compact readsBack stored.reader_toJson
  refine ⟨back, fun q' read' => ?_, fun x found => ?_, SortKey.toText_ofText⟩
  · cases back.symm.trans read'
    rfl
  · rw [sort_of_reader made found, Source.ofText_compact readsBack, ← ofItems_sort]
    rfl

/-- A query given by an array that ends early, with a fraction and the greatest integer in its
filter, and with nothing but dashes to sort by. -/
theorem ofText_written_dashes :
    let text := "[\x7b\"price\":\x7b\"_in\":[1.5,18446744073709551615]\x7d\x7d,null,"
      ++ "[\"-\",\"\",\"--\"],7]"
    let operand : Json := .array [.number (.floating ⟨false, 4609434218613702656, by decide⟩),
      .ofInt 18446744073709551615]
    let q : Query :=
      { filter := some (.object [("price", .object [("_in", operand)])])
        sort := [⟨"", true⟩, ⟨"", false⟩, ⟨"-", true⟩]
        limit := some 7 }
    ofText text = .ok q ∧ ofText q.toJson.compact = .ok q := by
  intro text operand q
  have read : ofText text = .ok q := by decide +kernel
  refine ⟨read, (ofText_written read ?_).1⟩
  rintro f ⟨⟩ x mem
  have all : ∀ n ∈ operand.numbers, n.ReadsBack := by decide +kernel
  exact all _ mem

end Query

end FilterSql
