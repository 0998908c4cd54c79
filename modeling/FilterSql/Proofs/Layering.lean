import FilterSql.Proofs.Json.Record
import FilterSql.Settings.Load

/-!
Where each setting of a run comes from.

A settings file says something about a setting if it has a value under its key that is not null
(`Layer.ofMembers`), whatever it says about the other settings. Each setting has the first value
given by the command line, the file over the profile, and the profile, in this order, and the
default if none of them gives one; limits are not given on the command line. `Settings.load_layered`
says this, and that loading fails exactly if a file is there but cannot be used, a file that is
asked for is not there, or the limit that comes out is zero.
-/

namespace FilterSql

/-- The first value that is given, or the default. -/
def firstGiven {α : Type} : List (Option α) → α → α
  | [], default => default
  | some a :: _, _ => a
  | none :: rest, default => firstGiven rest default

theorem getD_orElse {α : Type} (a b c : Option α) (default : α) :
    (a <|> b <|> c).getD default = firstGiven [a, b, c] default := by
  cases a <;> cases b <;> cases c <;> rfl

/-! ### What a file says -/

namespace Layer

open Json (Reader Reads Source)

/-- What a value that may be left out or null says. -/
def said {α : Type} (read : Reader α) (x : Option Source) : Option α :=
  (x.bind fun value => (Reader.optional read value).toOption).join

theorem said_eq {α : Type} {read : Reader α} {x : Option Source} {given : Option (Option α)}
    (reads : Reads (Reader.optional read) x given) : given.getD none = said read x := by
  cases reads with
  | absent => rfl
  | present value => simp [said, value, Except.toOption]

/-- What a filter section says, key by key. -/
def ofSection (filters : Option Source) : Layer :=
  let given (key : String) : Option Source := filters.bind (·.member? filterShape.keys key)
  { strictPaths := said Reader.flag (given "strict_paths")
    aliases := said (Reader.choice AliasStrategy.named) (given "aliases")
    maxDepth := said (Reader.natural "usize") (given "max_depth")
    maxBytes := said (Reader.natural "usize") (given "max_bytes") }

/-- What a settings file says, key by key. -/
def ofMembers (file : Source) : Layer :=
  { ofSection (file.member? fileShape.keys "filters") with
    dialect := said (Reader.choice Dialect.named) (file.member? fileShape.keys "dialect") }

theorem keeps_dialect :
    fileShape.Keeps "dialect" (·.dialect) (Reader.optional (Reader.choice Dialect.named)) :=
  .of_fields [] rfl rfl (by decide) rfl (Json.Field.fills fun _ _ => rfl) <| by
    simp only [List.nil_append, List.forall_mem_cons]
    exact ⟨Json.Field.leaves fun _ _ => rfl, nofun⟩

theorem keeps_filters :
    fileShape.Keeps "filters" (·.filters) (Reader.optional filterShape.reader) :=
  .of_fields [_] rfl rfl (by decide) rfl (Json.Field.fills fun _ _ => rfl) <| by
    simp only [List.append_nil, List.forall_mem_cons]
    exact ⟨Json.Field.leaves fun _ _ => rfl, nofun⟩

/-- The fields of the filter section are read one by one into slots of their own. -/
theorem keeps_section :
    filterShape.Keeps "strict_paths" (·.strictPaths) (Reader.optional Reader.flag) ∧
    filterShape.Keeps "aliases" (·.aliases)
      (Reader.optional (Reader.choice AliasStrategy.named)) ∧
    filterShape.Keeps "max_depth" (·.maxDepth) readLimit ∧
    filterShape.Keeps "max_bytes" (·.maxBytes) readLimit := by
  refine ⟨.of_fields [] rfl rfl (by decide) rfl (Json.Field.fills fun _ _ => rfl) ?_,
    .of_fields [_] rfl rfl (by decide) rfl (Json.Field.fills fun _ _ => rfl) ?_,
    .of_fields [_, _] rfl rfl (by decide) rfl (Json.Field.fills fun _ _ => rfl) ?_,
    .of_fields [_, _, _] rfl rfl (by decide) rfl (Json.Field.fills fun _ _ => rfl) ?_⟩
  all_goals
    simp only [List.nil_append, List.cons_append, List.append_nil, List.forall_mem_cons]
    exact ⟨Json.Field.leaves fun _ _ => rfl, Json.Field.leaves fun _ _ => rfl,
      Json.Field.leaves fun _ _ => rfl, nofun⟩

/-- A filter section that can be read says what its members say. -/
theorem eq_ofSection {x : Source} {layer : Layer} (read : filterShape.reader x = .ok layer) :
    layer = ofSection (some x) := by
  obtain ⟨entry, gathered, finished⟩ := Json.Shape.gathered_of_reader read
  obtain ⟨strict, aliases, depth, bytes⟩ := keeps_section
  cases finished
  simp only [ofSection, Option.bind_some, ← said_eq (strict.reads gathered),
    ← said_eq (aliases.reads gathered), ← said_eq (depth.reads gathered),
    ← said_eq (bytes.reads gathered)]

/-- A settings file that can be read says what its members say. -/
theorem eq_ofMembers {file : Source} {layer : Layer} (read : fileShape.reader file = .ok layer) :
    layer = ofMembers file := by
  obtain ⟨entry, gathered, finished⟩ := Json.Shape.gathered_of_reader read
  have filters : (entry.filters.getD none).getD empty =
      ofSection (file.member? fileShape.keys "filters") := by
    have reads := keeps_filters.reads gathered
    generalize file.member? fileShape.keys "filters" = x at reads ⊢
    generalize entry.filters = v at reads ⊢
    cases reads with
    | absent => rfl
    | @present x v value =>
        rcases Reader.optional_eq_ok value with ⟨rfl, rfl⟩ | ⟨layer, made, rfl⟩
        · rfl
        · exact eq_ofSection made
  cases finished
  rw [ofMembers, filters, said_eq (keeps_dialect.reads gathered)]

/-- The text of a settings file that can be read says what its members say. -/
theorem eq_of_ofText {text : String} {layer : Layer} (read : ofText text = .ok layer) :
    layer = ofMembers (Source.ofText text).1 := by
  rw [ofText, Json.readText] at read
  generalize Source.ofText text = parsed at read ⊢
  obtain ⟨file, complete⟩ := parsed
  obtain ⟨layer', value, closed⟩ := Filter.bind_eq_ok read
  cases complete with
  | true => cases closed; exact eq_ofMembers value
  | false => cases closed

end Layer

/-! ### What is loaded -/

namespace Settings

/-- What is said at a path: nothing if there is no file, and what the members of the file say if it
can be read. -/
inductive Says (files : Files) (path : String) : Layer → Prop where
  | absent (missing : files.has path = false) : Says files path .empty
  | present {text : String} {layer : Layer} (found : files path = .ok text)
      (parsed : Layer.ofText text = .ok layer) :
      Says files path (.ofMembers (Json.Source.ofText text).1)

/-- A file that is there cannot be read as a text, or its text not as settings. -/
inductive Unusable (files : Files) (path : String) : Prop where
  | unreadable {fault : FileFault} (there : fault.isPresent) (failed : files path = .error fault)
  | unparsable {text : String} {fault : Json.Fault} (found : files path = .ok text)
      (failed : Layer.ofText text = .error fault)

/-- The path of the file over the profile: the one that is asked for, or else the local one. -/
def overlayPath (place : Surroundings) (file : Option String) : String :=
  place.expand (file.getD fileName)

/-- The file that is asked for is not there. -/
def Lacks (place : Surroundings) (file : Option String) : Prop :=
  file.isSome ∧ place.files.has (overlayPath place file) = false

/-- Each setting has the first value given by the command line, the file over the profile and the
profile, and the default if none is given. Limits are not given on the command line. -/
structure Layered (line overlay profile : Layer) (settings : Settings) : Prop where
  dialect : settings.dialect =
    firstGiven [line.dialect, overlay.dialect, profile.dialect] .standard
  unresolvedPaths : settings.options.unresolvedPaths =
    .ofStrict (firstGiven [line.strictPaths, overlay.strictPaths, profile.strictPaths] false)
  aliases : settings.options.aliases =
    firstGiven [line.aliases, overlay.aliases, profile.aliases] .sequential
  maxDepth : settings.options.maxDepth = firstGiven [overlay.maxDepth, profile.maxDepth] 32
  maxBytes : settings.options.maxBytes = firstGiven [overlay.maxBytes, profile.maxBytes] 65536

/-- Settling layers takes each setting from the first of them that gives it. -/
theorem layered_settle (line : Layer) (noDepth : line.maxDepth = none)
    (noBytes : line.maxBytes = none) (overlay profile : Layer) :
    Layered line overlay profile (line.overlay (overlay.overlay profile)).settle where
  dialect := getD_orElse _ _ _ _
  unresolvedPaths :=
    (Option.getD_map PathPolicy.ofStrict false _).trans (congrArg _ (getD_orElse _ _ _ _))
  aliases := getD_orElse _ _ _ _
  maxDepth := (getD_orElse line.maxDepth _ _ _).trans (by rw [noDepth]; rfl)
  maxBytes := (getD_orElse line.maxBytes _ _ _).trans (by rw [noBytes]; rfl)

theorem Says.unique {files : Files} {path : String} {a b : Layer} (first : Says files path a)
    (second : Says files path b) : a = b := by
  cases first with
  | absent missing =>
      cases second with
      | absent => rfl
      | present found => simp [Files.has, found] at missing
  | present found =>
      cases second with
      | absent missing => simp [Files.has, found] at missing
      | present again => cases found.symm.trans again; rfl

theorem Says.not_unusable {files : Files} {path : String} {layer : Layer}
    (told : Says files path layer) : ¬ Unusable files path := by
  rintro (@⟨fault, there, failed⟩ | ⟨found, failed⟩)
  · cases told with
    | absent missing => simp [Files.has, failed, there] at missing
    | present found => cases failed.symm.trans found
  · cases told with
    | absent missing => simp [Files.has, found] at missing
    | present again parsed => cases found.symm.trans again; cases failed.symm.trans parsed

/-- A file that is there is read or unusable. -/
theorem readLayer_outcome (place : Surroundings) (shown : String) {path : String}
    (there : place.files.has path = true) :
    (∃ layer, readLayer place shown path = .ok layer ∧ Says place.files path layer) ∨
      ∃ e, readLayer place shown path = .error e ∧ Unusable place.files path := by
  rw [readLayer]
  cases found : place.files path with
  | error fault => exact .inr ⟨_, rfl, .unreadable (by simpa [Files.has, found] using there) found⟩
  | ok text =>
      cases parsed : Layer.ofText text with
      | ok layer =>
          refine .inl ⟨layer, by simp [parsed], ?_⟩
          rw [Layer.eq_of_ofText parsed]
          exact .present found parsed
      | error fault => exact .inr ⟨_, by simp [parsed]; rfl, .unparsable found parsed⟩

/-- A file that may be missing is missing, read or unusable. -/
theorem readLayerIfPresent_outcome (place : Surroundings) (shown path : String) :
    (∃ layer, readLayerIfPresent place shown path = .ok layer ∧ Says place.files path layer) ∨
      ∃ e, readLayerIfPresent place shown path = .error e ∧ Unusable place.files path := by
  rw [readLayerIfPresent]
  split
  · next there => exact readLayer_outcome place shown there
  · next missing => exact .inl ⟨_, rfl, .absent (by simpa using missing)⟩

/-- The file over the profile is read, unless it is asked for and not there or it is unusable. -/
theorem fileLayer_outcome (place : Surroundings) (file : Option String) :
    (∃ layer, fileLayer place file = .ok layer ∧ Says place.files (overlayPath place file) layer ∧
        ¬ Lacks place file) ∨
      ∃ e, fileLayer place file = .error e ∧
        (Lacks place file ∨ Unusable place.files (overlayPath place file)) := by
  cases file with
  | none =>
      rcases readLayerIfPresent_outcome place fileName (place.expand fileName) with
        ⟨layer, made, told⟩ | ⟨e, made, unusable⟩
      · exact .inl ⟨layer, made, told, fun ⟨asked, _⟩ => nomatch asked⟩
      · exact .inr ⟨e, made, .inr unusable⟩
  | some path =>
      rw [fileLayer]
      cases there : place.files.has (place.expand path) with
      | true =>
          rw [if_pos rfl]
          rcases readLayer_outcome place (place.expand path) there with
            ⟨layer, made, told⟩ | ⟨e, made, unusable⟩
          · exact .inl ⟨layer, made, told, fun ⟨_, missing⟩ => nomatch missing.symm.trans there⟩
          · exact .inr ⟨e, made, .inr unusable⟩
      | false => exact .inr ⟨_, rfl, .inl ⟨rfl, there⟩⟩

/-- Settings are valid unless a limit is zero. -/
theorem validate_outcome (settings : Settings) :
    (validate settings = .ok settings ∧
        ¬ (settings.options.maxDepth = 0 ∨ settings.options.maxBytes = 0)) ∨
      ∃ e, validate settings = .error e ∧
        (settings.options.maxDepth = 0 ∨ settings.options.maxBytes = 0) := by
  rw [validate]
  by_cases depth : settings.options.maxDepth = 0
  · exact .inr ⟨_, if_pos depth, .inl depth⟩
  · by_cases bytes : settings.options.maxBytes = 0
    · exact .inr ⟨_, by rw [if_neg depth, if_pos bytes], .inr bytes⟩
    · exact .inl ⟨by rw [if_neg depth, if_neg bytes], by simp [depth, bytes]⟩

/-- The settings that are loaded have each field from the first that gives it, whatever is given for
the other fields, and loading fails exactly if a file that is there is unusable, the file that is
asked for is not there, or a limit that comes out is zero. -/
theorem load_layered (place : Surroundings) (file : Option String) (dialect : Option Dialect)
    (strictPaths : Option Bool) (aliases : Option AliasStrategy) :
    (∀ settings, load place ⟨file, { dialect, strictPaths, aliases }⟩ = .ok settings →
      ∃ profile overlay, Says place.files (profilePath place) profile ∧
        Says place.files (overlayPath place file) overlay ∧
        Layered { dialect, strictPaths, aliases } overlay profile settings) ∧
    ((∃ e, load place ⟨file, { dialect, strictPaths, aliases }⟩ = .error e) ↔
      Unusable place.files (profilePath place) ∨ Lacks place file ∨
        Unusable place.files (overlayPath place file) ∨
        ∃ profile overlay, Says place.files (profilePath place) profile ∧
          Says place.files (overlayPath place file) overlay ∧
          (firstGiven [overlay.maxDepth, profile.maxDepth] 32 = 0 ∨
            firstGiven [overlay.maxBytes, profile.maxBytes] 65536 = 0)) := by
  rw [load]
  rcases readLayerIfPresent_outcome place (profilePath place) (profilePath place) with
    ⟨profile, made, below⟩ | ⟨e, made, unusable⟩
  · rw [profileLayer, made]
    rcases fileLayer_outcome place file with ⟨overlay, made, above, present⟩ | ⟨e, made, failed⟩
    · rw [made]
      have layered := layered_settle { dialect, strictPaths, aliases } rfl rfl overlay profile
      rcases validate_outcome (Layer.settle (.overlay { dialect, strictPaths, aliases }
        (overlay.overlay profile))) with ⟨valid, positive⟩ | ⟨e, invalid, zero⟩
      · rw [layered.maxDepth, layered.maxBytes] at positive
        refine ⟨fun settings made => ?_, fun ⟨e, failed⟩ => ?_, ?_⟩
        · cases valid.symm.trans made
          exact ⟨profile, overlay, below, above, layered⟩
        · cases valid.symm.trans failed
        · rintro (unusable | lacks | unusable | ⟨profile', overlay', below', above', zero⟩)
          · exact absurd unusable below.not_unusable
          · exact absurd lacks present
          · exact absurd unusable above.not_unusable
          · rw [below'.unique below, above'.unique above] at zero
            exact absurd zero positive
      · rw [layered.maxDepth, layered.maxBytes] at zero
        refine ⟨fun settings made => ?_, fun _ => ?_, fun _ => ⟨e, invalid⟩⟩
        · cases invalid.symm.trans made
        · exact .inr (.inr (.inr ⟨profile, overlay, below, above, zero⟩))
    · rw [made]
      refine ⟨nofun, fun _ => ?_, fun _ => ⟨e, rfl⟩⟩
      exact failed.elim (.inr ∘ .inl) (.inr ∘ .inr ∘ .inl)
  · rw [profileLayer, made]
    exact ⟨nofun, fun _ => .inl unusable, fun _ => ⟨e, rfl⟩⟩

/-- Work in a directory below the home directory, with these files. -/
def atWork (texts : List (String × String)) : Surroundings :=
  ⟨"/home/me", "/home/me/work", (FileTree.ofPaths texts []).read⟩

/-- A settings file that asks for strict paths in DuckDB and for no depth. -/
def duckdbWithoutDepth : String :=
  "\x7b\"dialect\": \"duckdb\", \"filters\": \x7b\"strict_paths\": true, \"max_depth\": 0\x7d\x7d"

/-- A settings file that gives a depth. -/
def depthOfEight : String := "\x7b\"filters\": \x7b\"max_depth\": 8, \"aliases\": null\x7d\x7d"

/-- A profile without a depth is of use under a file that gives one, and a file that is asked for
and not there is refused. -/
theorem load_layered_under_local :
    (∃ settings profile overlay,
      load (atWork [("/home/me/.sift/sift.json", duckdbWithoutDepth),
        ("/home/me/work/sift.json", depthOfEight)]) ⟨none, { aliases := some .random }⟩ =
          .ok settings ∧
      settings = ⟨.duckdb, { unresolvedPaths := .reject, aliases := .random, maxDepth := 8 }⟩ ∧
      Layered { aliases := some .random } overlay profile settings) ∧
    ∃ e, load (atWork [("/home/me/.sift/sift.json", depthOfEight)])
      ⟨some "~/work/sift.json", {}⟩ = .error e := by
  let place := atWork [("/home/me/.sift/sift.json", duckdbWithoutDepth),
    ("/home/me/work/sift.json", depthOfEight)]
  have outcome : (load place ⟨none, { aliases := some .random }⟩).toOption =
      some ⟨.duckdb, { unresolvedPaths := .reject, aliases := .random, maxDepth := 8 }⟩ := by
    decide +kernel
  refine ⟨?_, (load_layered _ (some "~/work/sift.json") none none none).2.mpr
    (.inr (.inl ⟨rfl, by decide +kernel⟩))⟩
  cases made : load place ⟨none, { aliases := some .random }⟩ with
  | error e => simp [made, Except.toOption] at outcome
  | ok settings =>
      obtain ⟨profile, overlay, -, -, layered⟩ :=
        (load_layered place none none none (some .random)).1 settings made
      exact ⟨settings, profile, overlay, rfl, by simpa [made, Except.toOption] using outcome,
        layered⟩

end Settings

end FilterSql
