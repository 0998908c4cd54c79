import FilterSql.Json.Decode
import FilterSql.Options
import FilterSql.Sql.Dialect

/-!
Settings in layers.

A layer says something about some of the settings. Layers are put over each other field by field, so
that each setting has the value of the highest layer that says something about it, and settling a
layer fills in what no layer says.
-/

namespace FilterSql

/-- The settings of a run. -/
structure Settings where
  dialect : Dialect
  options : CompileOptions
  deriving DecidableEq, Repr

/-- What one source says about the settings. -/
structure Layer where
  dialect : Option Dialect := none
  strictPaths : Option Bool := none
  aliases : Option AliasStrategy := none
  maxDepth : Option Nat := none
  maxBytes : Option Nat := none
  deriving DecidableEq, Repr, Inhabited

namespace Layer

/-- The layer that says nothing. -/
def empty : Layer := {}

/-- A layer put over another: where it says nothing the other one is seen. -/
def overlay (upper lower : Layer) : Layer where
  dialect := upper.dialect <|> lower.dialect
  strictPaths := upper.strictPaths <|> lower.strictPaths
  aliases := upper.aliases <|> lower.aliases
  maxDepth := upper.maxDepth <|> lower.maxDepth
  maxBytes := upper.maxBytes <|> lower.maxBytes

/-- The settings of a layer with nothing below it but the defaults. -/
def settle (layer : Layer) : Settings :=
  let defaults : CompileOptions := {}
  { dialect := layer.dialect.getD .standard
    options :=
      { unresolvedPaths := (layer.strictPaths.map PathPolicy.ofStrict).getD defaults.unresolvedPaths
        aliases := layer.aliases.getD defaults.aliases
        maxDepth := layer.maxDepth.getD defaults.maxDepth
        maxBytes := layer.maxBytes.getD defaults.maxBytes } }

@[simp] theorem overlay_empty (layer : Layer) : layer.overlay empty = layer := by
  cases layer; simp [overlay, empty]

@[simp] theorem empty_overlay (layer : Layer) : empty.overlay layer = layer := by
  cases layer; simp [overlay, empty]

theorem overlay_assoc (a b c : Layer) : (a.overlay b).overlay c = a.overlay (b.overlay c) := by
  simp [overlay, Option.orElse_eq_orElse, Option.or_assoc]

/-! ### Settings files -/

open Json (Shape Reader)

/-- The filter section of a settings file; each field tells whether it was given. -/
structure FilterSection where
  strictPaths : Option (Option Bool)
  aliases : Option (Option AliasStrategy)
  maxDepth : Option (Option Nat)
  maxBytes : Option (Option Nat)

/-- A limit that may be null. -/
def readLimit : Reader (Option Nat) := Reader.optional (Reader.natural "usize")

/-- How the filter section is read. As an array it has all of its fields. -/
def filterShape : Shape FilterSection Layer where
  name := "struct FiltersFileConfig"
  fields :=
    [ ⟨"strict_paths", true, (·.strictPaths.isSome),
        fun s x => do return { s with strictPaths := some (← Reader.optional Reader.flag x) }⟩,
      ⟨"aliases", true, (·.aliases.isSome),
        fun s x => do
          return { s with
            aliases := some (← Reader.optional (Reader.choice AliasStrategy.named) x) }⟩,
      ⟨"max_depth", true, (·.maxDepth.isSome),
        fun s x => do return { s with maxDepth := some (← readLimit x) }⟩,
      ⟨"max_bytes", true, (·.maxBytes.isSome),
        fun s x => do return { s with maxBytes := some (← readLimit x) }⟩ ]
  start := ⟨none, none, none, none⟩
  finish := fun s => .ok
    { strictPaths := s.strictPaths.getD none
      aliases := s.aliases.getD none
      maxDepth := s.maxDepth.getD none
      maxBytes := s.maxBytes.getD none }
  positional := true
  passes := Json.Source.isWellFormed

/-- A settings file that is being read; each field tells whether it was given. -/
structure FileEntry where
  dialect : Option (Option Dialect)
  filters : Option (Option Layer)

/-- How a settings file is read. It is an object, and what it holds under unknown keys is read like
any document, one level inside it. -/
def fileShape : Shape FileEntry Layer where
  name := "struct FileConfig"
  fields :=
    [ ⟨"dialect", false, (·.dialect.isSome),
        fun f x => do
          return { f with dialect := some (← Reader.optional (Reader.choice Dialect.named) x) }⟩,
      ⟨"filters", false, (·.filters.isSome),
        fun f x => do
          return { f with filters := some (← Reader.optional filterShape.reader x) }⟩ ]
  start := ⟨none, none⟩
  finish := fun f => .ok { (f.filters.getD none).getD empty with dialect := f.dialect.getD none }
  positional := false
  passes := fun x => (x.toJson? (Json.depthLimit - 1)).isSome

/-- The layer of a settings file. -/
def ofText (text : String) : Except Json.Fault Layer := Json.readText fileShape.reader text

end Layer

end FilterSql
