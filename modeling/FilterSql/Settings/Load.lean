import FilterSql.Files.Path
import FilterSql.Files.Tree
import FilterSql.Settings.Layer

/-!
Loading the settings of a run.

The lowest layer is the profile, a file in the home directory, and over it lies one more file: the one
that is asked for, which must be there, or else the local one if there is one. The highest layer is
what the command line says. Files that are there must be readable, and no limit may be zero once all
layers are in place.
-/

namespace FilterSql

/-- Where a run takes place: its home directory, its working directory and what files there are. -/
structure Surroundings where
  home : String
  workdir : String
  files : Files

namespace Surroundings

/-- A path as it is meant here. -/
def expand (place : Surroundings) (path : String) : String :=
  Path.expand place.home place.workdir path

end Surroundings

/-- The limits that may not be zero. -/
inductive Limit where
  | maxDepth
  | maxBytes
  deriving DecidableEq, Repr

/-- The name of a limit in a settings file. -/
def Limit.name : Limit → String
  | .maxDepth => "max_depth"
  | .maxBytes => "max_bytes"

/-- Why there are no settings. -/
inductive SettingsError where
  | notFound (path : String)
  | unreadable (path : String) (fault : FileFault)
  | invalid (path : String) (fault : Json.Fault)
  | zero (limit : Limit)
  deriving DecidableEq, Repr

/-- The wording of an error. -/
def SettingsError.message : SettingsError → String
  | .notFound path => "Config file not found: " ++ path
  | .unreadable path fault => "Failed to read config file: " ++ path ++ ": " ++ fault.message
  | .invalid path fault => "Failed to parse config file: " ++ path ++ ": " ++ fault.message
  | .zero limit => "Configuration error: filters." ++ limit.name ++ " must be greater than 0"

/-- What the command line says about the settings: a settings file, and a layer of its own. -/
structure Overrides where
  file : Option String := none
  layer : Layer := .empty
  deriving DecidableEq, Repr, Inhabited

namespace Settings

/-- The name of settings files. -/
def fileName : String := "sift.json"

/-- The directory of the profile in the home directory. -/
def profileFolder : String := ".sift"

/-- The path of the profile. -/
def profilePath (place : Surroundings) : String :=
  Path.append (Path.append place.home profileFolder) fileName

/-- The layer of the file at a path; `shown` is the path in messages. -/
def readLayer (place : Surroundings) (shown path : String) : Except SettingsError Layer :=
  match place.files path with
  | .error fault => .error (.unreadable shown fault)
  | .ok text =>
    match Layer.ofText text with
    | .ok layer => .ok layer
    | .error fault => .error (.invalid shown fault)

/-- The layer of a file that may be missing. -/
def readLayerIfPresent (place : Surroundings) (shown path : String) :
    Except SettingsError Layer :=
  if place.files.has path then readLayer place shown path else .ok .empty

/-- The lowest layer. -/
def profileLayer (place : Surroundings) : Except SettingsError Layer :=
  readLayerIfPresent place (profilePath place) (profilePath place)

/-- The layer over the profile: the file that is asked for, or else the local one. -/
def fileLayer (place : Surroundings) : Option String → Except SettingsError Layer
  | some path =>
    let path := place.expand path
    if place.files.has path then readLayer place path path else .error (.notFound path)
  | none => readLayerIfPresent place fileName (place.expand fileName)

/-- Settings without a limit that is zero. -/
def validate (settings : Settings) : Except SettingsError Settings :=
  if settings.options.maxDepth = 0 then .error (.zero .maxDepth)
  else if settings.options.maxBytes = 0 then .error (.zero .maxBytes)
  else .ok settings

/-- The settings of a run. -/
def load (place : Surroundings) (overrides : Overrides) : Except SettingsError Settings := do
  let profile ← profileLayer place
  let file ← fileLayer place overrides.file
  validate (overrides.layer.overlay (file.overlay profile)).settle

end Settings

end FilterSql
