import FilterSql.Text.Blank
import FilterSql.Text.Split

/-!
Paths as text.

A path is absolute when it starts with a slash. A path that is put after another keeps its spelling:
dots and repeated slashes stay as they are. Expanding a path gives one that does not depend on the
directory it is read in, as long as the home directory and the working directory are absolute.
-/

namespace FilterSql

namespace Path

/-- Whether a path starts at the root. -/
def isAbsolute (path : String) : Bool := path.toList.head? == some '/'

/-- A path put after a base. An absolute path replaces the base, and a slash is written between the
two unless the base is empty or ends with one. -/
def append (base path : String) : String :=
  if isAbsolute path then path
  else if base.isEmpty || base.toList.getLast? == some '/' then base ++ path
  else base ++ "/" ++ path

/-- A path as it is meant by someone in a working directory: blanks around it are dropped, nothing
means the working directory, and a leading `~` that is a whole part means the home directory. -/
def expand (home workdir path : String) : String :=
  match Text.trim path.toList with
  | [] => workdir
  | ['~'] => append workdir home
  | '~' :: '/' :: rest => append workdir (append home (String.ofList rest))
  | cs => append workdir (String.ofList cs)

/-- The parts of a path without the empty ones. -/
def parts (path : String) : List String := (Text.split '/' path).filter (· ≠ "")

/-- An absolute path without dots, and those of the directories above it, the nearest first. -/
def ancestors (path : String) : List String :=
  let parts := parts path
  (List.range (parts.length + 1)).reverse.map fun n => "/" ++ Text.join "/" (parts.take n)

/-- Appending to an absolute path gives an absolute path. -/
theorem isAbsolute_append {base : String} (h : isAbsolute base = true) (path : String) :
    isAbsolute (append base path) = true := by
  have hb : base.toList.head? = some '/' := by simpa [isAbsolute] using h
  have key : ∀ s : String, isAbsolute (base ++ s) = true := fun s => by
    simp [isAbsolute, List.head?_append, hb]
  unfold append
  split
  · assumption
  · split
    · exact key path
    · rw [String.append_assoc]; exact key _

/-- An expanded path is absolute if the working directory is. -/
theorem isAbsolute_expand (home : String) {workdir : String} (h : isAbsolute workdir = true)
    (path : String) : isAbsolute (expand home workdir path) = true := by
  unfold expand
  split
  · exact h
  all_goals exact isAbsolute_append h _

end Path

end FilterSql
