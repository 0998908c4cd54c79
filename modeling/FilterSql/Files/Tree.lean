import FilterSql.Files.Path

/-!
Files held in memory, and what reading a path gives.

A path is followed part by part from the root. Empty parts and `.` stay where they are, `..` goes to
the directory above, and a part can only be looked for in a directory, so that a path that goes on
after a file leads nowhere.
-/

namespace FilterSql

/-- Why a path cannot be read as a text. -/
inductive FileFault where
  | missing
  | notADirectory
  | isADirectory
  | denied
  | notText
  deriving DecidableEq, Repr

namespace FileFault

/-- The wording of a fault. -/
def message : FileFault → String
  | missing => "No such file or directory (os error 2)"
  | notADirectory => "Not a directory (os error 20)"
  | isADirectory => "Is a directory (os error 21)"
  | denied => "Permission denied (os error 13)"
  | notText => "stream did not contain valid UTF-8"

/-- Whether there is something at the path that could not be read. -/
def isPresent : FileFault → Bool
  | missing | notADirectory => false
  | isADirectory | denied | notText => true

end FileFault

/-- What reading each path gives. -/
abbrev Files := String → Except FileFault String

/-- Whether there is something at a path. -/
def Files.has (files : Files) (path : String) : Bool :=
  match files path with
  | .ok _ => true
  | .error fault => fault.isPresent

/-- What stands at a place. -/
inductive FileNode where
  | file (text : String)
  | directory
  deriving DecidableEq, Repr

/-- Files by place, a place being the list of parts from the root, and directories that are there
even when they are empty. Directories with something in them need not be listed. -/
structure FileTree where
  files : List (List String × String)
  directories : List (List String)
  deriving DecidableEq, Repr

namespace FileTree

/-- The tree of files and directories given by plain paths. -/
def ofPaths (files : List (String × String)) (directories : List String) : FileTree where
  files := files.map fun (path, text) => (Path.parts path, text)
  directories := directories.map Path.parts

/-- Whether a place is a directory: the root, or on the way to a file or to a listed directory. -/
def isDirectory (tree : FileTree) (place : List String) : Bool :=
  place.isEmpty || tree.directories.any (place.isPrefixOf ·)
    || tree.files.any fun (file, _) => place.isPrefixOf file && place ≠ file

/-- What stands at a place. -/
def node? (tree : FileTree) (place : List String) : Option FileNode :=
  match tree.files.lookup place with
  | some text => some (.file text)
  | none => if tree.isDirectory place then some .directory else none

/-- The place that parts lead to from another place. -/
def follow (tree : FileTree) (here : List String) : List String → Except FileFault (List String)
  | [] => .ok here
  | part :: rest =>
    match tree.node? here with
    | none => .error .missing
    | some (.file _) => .error .notADirectory
    | some .directory =>
      if part = "" ∨ part = "." then tree.follow here rest
      else if part = ".." then tree.follow here.dropLast rest
      else tree.follow (here ++ [part]) rest

/-- What reading a path gives. -/
def read (tree : FileTree) : Files := fun path => do
  let place ← tree.follow [] (Text.split '/' path)
  match tree.node? place with
  | some (.file text) => .ok text
  | some .directory => .error .isADirectory
  | none => .error .missing

end FileTree

end FilterSql
