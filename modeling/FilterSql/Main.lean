import FilterSql.CommandLine.Run

/-!
The program: it takes its surroundings, environment and standard input from the system, runs the
command line on them, prints what comes of it and exits with its status.

Files are read before the run, which sees each as it was then, and the standard input is read only by
a run that asks for it.
-/

namespace FilterSql

namespace Main

/-- What reading a path gives. -/
def readPath (path : String) : IO (Except FileFault String) := do
  try
    let bytes ← IO.FS.readBinFile path
    return match String.fromUTF8? bytes with
      | some text => .ok text
      | none => .error .notText
  catch e =>
    return .error <| match e with
      | .permissionDenied .. => .denied
      | .inappropriateType none .. => .isADirectory
      | .inappropriateType (some _) .. => .notADirectory
      | _ => .missing

/-- The files at given paths as they are now. -/
def snapshot (paths : List String) : IO Files := do
  let contents ← paths.mapM fun path => return (path, ← readPath path)
  return fun path => (contents.lookup path).getD (.error .missing)

/-- The environment of the process. -/
def environment : IO Environment := do
  let listed := match ← readPath "/proc/self/environ" with
    | .ok text => Text.split '\x00' text
    | .error _ => []
  return listed.filterMap fun pair =>
    match Text.split '=' pair with
    | name :: value :: more => some (name, Text.join "=" (value :: more))
    | _ => none

end Main

end FilterSql

open FilterSql in
/-- Runs the program. -/
def main (arguments : List String) : IO UInt32 := do
  let env ← Main.environment
  let workdir := toString (← IO.currentDir)
  let home := (env.get? "HOME").getD workdir
  let nearby := (Path.ancestors workdir).map (Path.append · Environment.fileName)
  let nearbyFiles ← Main.snapshot nearby
  let invocation? := (Arguments.read (env.addFile nearbyFiles workdir) arguments).toOption
  let asked := (invocation?.map (Run.paths ⟨home, workdir, nearbyFiles⟩)).getD []
  let files ← Main.snapshot (nearby ++ asked)
  let input ← if invocation?.any Run.readsInput then (← IO.getStdin).readToEnd else pure ""
  let seed ← IO.rand 0 Word64.signedLimit
  let draws (n : Nat) : Nat := (stdNext (mkStdGen (seed + n))).1
  let outcome := run ⟨home, workdir, files⟩ env input draws arguments
  IO.print outcome.output
  if let some error := outcome.error then
    IO.eprintln ("\nError: " ++ error ++ "\n")
  return outcome.status.toUInt32
