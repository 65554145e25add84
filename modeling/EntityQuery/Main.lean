import EntityQuery.Command

/-!
# The command line

Reads the files and variables that the command may ask for, runs it, and prints what it answers.
-/

set_option autoImplicit false

namespace EntityQuery.Command

/-- The text of a file, or why it cannot be read. -/
def readFile (path : String) : IO (Except FileError String) := do
  try return .ok (← IO.FS.readFile path)
  catch
    | .permissionDenied .. => return .error .denied
    | .inappropriateType _ 20 _ => return .error .notDirectory
    | .inappropriateType .. => return .error .isDirectory
    | _ => return .error .missing

/-- The files at the given paths. -/
def readFiles (paths : List String) : IO (String → Except FileError String) := do
  let files ← paths.mapM fun path => do return (path, ← readFile path)
  return fun path => (files.lookup path).getD (.error .missing)

/-- The variables of the given names. -/
def readVariables (names : List String) : IO Environment.Variables := do
  let env ← names.mapM fun name => do return (name, ← IO.getEnv name)
  return fun name => (env.lookup name).join

/-- The paths that an invocation names. -/
def paths : Except Refusal Invocation → List String
  | .error _ => []
  | .ok call => call.config.toList ++ [call.metamodel, call.statement]

end EntityQuery.Command

open EntityQuery EntityQuery.Command in
def main (arguments : List String) : IO UInt32 := do
  let file ← readFiles (".env" :: paths (Invocation.ofArguments arguments))
  let names := Environment.references ((file ".env").toOption.getD "").toList
  let env ← readVariables ("SQM_ALIAS_PREFIX" :: "SQM_EXPAND_ALL_SUBCLASS_TABLES" :: names)
  match run ⟨file, env⟩ arguments with
  | .success output =>
    IO.print output
    return 0
  | .failure failure =>
    IO.eprint failure.report
    return 1
  | .usage =>
    IO.eprintln "error: the arguments could not be read"
    return 2
