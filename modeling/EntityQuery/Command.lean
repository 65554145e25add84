import EntityQuery.Command.Arguments
import EntityQuery.Command.Environment
import EntityQuery.Definition.Mapping
import EntityQuery.Json.Printer
import EntityQuery.Json.Reader
import EntityQuery.Json.Sql
import EntityQuery.Yaml.Records

/-!
# The command

The command reads a definition and a statement, lowers the statement, and prints the result as
JSON. `Command.run` is the whole of it, given the files and the environment.
-/

set_option autoImplicit false

namespace EntityQuery

/-- The statement in a JSON text, where a list may stand for the fields of a variant. -/
def Statement.ofJson? (text : String) : Option Statement :=
  Json.parse? text >>= Statement.read? Document.slots

namespace Command

/-- What the command sees: files by their paths, and variables by their names. -/
structure World where
  file : String → Except FileError String
  env : Environment.Variables

/-- Why the command fails. -/
inductive Failure
  | settings (error : SettingsError)
  | metamodel (path : String) (error : MetamodelError)
  | unreadStatement (path : String) (error : FileError)
  | unparsedStatement
  | lowering (error : LoweringError)
deriving DecidableEq

/-- How the command ends. -/
inductive Outcome
  | success (output : String)
  | failure (failure : Failure)
  | usage
deriving DecidableEq

/-! ## Reports -/

namespace Failure

/-- What could not be done. -/
def summary : Failure → String
  | .settings _ => "Configuration error"
  | .metamodel path _ => s!"Failed to build metamodel from {path}"
  | .unreadStatement path _ => s!"Failed to read statement {path}"
  | .unparsedStatement => "Statement is not a valid SQM document"
  | .lowering error => error.message

/-- What it comes from, the nearest cause first. -/
def causes : Failure → List String
  | .settings error => error.causes
  | .metamodel _ error => [error.message]
  | .unreadStatement _ error => [error.message]
  | .unparsedStatement => ["the text is not a statement"]
  | .lowering _ => []

/-- Whether a text could not be read for what it should be. -/
def isUnparsed : Failure → Bool
  | .settings .unparsed => true
  | .metamodel _ (.unparsed _) => true
  | .unparsedStatement => true
  | _ => false

/-- A text whose further lines are moved to the right. -/
def hanging (indent : Nat) (text : String) : String :=
  String.ofList (text.toList.flatMap fun c =>
    if c = '\n' then c :: List.replicate indent ' ' else [c])

/-- Causes with their numbers. -/
def numbered (number : Nat) : List String → String
  | [] => ""
  | cause :: rest => s!"    {number}: {hanging 7 cause}\n" ++ numbered (number + 1) rest

/-- What the command prints when it fails. -/
def report (f : Failure) : String :=
  let head := s!"Error: {f.summary}\n"
  match f.causes with
  | [] => head
  | [cause] => s!"{head}\nCaused by:\n    {hanging 4 cause}\n"
  | causes => s!"{head}\nCaused by:\n{numbered 0 causes}"

end Failure

/-! ## What the command says about itself -/

/-- The line that names the version. -/
def version : String := "sqm-lower 0.1.0-dev\n"

/-- The lines that list the options. -/
def help : String := String.intercalate "\n"
  ["Lowers Semantic Query Model statements into a table-bound SQL AST",
   "",
   "Usage: sqm-lower [OPTIONS] --metamodel <METAMODEL> --statement <STATEMENT>",
   "",
   "Options:",
   "      --metamodel <METAMODEL>        Metamodel definition (YAML)",
   "      --statement <STATEMENT>        SQM statement (JSON)",
   "      --config <CONFIG>              Lowering configuration (YAML); the fields it sets " ++
     "override environment variables",
   "      --alias-prefix <ALIAS_PREFIX>  Prefix of generated alias bases",
   "      --compact                      Print compact instead of pretty JSON",
   "  -h, --help                         Print help",
   "  -V, --version                      Print version",
   ""]

/-! ## Running -/

/-- The settings in force. -/
def settings (world : World) (call : Invocation) : Except SettingsError Settings :=
  let environment := Settings.ofEnvironment (world.env "SQM_ALIAS_PREFIX")
    (world.env "SQM_EXPAND_ALL_SUBCLASS_TABLES")
  let file := call.config.map fun path =>
    match world.file path with
    | .ok text => Overrides.ofYaml text
    | .error error => .error (.unreadable error)
  Settings.load environment file ⟨call.aliasStem, none⟩

/-- The metamodel of the definition at a path. -/
def metamodel (world : World) (path : String) : Except MetamodelError Metamodel :=
  match world.file path with
  | .ok text => do (← Definition.ofYaml text).metamodel
  | .error error => .error (.unreadable error.message)

/-- The statement at a path. -/
def statement (world : World) (path : String) : Except Failure Statement :=
  match world.file path with
  | .error error => .error (.unreadStatement path error)
  | .ok text =>
    match Statement.ofJson? text with
    | some s => .ok s
    | none => .error .unparsedStatement

/-- The lowered statement that an invocation asks for. -/
def lowered (world : World) (call : Invocation) : Except Failure Lowered := do
  let settings ← (settings world call).mapError .settings
  let metamodel ← (metamodel world call.metamodel).mapError (.metamodel call.metamodel)
  let statement ← statement world call.statement
  (lowerWith settings metamodel statement).mapError .lowering

/-- The text that is printed for a lowered statement. -/
def output (compact : Bool) (l : Lowered) : String :=
  (if compact then Json.compact l.toDocument else Json.indented 0 l.toDocument) ++ "\n"

/-- The world with the variables of the environment file, if there is one. -/
def World.withEnvironmentFile (world : World) : World :=
  match world.file ".env" with
  | .ok text => { world with env := Environment.withFile world.env text }
  | .error _ => world

/-- The whole of the command. -/
def run (world : World) (arguments : List String) : Outcome :=
  match Invocation.ofArguments arguments with
  | .error .invalid => .usage
  | .error .help => .success help
  | .error .version => .success version
  | .ok call =>
    match lowered world.withEnvironmentFile call with
    | .ok l => .success (output call.compact l)
    | .error failure => .failure failure

end Command

end EntityQuery
