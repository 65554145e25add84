import EntityQuery.Files

/-!
# Settings of the lowering

The stem of generated alias bases, and whether all tables of an inheritance hierarchy are joined.
Settings come from defaults, the environment, a file and the command line; the later ones win.
`Settings.validate` says which settings can be used.
-/

set_option autoImplicit false

namespace EntityQuery

structure Settings where
  aliasStem : String
  expandSubclassTables : Bool
deriving DecidableEq

/-- The settings that one source gives; the others stay as they are. -/
structure Overrides where
  aliasStem : Option String
  expandSubclassTables : Option Bool
deriving DecidableEq

/-- A setting that cannot be used. -/
inductive SettingFault
  | aliasStem
  | expansion
deriving DecidableEq

inductive SettingsError
  | unreadable (error : FileError)
  | unparsed
  | notTruth (value : String)
  | invalid (faults : List SettingFault)
deriving DecidableEq

namespace SettingFault

def message : SettingFault → String
  | .aliasStem =>
    "alias_prefix: Alias prefix must be 1-8 ASCII alphanumerics starting with a letter"
  | .expansion =>
    "expand_all_subclass_tables: Need-based subclass table inclusion is not supported"

/-- The faults, one a line. -/
def messages (faults : List SettingFault) : String :=
  String.intercalate "\n" (faults.map message)

end SettingFault

namespace SettingsError

def message : SettingsError → String
  | .unreadable error => s!"Parse error for yaml_file: file read failed - {error.message}"
  | .unparsed => "Parse error for yaml_content"
  | .notTruth value =>
    s!"Parse error for SQM_EXPAND_ALL_SUBCLASS_TABLES: {value} - provided string was not `true` or `false`"
  | .invalid faults => s!"Validation error: {SettingFault.messages faults}"

/-- The error with what it comes from. -/
def causes (e : SettingsError) : List String :=
  e.message :: match e with
    | .unreadable error => [error.message]
    | .unparsed => []
    | .notTruth _ => ["provided string was not `true` or `false`"]
    | .invalid faults => [SettingFault.messages faults]

end SettingsError

namespace Settings

def default : Settings := ⟨"j", true⟩

/-- Whether a stem is one to eight ASCII letters and digits, a letter first. -/
def isStem (stem : String) : Bool :=
  match stem.toList with
  | [] => false
  | c :: cs => c.isAlpha && cs.all Char.isAlphanum && cs.length ≤ 7

/-- The settings that cannot be used. -/
def faults (s : Settings) : List SettingFault :=
  (if isStem s.aliasStem then [] else [.aliasStem]) ++
  (if s.expandSubclassTables then [] else [.expansion])

/-- The settings, if they can be used. -/
def validate (s : Settings) : Except SettingsError Settings :=
  match s.faults with
  | [] => .ok s
  | faults => .error (.invalid faults)

/-- The settings with overrides applied. -/
def merge (s : Settings) (o : Overrides) : Settings :=
  ⟨o.aliasStem.getD s.aliasStem, o.expandSubclassTables.getD s.expandSubclassTables⟩

/-- The settings that the environment gives. -/
def ofEnvironment (aliasStem expand : Option String) : Except SettingsError Settings := do
  let expand ← match expand.getD "true" with
    | "true" => .ok true
    | "false" => .ok false
    | value => .error (.notTruth value)
  validate ⟨aliasStem.getD default.aliasStem, expand⟩

/-- The settings that overrides of the defaults give. -/
def ofOverrides (o : Overrides) : Except SettingsError Settings := (default.merge o).validate

/-- The settings in force: those of the environment, under those of a file if one is named, under
those of the command line. Every step has to leave usable settings. -/
def load (environment : Except SettingsError Settings)
    (file : Option (Except SettingsError Overrides)) (commandLine : Overrides) :
    Except SettingsError Settings := do
  let settings ← environment
  let settings ← match file with
    | none => .ok settings
    | some overrides => do (settings.merge (← overrides)).validate
  (settings.merge commandLine).validate

end Settings

end EntityQuery
