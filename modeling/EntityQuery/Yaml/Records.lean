import EntityQuery.Json.Definition
import EntityQuery.Json.Settings
import EntityQuery.Metamodel.Error
import EntityQuery.Yaml.Reader

/-!
# Records in YAML texts

Definitions and settings written as YAML. Records are objects here; a list does not stand for one.
-/

set_option autoImplicit false

namespace EntityQuery

/-- The number of lists and objects that may be open at once where they are read. -/
def Yaml.maxDepth : Nat := 128

/-- What an attribute holds, with the types of its bare scalars decided. Attributes stand four
levels deep in a definition, and all that they hold is read. -/
def Yaml.settleAttribute (d : Document) : Option Document :=
  if 4 + d.depth ≤ maxDepth then d.settle? else none

/-- The format of definitions in YAML. -/
def Format.yaml : Format := ⟨Document.namedSlots, Yaml.settleAttribute⟩

/-- The definition in a YAML text. -/
def Definition.ofYaml (text : String) : Except MetamodelError Definition :=
  match Yaml.parse? text >>= Definition.read? .yaml with
  | some d => .ok d
  | none => .error (.unparsed "the text is not a definition")

/-- The settings in a YAML text. Members that are no settings do not count. -/
def Settings.ofYaml (text : String) : Except SettingsError Settings :=
  match Yaml.parse? text >>= Settings.read? Document.namedSlots with
  | some s => s.validate
  | none => .error .unparsed

/-- The overrides in a YAML text. -/
def Overrides.ofYaml (text : String) : Except SettingsError Overrides :=
  match Yaml.parse? text >>= Overrides.read? Document.namedSlots with
  | some o => .ok o
  | none => .error .unparsed

end EntityQuery
