import EntityQuery.Metamodel.Attribute
import EntityQuery.Metamodel.Error

/-!
# Metamodels

A metamodel knows the entities by name, the embeddables and collections by role, and the tables
all of them are stored in.
-/

set_option autoImplicit false

namespace EntityQuery

structure Metamodel where
  database : Database
  entities : List Entity
  embeddables : List (String × Embeddable)
  collections : List (String × PluralAttribute)
deriving DecidableEq

namespace Metamodel

/-- The entity of the given name. -/
def entity? (m : Metamodel) (name : String) : Option Entity := m.entities.find? (·.name = name)

/-- The entity of the given name, or the error that there is none. -/
def entity (m : Metamodel) (name : String) : Except MetamodelError Entity :=
  match m.entity? name with
  | some e => .ok e
  | none => .error (.unknownEntity name)

/-- The embeddable used in the given role. -/
def embeddable (m : Metamodel) (role : String) : Except MetamodelError Embeddable :=
  match m.embeddables.lookup role with
  | some e => .ok e
  | none => .error (.invalid (.noEmbeddable role))

/-- The collection of the given role. -/
def collection (m : Metamodel) (role : String) : Except MetamodelError PluralAttribute :=
  match m.collections.lookup role with
  | some p => .ok p
  | none => .error (.unknownCollection role)

/-- The attribute of an entity or embeddable. -/
def find (m : Metamodel) (type : ManagedType) (name : String) : Except MetamodelError Attribute := do
  let found ← match type with
    | .entity entity => do pure ((← m.entity entity).find? name)
    | .embeddable role => do pure ((← m.embeddable role).find? name)
  match found with
  | some a => .ok a
  | none => .error (.unknownAttribute type.name name)

end Metamodel

end EntityQuery
