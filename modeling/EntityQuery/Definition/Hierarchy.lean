import EntityQuery.Definition
import EntityQuery.Metamodel.Error

/-!
# Hierarchies

`extends` leads from an entity to its parent. The ancestors of an entity are its parent, the
parent of that one, and so on to the root; its descendants are the entities that it is an
ancestor of. An entity has the tables and attributes of its whole line: its own, those of its
ancestors and those of its descendants.

`Definition.validate` checks that the definition is one of proper hierarchies.
-/

set_option autoImplicit false

namespace EntityQuery.Definition

/-! ## Lines -/

/-- The ancestors of `entity` from the one named `parent` on, nearest first. At most `budget` of
them are followed: more than there are entities can only be a cycle. -/
def ancestorsFrom (d : Definition) (entity : EntityDefinition) (budget : Nat) :
    Option String → Except MetamodelError (List EntityDefinition)
  | none => .ok []
  | some name =>
    match d.entity? name with
    | none => .error (.invalid (.unknownParent entity.name name))
    | some parent =>
      if parent.name = entity.name then .error (.invalid (.inheritanceCycle entity.name))
      else match budget with
        | 0 => .error (.invalid (.inheritanceCycle entity.name))
        | budget + 1 => do return parent :: (← d.ancestorsFrom entity budget parent.parent)

/-- The ancestors of an entity, nearest first. -/
def ancestors (d : Definition) (e : EntityDefinition) :
    Except MetamodelError (List EntityDefinition) :=
  d.ancestorsFrom e d.entities.length e.parent

/-- The last ancestor of an entity, or the entity itself. -/
def root (d : Definition) (e : EntityDefinition) : Except MetamodelError EntityDefinition := do
  return (← d.ancestors e).getLast?.getD e

/-- The entities whose parent is `e`, in the order of the definition. -/
def children (d : Definition) (e : EntityDefinition) : List EntityDefinition :=
  d.entities.filter (·.parent = some e.name)

/-- The descendants of an entity down to the given number of generations. -/
def descendantsWithin (d : Definition) : Nat → EntityDefinition → List EntityDefinition
  | 0, _ => []
  | generations + 1, e =>
    (d.children e).flatMap fun child => child :: d.descendantsWithin generations child

/-- The descendants of an entity: each child is followed by its own descendants. -/
def descendants (d : Definition) (e : EntityDefinition) : List EntityDefinition :=
  d.descendantsWithin d.entities.length e

/-- An entity, its ancestors and its descendants. -/
def line (d : Definition) (e : EntityDefinition) : Except MetamodelError (List EntityDefinition) := do
  return e :: (← d.ancestors e) ++ d.descendants e

/-! ## Tables -/

/-- The first table of an entity. In a single-table hierarchy it may be left to the root. -/
def primaryTable (e root : EntityDefinition) : Except MetamodelError String :=
  match e.table, root.inheritance.getD .joined, root.table with
  | some table, _, _ => .ok table
  | none, .singleTable, some table => .ok table
  | none, .singleTable, none => .error (.invalid (.noRootTable e.name))
  | none, .joined, _ => .error (.invalid (.noTable e.name))

/-- The tables that an entity declares: the primary one, then the secondary ones. -/
def ownTables (d : Definition) (e : EntityDefinition) : Except MetamodelError (List String) := do
  return (← primaryTable e (← d.root e)) :: e.secondaryTables

/-- `xs` without the repetitions of what is in `seen` or earlier in `xs`. -/
def firstsAfter (seen : List String) : List String → List String
  | [] => []
  | x :: xs => if x ∈ seen then firstsAfter seen xs else x :: firstsAfter (x :: seen) xs

/-- The tables of an entity's line, each at its first place. -/
def tableOrder (d : Definition) (e : EntityDefinition) : Except MetamodelError (List String) := do
  return firstsAfter [] (← (← d.line e).mapM d.ownTables).flatten

/-! ## Validation -/

/-- The first of `xs` that is in `seen` or earlier in `xs`. -/
def firstRepeated (seen : List String) : List String → Option String
  | [] => none
  | x :: xs => if x ∈ seen then some x else firstRepeated (x :: seen) xs

/-- Checks the place of an entity in its hierarchy: the root alone has an identifier, and there
is a table. -/
def checkEntity (d : Definition) (e : EntityDefinition) : Except MetamodelError Unit := do
  let root ← d.root e
  if e.parent.isSome && e.identifier.isSome then
    throw (.invalid (.subclassIdentifier e.name))
  if root.identifier.isNone then throw (.invalid (.noIdentifier root.name))
  let _ ← d.ownTables e

/-- The attributes of several entities, each with its entity. -/
def declared (members : List EntityDefinition) : List (EntityDefinition × String) :=
  members.flatMap fun e => e.attributes.map fun a => (e, a.name)

/-- The first declaration of a name that is in `seen` or was declared before. -/
def firstCollision (seen : List String) :
    List (EntityDefinition × String) → Option (EntityDefinition × String)
  | [] => none
  | (e, name) :: rest =>
    if name ∈ seen then some (e, name) else firstCollision (name :: seen) rest

/-- Checks that the attributes of a hierarchy have names of their own, none of them that of the
identifier. -/
def checkNames (d : Definition) (root : EntityDefinition) : Except MetamodelError Unit :=
  let identifierName := (root.identifier.map (·.name)).getD "id"
  match firstCollision [identifierName] (declared (root :: d.descendants root)) with
  | some (e, name) => .error (.invalid (.nameCollision name e.name root.name))
  | none => .ok ()

/-- Checks the definition. -/
def validate (d : Definition) : Except MetamodelError Unit := do
  if d.entities.isEmpty then throw (.invalid .noEntities)
  if let some name := firstRepeated [] (d.embeddables.map (·.name)) then
    throw (.invalid (.duplicateEmbeddable name))
  if let some name := firstRepeated [] (d.entities.map (·.name)) then
    throw (.invalid (.duplicateEntity name))
  d.entities.forM d.checkEntity
  (d.entities.filter (·.parent.isNone)).forM d.checkNames

end EntityQuery.Definition
