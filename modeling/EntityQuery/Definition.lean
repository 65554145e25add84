import EntityQuery.Mapping

/-!
# Definitions

A definition is an entity model as its author writes it: entities with their tables and
attributes, arranged in hierarchies by `extends`, and embeddables that entities share. Columns,
types and tables that go without saying are left out.
-/

set_option autoImplicit false

namespace EntityQuery

/-- How the entities of a hierarchy share tables: each has its own, or all are in one. -/
inductive Inheritance
  | joined
  | singleTable
deriving DecidableEq

/-- How the author asks for an enumeration to be stored. -/
inductive EnumForm
  | ordinal
  | string
  | nationalizedString
deriving DecidableEq

/-- The storage that the author asks for. -/
def EnumForm.storage : EnumForm → EnumStorage
  | .ordinal => .ordinal
  | .string => .string false
  | .nationalizedString => .string true

/-- The identifier of a hierarchy: columns of one type, or an embeddable. -/
structure IdentifierDefinition where
  name : String
  columns : List String
  typeName : Option String
  embeddable : Option String
deriving DecidableEq

structure BasicDefinition where
  name : String
  typeName : String
  column : Option String
  columns : List String
  formula : Option String
  sqlType : Option SqlCode
  converter : Option String
  enumStorage : Option EnumForm
  table : Option String
deriving DecidableEq

structure EmbeddedDefinition where
  name : String
  embeddable : String
  table : Option String
deriving DecidableEq

structure AnyDefinition where
  name : String
  discriminatorColumn : String
  identifierColumn : String
  discriminatorType : String
  identifierType : String
  table : Option String
deriving DecidableEq

/-- A reference to a single entity. -/
structure ToOneDefinition where
  name : String
  target : String
  column : Option String
  columns : List String
  primaryKey : Bool
  table : Option String
deriving DecidableEq

structure IndexDefinition where
  columns : List String
  typeName : String
deriving DecidableEq

structure OneToManyDefinition where
  name : String
  target : String
  keyColumns : List String
  shape : CollectionShape
  index : Option IndexDefinition
deriving DecidableEq

structure ManyToManyDefinition where
  name : String
  target : String
  collectionTable : String
  keyColumns : List String
  elementColumns : List String
  shape : CollectionShape
  index : Option IndexDefinition
deriving DecidableEq

/-- The elements of a collection that are not entities. -/
inductive ElementDefinition
  | basic (typeName : String) (column : Option String) (sqlType : Option SqlCode)
      (enumStorage : Option EnumForm)
  | embeddable (name : String)
  | any (discriminatorColumn identifierColumn discriminatorType identifierType : String)
deriving DecidableEq

structure ElementCollectionDefinition where
  name : String
  collectionTable : String
  keyColumns : List String
  element : ElementDefinition
  shape : CollectionShape
  index : Option IndexDefinition
deriving DecidableEq

inductive AttributeDefinition
  | basic (d : BasicDefinition)
  | embedded (d : EmbeddedDefinition)
  | any (d : AnyDefinition)
  | manyToOne (d : ToOneDefinition)
  | oneToOne (d : ToOneDefinition)
  | oneToMany (d : OneToManyDefinition)
  | manyToMany (d : ManyToManyDefinition)
  | elementCollection (d : ElementCollectionDefinition)
deriving DecidableEq

namespace AttributeDefinition

def name : AttributeDefinition → String
  | .basic d => d.name
  | .embedded d => d.name
  | .any d => d.name
  | .manyToOne d => d.name
  | .oneToOne d => d.name
  | .oneToMany d => d.name
  | .manyToMany d => d.name
  | .elementCollection d => d.name

/-- The table that a singular attribute asks to be stored in. -/
def table? : AttributeDefinition → Option String
  | .basic d => d.table
  | .embedded d => d.table
  | .any d => d.table
  | .manyToOne d => d.table
  | .oneToOne d => d.table
  | _ => none

/-- Whether the attribute is a collection. -/
def isPlural : AttributeDefinition → Bool
  | .oneToMany _ | .manyToMany _ | .elementCollection _ => true
  | _ => false

end AttributeDefinition

/-- An entity. The inheritance of its hierarchy is taken from the root. -/
structure EntityDefinition where
  name : String
  parent : Option String
  table : Option String
  secondaryTables : List String
  inheritance : Option Inheritance
  identifier : Option IdentifierDefinition
  keyColumns : Option (List String)
  attributes : List AttributeDefinition
deriving DecidableEq

structure EmbeddableDefinition where
  name : String
  attributes : List AttributeDefinition
deriving DecidableEq

structure Definition where
  name : Option String
  entities : List EntityDefinition
  embeddables : List EmbeddableDefinition
deriving DecidableEq

namespace Definition

/-- The entity of the given name. -/
def entity? (d : Definition) (name : String) : Option EntityDefinition :=
  d.entities.find? (·.name = name)

/-- The embeddable of the given name. -/
def embeddable? (d : Definition) (name : String) : Option EmbeddableDefinition :=
  d.embeddables.find? (·.name = name)

end Definition

end EntityQuery
