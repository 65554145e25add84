import EntityQuery.Database
import EntityQuery.Mapping.Classification

/-!
# Attributes, entities and embeddables of a metamodel

What is left of a mapping once tables and columns are known by their places.
-/

set_option autoImplicit false

namespace EntityQuery

/-- A type that has attributes: an entity, or an embeddable by the role it is used in. -/
inductive ManagedType
  | entity (name : String)
  | embeddable (role : String)
deriving DecidableEq

/-- The name of the entity or the role of the embeddable. -/
def ManagedType.name : ManagedType → String
  | .entity name => name
  | .embeddable role => role

/-- An attribute with one value, or with one value per column of a component. -/
structure SingularAttribute where
  declaringType : ManagedType
  name : String
  kind : SingularClass
  attributeType : DomainType
  columns : List ColumnId
  tablePosition : Nat
  isIdentifier : Bool
deriving DecidableEq

/-- The name of an attribute behind the name of its type. -/
def SingularAttribute.role (a : SingularAttribute) : String := s!"{a.declaringType.name}.{a.name}"

/-- The elements of a plural attribute. -/
structure Element where
  kind : ElementClass
  elementType : DomainType
  columns : List ColumnId
deriving DecidableEq

/-- The positions or keys of a plural attribute. -/
structure Index where
  indexType : DomainType
  columns : List ColumnId
deriving DecidableEq

/-- A collection. The key columns refer back to the owner; they are on the collection table, or
on the primary table of the elements when there is none. -/
structure PluralAttribute where
  declaringType : ManagedType
  name : String
  role : String
  collectionClass : CollectionClass
  element : Element
  index : Option Index
  keyColumns : List ColumnId
  collectionTable : Option TableId
deriving DecidableEq

/-- The entity that the elements are, if they are entities. -/
def PluralAttribute.elementEntity? (p : PluralAttribute) : Option String :=
  match p.element.elementType with
  | .entity name => some name
  | _ => none

inductive Attribute
  | singular (a : SingularAttribute)
  | plural (p : PluralAttribute)
deriving DecidableEq

namespace Attribute

def name : Attribute → String
  | .singular a => a.name
  | .plural p => p.name

def declaringType : Attribute → ManagedType
  | .singular a => a.declaringType
  | .plural p => p.declaringType

def attributeClass : Attribute → AttributeClass
  | .singular a => .singular a.kind
  | .plural p => .plural p.collectionClass p.element.kind

def attributeType : Attribute → DomainType
  | .singular a => a.attributeType
  | .plural p => .collection p.role

def singular? : Attribute → Option SingularAttribute
  | .singular a => some a
  | .plural _ => none

def plural? : Attribute → Option PluralAttribute
  | .singular _ => none
  | .plural p => some p

end Attribute

/-- An entity. Its first table is the primary one. -/
structure Entity where
  name : String
  parent : Option String
  primaryTable : TableId
  moreTables : List TableId
  identifier : SingularAttribute
  attributes : List Attribute
deriving DecidableEq

namespace Entity

/-- All tables of the entity, the primary one first. -/
def tables (e : Entity) : List TableId := e.primaryTable :: e.moreTables

/-- The attribute of the given name, the last one if there are several. Where there is none, the
identifier answers to its own name and to `id`. -/
def find? (e : Entity) (name : String) : Option Attribute :=
  match e.attributes.reverse.find? (·.name = name) with
  | some a => some a
  | none => if name = e.identifier.name ∨ name = "id" then some (.singular e.identifier) else none

end Entity

/-- An embeddable in the role it is used in. -/
structure Embeddable where
  role : String
  name : String
  attributes : List Attribute
deriving DecidableEq

/-- The first attribute of the given name. -/
def Embeddable.find? (e : Embeddable) (name : String) : Option Attribute :=
  e.attributes.find? (·.name = name)

end EntityQuery
