import EntityQuery.DomainType

/-!
# Mappings of entities

What is said of an entity before its tables and columns are known by their places: the table
expressions, the identifier, and for each attribute the columns or formulas it is stored in.
Mappings are written by hand or come from a definition.

`MappedType` is the storage of an attribute. A component holds the mappings of its own
attributes, and so does the element of a collection of components.
-/

set_option autoImplicit false

namespace EntityQuery

/-- How a reference to a single entity is stored: in columns of its own, shared by many or by one
owner, or in the identifier of its owner. -/
inductive AssociationKind
  | manyToOne
  | primaryKeyOneToOne
  | uniqueKeyOneToOne
deriving DecidableEq

/-- What a collection of a custom kind presents itself as. -/
inductive ContainerKind
  | set | map | list | other
deriving DecidableEq

/-- The shape of a collection. -/
inductive CollectionShape
  | bag | idBag
  | list | array
  | set | orderedSet | sortedSet
  | map | orderedMap | sortedMap
  | custom (container : ContainerKind)
deriving DecidableEq

/-- The mapping of an attribute whose storage is described by `τ`. A slot is a column or, at the
same place in `formulas`, a formula. -/
structure AttributeMappingOf (τ : Type) where
  name : String
  tableNumber : Nat
  columns : List (Option String)
  formulas : Option (List (Option String))
  sqlCodes : List SqlCode
  mappedType : τ

/-- The mapping of an embeddable where it is used. -/
structure ComponentMappingOf (τ : Type) where
  embeddableName : String
  attributes : List (AttributeMappingOf τ)

/-- What the elements of a collection are. -/
inductive ElementTypeOf (τ : Type)
  | basic (type : BasicType)
  | component (component : ComponentMappingOf τ)
  | any (type : AnyType)
  | entity (target : String) (viaLinkTable : Bool)

structure ElementMappingOf (τ : Type) where
  elementType : ElementTypeOf τ
  columns : List (Option String)
  formulas : Option (List (Option String))
  sqlCodes : List SqlCode

/-- Where the position or key of an element is stored. -/
structure IndexMapping where
  indexType : DomainType
  columns : List String
  sqlCodes : List SqlCode

structure CollectionMappingOf (τ : Type) where
  role : String
  shape : CollectionShape
  collectionTable : Option String
  keyColumns : List String
  keySqlCodes : List SqlCode
  element : ElementMappingOf τ
  index : Option IndexMapping

/-- The storage of an attribute. -/
inductive MappedType
  | basic (type : BasicType)
  | component (component : ComponentMappingOf MappedType)
  | any (type : AnyType)
  | association (target : String) (kind : AssociationKind)
  | collection (collection : CollectionMappingOf MappedType)

abbrev AttributeMapping := AttributeMappingOf MappedType
abbrev ComponentMapping := ComponentMappingOf MappedType
abbrev ElementType := ElementTypeOf MappedType
abbrev ElementMapping := ElementMappingOf MappedType
abbrev CollectionMapping := CollectionMappingOf MappedType

structure IdentifierMapping where
  name : String
  columns : List String
  sqlCodes : List SqlCode
  idType : MappedType

/-- Everything that is said of one entity. The first table is the primary one, and the attributes
are all those that can be reached from the entity. -/
structure EntityMapping where
  name : String
  parent : Option String
  tables : List String
  identifier : IdentifierMapping
  attributes : List AttributeMapping

end EntityQuery
