import EntityQuery.Mapping

/-!
# Classes of attributes

Every storage falls into one class: a singular attribute has a class by itself, a plural one the
class of its collection and the class of its elements.
-/

set_option autoImplicit false

namespace EntityQuery

inductive SingularClass
  | basic | embedded | any | oneToOne | manyToOne
deriving DecidableEq

inductive CollectionClass
  | bag | list | set | map
deriving DecidableEq

inductive ElementClass
  | basic | embeddable | any | oneToMany | manyToMany
deriving DecidableEq

inductive AttributeClass
  | singular (value : SingularClass)
  | plural (collection : CollectionClass) (element : ElementClass)
deriving DecidableEq

/-- The name that messages use for a class of singular attributes. -/
def SingularClass.display : SingularClass → String
  | .basic => "BASIC"
  | .embedded => "EMBEDDED"
  | .any => "ANY"
  | .oneToOne => "ONE_TO_ONE"
  | .manyToOne => "MANY_TO_ONE"

/-- The class of a reference to a single entity. -/
def AssociationKind.singularClass : AssociationKind → SingularClass
  | .manyToOne => .manyToOne
  | .primaryKeyOneToOne => .oneToOne
  | .uniqueKeyOneToOne => .oneToOne

/-- The class of a collection of the given shape. -/
def CollectionShape.collectionClass : CollectionShape → CollectionClass
  | .bag | .idBag | .custom .other => .bag
  | .list | .array | .custom .list => .list
  | .set | .orderedSet | .sortedSet | .custom .set => .set
  | .map | .orderedMap | .sortedMap | .custom .map => .map

/-- The class of the elements of a collection. -/
def ElementTypeOf.elementClass {τ : Type} : ElementTypeOf τ → ElementClass
  | .basic _ => .basic
  | .component _ => .embeddable
  | .any _ => .any
  | .entity _ viaLinkTable => if viaLinkTable then .manyToMany else .oneToMany

namespace MappedType

/-- The class of an attribute with the given storage. -/
def attributeClass : MappedType → AttributeClass
  | .basic _ => .singular .basic
  | .component _ => .singular .embedded
  | .any _ => .singular .any
  | .association _ kind => .singular kind.singularClass
  | .collection c => .plural c.shape.collectionClass c.element.elementType.elementClass

/-- The class of an identifier with the given storage: a component is embedded, and anything else
basic. -/
def identifierClass : MappedType → SingularClass
  | .component _ => .embedded
  | _ => .basic

end MappedType

end EntityQuery
