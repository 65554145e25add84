import EntityQuery.ValueType

/-!
# Types of attributes and expressions

A basic type is a kind of value with the SQL type it is stored under. A domain type is what an
attribute, an element of a collection or an expression has: a basic type, an entity, an
embeddable, a reference of any kind, or a collection.

`BasicType.promote` types arithmetic.
-/

set_option autoImplicit false

namespace EntityQuery

/-- A type with a single value. -/
structure BasicType where
  valueType : ValueType
  sqlCode : SqlCode
  converter : Option String
deriving DecidableEq

namespace BasicType

/-- The basic type of a kind, stored as recommended and without a converter. -/
def standard (t : ValueType) : BasicType := ⟨t, t.recommendedCode, none⟩

/-- The type of an arithmetic operation. Of two numeric operands the higher-ranked kind wins, the
left one on a tie. One numeric operand on the right gives its own type; otherwise the left type
stays. -/
def promote (lhs rhs : BasicType) : BasicType :=
  match lhs.valueType.rank, rhs.valueType.rank with
  | some l, some r => if l < r then standard rhs.valueType else standard lhs.valueType
  | none, some _ => rhs
  | _, none => lhs

/-- The name of the kind with the code of the SQL type. -/
def display (t : BasicType) : String := t.valueType.name ++ "(" ++ toString t.sqlCode.toInt ++ ")"

end BasicType

/-- The two parts of a reference to an entity of any kind: which kind, and which entity. -/
structure AnyType where
  discriminator : BasicType
  identifier : BasicType
deriving DecidableEq

inductive DomainType
  | basic (type : BasicType)
  | entity (name : String)
  | embeddable (role : String)
  | any (type : AnyType)
  | collection (role : String)
deriving DecidableEq

namespace DomainType

/-- The basic type, if it is one. -/
def basic? : DomainType → Option BasicType
  | .basic t => some t
  | _ => none

/-- The name that messages use for the type. -/
def name : DomainType → String
  | .basic t => t.valueType.name
  | .entity name => name
  | .embeddable role => role
  | .any _ => "any"
  | .collection role => role

end DomainType

end EntityQuery
