import EntityQuery.DomainType
import EntityQuery.Number.Binary
import EntityQuery.Query.Path

/-!
# Expressions and predicates of statements

What clauses of a statement compute and test, over from-elements and the attributes reached from
them. Expressions may state their type; where they do not, it is found when the statement is
lowered.
-/

set_option autoImplicit false

namespace EntityQuery

/-! ## Literals -/

/-- A value written into a statement. Big numbers keep their digits as text. -/
inductive Literal
  | string (value : String)
  | character (value : Char)
  | double (value : Binary64)
  | integer (value : Int32)
  | bigInteger (digits : String)
  | bigDecimal (digits : String)
  | float (value : Binary32)
  | long (value : Int64)
  | boolean (value : Bool)
  | null
deriving DecidableEq

namespace Literal

/-- The kind of value that a literal is, unless it is null. -/
def valueType : Literal → Option ValueType
  | .string _ => some .string
  | .character _ => some .character
  | .double _ => some .double
  | .integer _ => some .integer
  | .bigInteger _ => some .bigInteger
  | .bigDecimal _ => some .bigDecimal
  | .float _ => some .float
  | .long _ => some .long
  | .boolean _ => some .boolean
  | .null => none

end Literal

/-- A constant of an enumeration, with its place among the constants. -/
structure EnumConstant where
  enumName : String
  constantName : String
  ordinal : UInt32
deriving DecidableEq

/-! ## Operators -/

inductive UnaryOperator
  | plus
  | minus
deriving DecidableEq

inductive ArithmeticOperator
  | add
  | subtract
  | multiply
  | divide
  | modulo
deriving DecidableEq

inductive RelationalOperator
  | equal
  | notEqual
  | lessThan
  | lessThanOrEqual
  | greaterThan
  | greaterThanOrEqual
deriving DecidableEq

/-- How a parameter is given its value: by its position or by its name. -/
inductive Binding
  | positional (position : UInt32)
  | named (name : String)
deriving DecidableEq

/-! ## Expressions -/

/-- An expression of a statement. `element` is the value of a from-element itself. -/
inductive Expression
  | parameter (binding : Binding) (expected : Option DomainType)
  | entityType (name : String)
  | unary (operator : UnaryOperator) (operand : Expression)
  | path (path : AttributePath)
  | element (aliasName : String)
  | function (name : String) (arguments : List Expression) (result : Option DomainType)
  | literal (value : Literal)
  | concatenation (lhs rhs : Expression) (explicit : Option DomainType)
  | enumConstant (constant : EnumConstant) (storage : Option EnumStorage)
  | fieldConstant (className fieldName : String) (value : Literal)
  | arithmetic (lhs : Expression) (operator : ArithmeticOperator) (rhs : Expression)
      (explicit : Option DomainType)

/-! ## Predicates -/

/-- A predicate of a statement. -/
inductive Predicate
  | grouped (inner : Predicate)
  | and (left right : Predicate)
  | or (left right : Predicate)
  | negated (inner : Predicate)
  | relational (lhs : Expression) (operator : RelationalOperator) (rhs : Expression)
  | isNull (subject : Expression) (negated : Bool)
  | isEmpty (collection : AttributePath) (negated : Bool)
  | between (subject lower upper : Expression) (negated : Bool)
  | like (subject pattern : Expression) (escape : Option Expression) (negated : Bool)
  | memberOf (value : Expression) (collection : AttributePath) (negated : Bool)

end EntityQuery
