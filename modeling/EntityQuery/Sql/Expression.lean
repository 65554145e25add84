import EntityQuery.Database
import EntityQuery.Query.Expression
import EntityQuery.Query.Selection

/-!
# Expressions of SQL queries

Expressions over columns of tables. A value that takes several columns is a tuple; a value of one
column is that column. `Expression.columns` and `Expression.ofColumns` go between the two.
-/

set_option autoImplicit false

namespace EntityQuery.Sql

/-- A column or formula, under the identification variable of its table. -/
structure ColumnReference where
  variableName : String
  expression : ColumnExpression
  sqlCode : SqlCode
  type : Option DomainType
deriving DecidableEq

/-- The value of a literal: one that a statement can write, or a constant of an enumeration. -/
inductive Value
  | plain (literal : Literal)
  | enum (constant : EnumConstant)
deriving DecidableEq

structure TypedValue where
  value : Value
  type : Option BasicType
deriving DecidableEq

/-- A parameter, with its place in the list of the query's parameters. -/
structure Parameter where
  index : Nat
  binding : Binding
  expected : Option DomainType
deriving DecidableEq

inductive Expression
  | column (reference : ColumnReference)
  | tuple (parts : List Expression) (type : Option DomainType)
  | literal (value : TypedValue)
  | parameter (parameter : Parameter)
  | entityType (name : String)
  | unary (operator : UnaryOperator) (operand : Expression) (type : Option DomainType)
  | arithmetic (lhs : Expression) (operator : ArithmeticOperator) (rhs : Expression)
      (type : Option DomainType)
  | concatenation (lhs rhs : Expression) (type : Option DomainType)
  | function (name : String) (arguments : List Expression) (result : Option DomainType)

namespace Expression

/-- The type of an expression, if it is known. -/
def type : Expression → Option DomainType
  | .column reference => reference.type
  | .tuple _ type => type
  | .literal value => value.type.map .basic
  | .parameter p => p.expected
  | .entityType name => some (.entity name)
  | .unary _ _ type => type
  | .arithmetic _ _ _ type => type
  | .concatenation _ _ type => type
  | .function _ _ result => result

/-- The value that columns make up: a single column, or a tuple of them. A single column that has
no type takes the one given. -/
def ofColumns (columns : List ColumnReference) (type : Option DomainType) : Expression :=
  match columns with
  | [reference] => .column { reference with type := reference.type <|> type }
  | _ => .tuple (columns.map .column) type

mutual
/-- The columns that make up the value, in order; an expression that computes has none. -/
def columns : Expression → List ColumnReference
  | .column reference => [reference]
  | .tuple parts _ => columnsOfAll parts
  | _ => []
def columnsOfAll : List Expression → List ColumnReference
  | [] => []
  | e :: es => e.columns ++ columnsOfAll es
end

/-- The parts of a tuple; any other expression is its only part. -/
def parts : Expression → List Expression
  | .tuple parts _ => parts
  | e => [e]

end Expression

abbrev Selection := SelectionOf Expression

abbrev SelectItem := SelectItemOf Selection

end EntityQuery.Sql
