import EntityQuery.DomainType

/-!
# Result types of standard functions

A call that does not state its type is typed by the function's rule. Functions without a rule are
untyped, as are calls whose rule looks at an argument that is missing or untyped.
-/

set_option autoImplicit false

namespace EntityQuery

/-- How the result of a function is typed. -/
inductive ResultRule
  | firstArgument
  | fixed (type : ValueType)
  | sum
deriving DecidableEq

namespace ResultRule

/-- The standard functions with their rules. -/
def standard : List (String × ResultRule) :=
  [("upper", .firstArgument), ("lower", .firstArgument), ("trim", .firstArgument),
   ("abs", .firstArgument), ("min", .firstArgument), ("max", .firstArgument),
   ("coalesce", .firstArgument),
   ("length", .fixed .integer), ("locate", .fixed .integer), ("size", .fixed .integer),
   ("mod", .fixed .integer), ("count", .fixed .long), ("avg", .fixed .double),
   ("sqrt", .fixed .double), ("concat", .fixed .string), ("substring", .fixed .string),
   ("current_date", .fixed .date), ("current_time", .fixed .time),
   ("current_timestamp", .fixed .timestamp),
   ("sum", .sum)]

/-- The registered name and the rule of a function. No registered name holds a letter that a
character outside ASCII has for its lower case, so ASCII letters alone may change their case. -/
def find? (name : String) : Option (String × ResultRule) :=
  standard.find? fun entry => entry.1 = name.map Char.toLower

/-- The type of a sum: whole numbers sum to `long`, floating ones to `double`. -/
def sumType (t : BasicType) : BasicType :=
  match t.valueType with
  | .byte | .short | .integer | .long => BasicType.standard .long
  | .float | .double => BasicType.standard .double
  | _ => t

/-- The type of a call, from the types of its arguments. -/
def apply (rule : ResultRule) (arguments : List (Option DomainType)) : Option DomainType :=
  match rule with
  | .firstArgument => arguments.head?.join
  | .fixed t => some (.basic (BasicType.standard t))
  | .sum =>
    match arguments.head?.join with
    | some (.basic t) => some (.basic (sumType t))
    | other => other

end ResultRule

/-- The type of a call of the function `name`. -/
def resultType (name : String) (arguments : List (Option DomainType)) : Option DomainType :=
  match ResultRule.find? name with
  | some (_, rule) => rule.apply arguments
  | none => none

end EntityQuery
