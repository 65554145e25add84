import EntityQuery.Json.Types
import EntityQuery.Query.Expression

/-!
# Documents of expressions and predicates

The written form of expressions and predicates of statements, and how it is read. Readers are
built for a given depth of nesting and used at the depth of the document. A `layout` says which
documents may stand for the fields of a variant.
-/

set_option autoImplicit false

namespace EntityQuery

/-! ## Parts -/

namespace AttributePath

def toDocument (p : AttributePath) : Document :=
  .fields [("lhs_alias", .text p.start), ("path", .texts p.segments)]

def ofDocument? (d : Document) : Option AttributePath := do
  match ← d.slots ["lhs_alias", "path"] with
  | [start, segments] =>
    return ⟨← start.required Document.text?, ← segments.required (Document.list? Document.text?)⟩
  | _ => none

end AttributePath

namespace Binary64

/-- A finite binary fraction is a number, any other is nothing. -/
def toDocument (x : Binary64) : Document := if x.isFinite then .number (.real x) else .null

end Binary64

namespace Binary32

/-- A finite binary fraction is a number, any other is nothing. -/
def toDocument (x : Binary32) : Document := x.widen.toDocument

end Binary32

namespace Literal

def toDocument : Literal → Document
  | .string value => .variant "string" (.text value)
  | .character value => .variant "character" (.text value.toString)
  | .double value => .variant "double" value.toDocument
  | .integer value => .variant "integer" (.int value.toInt)
  | .bigInteger digits => .variant "big_integer" (.text digits)
  | .bigDecimal digits => .variant "big_decimal" (.text digits)
  | .float value => .variant "float" value.toDocument
  | .long value => .variant "long" (.int value.toInt)
  | .boolean true => .text "true"
  | .boolean false => .text "false"
  | .null => .text "null"

/-- A literal that carries a value. -/
def valued? : String → Reader Literal
  | "string", d => do return .string (← d.text?)
  | "character", d => do return .character (← d.char?)
  | "double", d => do return .double (← d.binary64?)
  | "integer", d => do return .integer (← d.int32?)
  | "big_integer", d => do return .bigInteger (← d.text?)
  | "big_decimal", d => do return .bigDecimal (← d.text?)
  | "float", d => do return .float (← d.binary32?)
  | "long", d => do return .long (← d.int64?)
  | _, _ => none

def ofDocument? (d : Document) : Option Literal :=
  match d.enum? [("true", .boolean true), ("false", .boolean false), ("null", .null)] with
  | some literal => some literal
  | none => do
    match ← d.variant? with
    | (name, some payload) => valued? name payload
    | (_, none) => none

end Literal

namespace UnaryOperator

def toDocument : UnaryOperator → Document
  | .plus => .text "plus"
  | .minus => .text "minus"

def ofDocument? : Document → Option UnaryOperator :=
  Document.enum? [("plus", .plus), ("minus", .minus)]

end UnaryOperator

namespace ArithmeticOperator

def toDocument : ArithmeticOperator → Document
  | .add => .text "add"
  | .subtract => .text "subtract"
  | .multiply => .text "multiply"
  | .divide => .text "divide"
  | .modulo => .text "modulo"

def ofDocument? : Document → Option ArithmeticOperator :=
  Document.enum? [("add", .add), ("subtract", .subtract), ("multiply", .multiply),
    ("divide", .divide), ("modulo", .modulo)]

end ArithmeticOperator

namespace RelationalOperator

def toDocument : RelationalOperator → Document
  | .equal => .text "equal"
  | .notEqual => .text "not_equal"
  | .lessThan => .text "less_than"
  | .lessThanOrEqual => .text "less_than_or_equal"
  | .greaterThan => .text "greater_than"
  | .greaterThanOrEqual => .text "greater_than_or_equal"

def ofDocument? : Document → Option RelationalOperator :=
  Document.enum? [("equal", .equal), ("not_equal", .notEqual), ("less_than", .lessThan),
    ("less_than_or_equal", .lessThanOrEqual), ("greater_than", .greaterThan),
    ("greater_than_or_equal", .greaterThanOrEqual)]

end RelationalOperator

/-! ## Expressions -/

namespace Expression

mutual
def toDocument : Expression → Document
  | .parameter (.positional position) expected =>
    .variant "positional_parameter" (.fields
      [("position", .nat position.toNat), ("expected_type", .option DomainType.toDocument expected)])
  | .parameter (.named name) expected =>
    .variant "named_parameter" (.fields
      [("name", .text name), ("expected_type", .option DomainType.toDocument expected)])
  | .entityType name => .variant "entity_type" (.fields [("entity_name", .text name)])
  | .unary operator operand =>
    .variant "unary" (.fields
      [("operator", operator.toDocument), ("operand", operand.toDocument)])
  | .path p => .variant "attribute" p.toDocument
  | .element name => .variant "from_element" (.fields [("alias", .text name)])
  | .function name arguments result =>
    .variant "function" (.fields
      [("name", .text name), ("arguments", .list (documents arguments)),
       ("result_type", .option DomainType.toDocument result)])
  | .literal value => .variant "literal" value.toDocument
  | .concatenation lhs rhs explicit =>
    .variant "concatenation" (.fields
      [("lhs", lhs.toDocument), ("rhs", rhs.toDocument),
       ("explicit_type", .option DomainType.toDocument explicit)])
  | .enumConstant constant storage =>
    .variant "enum_constant" (.fields
      [("enum_name", .text constant.enumName), ("constant_name", .text constant.constantName),
       ("ordinal", .nat constant.ordinal.toNat), ("storage", .option EnumStorage.toDocument storage)])
  | .fieldConstant className fieldName value =>
    .variant "field_constant" (.fields
      [("class_name", .text className), ("field_name", .text fieldName),
       ("value", value.toDocument)])
  | .arithmetic lhs operator rhs explicit =>
    .variant "binary_arithmetic" (.fields
      [("lhs", lhs.toDocument), ("operator", operator.toDocument), ("rhs", rhs.toDocument),
       ("explicit_type", .option DomainType.toDocument explicit)])
def documents : List Expression → List Document
  | [] => []
  | e :: es => e.toDocument :: documents es
end

/-- A parameter whose binding is found under `key`. -/
def parameter? (layout : Layout) (key : String) (binding : Reader Binding) :
    Reader Expression := fun d => do
  match ← d.slots [key, "expected_type"] with
  | [value, expected] =>
    return .parameter (← value.required binding) (← expected.optional (DomainType.read? layout))
  | _ => none

/-- A constant of an enumeration. -/
def enumConstant? (layout : Layout) : Reader Expression := fun d => do
  match ← d.slots ["enum_name", "constant_name", "ordinal", "storage"] with
  | [enumName, constantName, ordinal, storage] =>
    return .enumConstant
      ⟨← enumName.required Document.text?, ← constantName.required Document.text?,
       ← ordinal.required Document.uint32?⟩ (← storage.optional (EnumStorage.read? layout))
  | _ => none

/-- A constant of a class, with its value. -/
def fieldConstant? : Reader Expression := fun d => do
  match ← d.slots ["class_name", "field_name", "value"] with
  | [className, fieldName, value] =>
    return .fieldConstant (← className.required Document.text?) (← fieldName.required Document.text?)
      (← value.required Literal.ofDocument?)
  | _ => none

/-- An expression, whose parts are read by `part`. -/
def layer? (layout : Layout) (part : Reader Expression) : Reader Expression := fun d => do
  match ← d.variant? with
  | ("positional_parameter", some d) =>
    parameter? layout "position" (fun d => do return .positional (← d.uint32?)) d
  | ("named_parameter", some d) =>
    parameter? layout "name" (fun d => do return .named (← d.text?)) d
  | ("entity_type", some d) =>
    match ← d.slots ["entity_name"] with
    | [name] => return .entityType (← name.required Document.text?)
    | _ => none
  | ("unary", some d) =>
    match ← d.slots ["operator", "operand"] with
    | [operator, operand] =>
      return .unary (← operator.required UnaryOperator.ofDocument?) (← operand.required part)
    | _ => none
  | ("attribute", some d) => return .path (← AttributePath.ofDocument? d)
  | ("from_element", some d) =>
    match ← d.slots ["alias"] with
    | [name] => return .element (← name.required Document.text?)
    | _ => none
  | ("function", some d) =>
    match ← d.slots ["name", "arguments", "result_type"] with
    | [name, arguments, result] =>
      return .function (← name.required Document.text?)
        (← arguments.orElse [] (Document.list? part)) (← result.optional (DomainType.read? layout))
    | _ => none
  | ("literal", some d) => return .literal (← Literal.ofDocument? d)
  | ("concatenation", some d) =>
    match ← d.slots ["lhs", "rhs", "explicit_type"] with
    | [lhs, rhs, explicit] =>
      return .concatenation (← lhs.required part) (← rhs.required part)
        (← explicit.optional (DomainType.read? layout))
    | _ => none
  | ("enum_constant", some d) => enumConstant? layout d
  | ("field_constant", some d) => fieldConstant? d
  | ("binary_arithmetic", some d) =>
    match ← d.slots ["lhs", "operator", "rhs", "explicit_type"] with
    | [lhs, operator, rhs, explicit] =>
      return .arithmetic (← lhs.required part) (← operator.required ArithmeticOperator.ofDocument?)
        (← rhs.required part) (← explicit.optional (DomainType.read? layout))
    | _ => none
  | _ => none

/-- An expression nested at most `depth` deep. -/
def within? (layout : Layout) : Nat → Reader Expression
  | 0 => fun _ => none
  | depth + 1 => layer? layout (within? layout depth)

def read? (layout : Layout) : Reader Expression := fun d => within? layout d.depth d

def ofDocument? : Document → Option Expression := read? Document.namedSlots

end Expression

/-! ## Predicates -/

namespace Predicate

def toDocument : Predicate → Document
  | .grouped inner => .variant "grouped" (.fields [("predicate", inner.toDocument)])
  | .and left right =>
    .variant "and" (.fields [("left", left.toDocument), ("right", right.toDocument)])
  | .or left right =>
    .variant "or" (.fields [("left", left.toDocument), ("right", right.toDocument)])
  | .negated inner => .variant "negated" (.fields [("predicate", inner.toDocument)])
  | .relational lhs operator rhs =>
    .variant "relational" (.fields
      [("lhs", lhs.toDocument), ("operator", operator.toDocument), ("rhs", rhs.toDocument)])
  | .isNull subject isNegated =>
    .variant "is_null" (.fields [("expression", subject.toDocument), ("negated", .bool isNegated)])
  | .isEmpty collection isNegated =>
    .variant "is_empty" (.fields
      [("collection", collection.toDocument), ("negated", .bool isNegated)])
  | .between subject lower upper isNegated =>
    .variant "between" (.fields
      [("expression", subject.toDocument), ("lower_bound", lower.toDocument),
       ("upper_bound", upper.toDocument), ("negated", .bool isNegated)])
  | .like subject pattern escape isNegated =>
    .variant "like" (.fields
      [("match_expression", subject.toDocument), ("pattern", pattern.toDocument),
       ("escape_character", .option Expression.toDocument escape), ("negated", .bool isNegated)])
  | .memberOf value collection isNegated =>
    .variant "member_of" (.fields
      [("value", value.toDocument), ("collection", collection.toDocument),
       ("negated", .bool isNegated)])

/-- A predicate made of one other. -/
def one? (make : Predicate → Predicate) (part : Reader Predicate) : Reader Predicate := fun d => do
  match ← d.slots ["predicate"] with
  | [inner] => return make (← inner.required part)
  | _ => none

/-- A predicate made of two others. -/
def two? (make : Predicate → Predicate → Predicate) (part : Reader Predicate) :
    Reader Predicate := fun d => do
  match ← d.slots ["left", "right"] with
  | [left, right] => return make (← left.required part) (← right.required part)
  | _ => none

/-- A predicate, whose parts are read by `part`. -/
def layer? (layout : Layout) (part : Reader Predicate) : Reader Predicate := fun d => do
  let expression? := Expression.read? layout
  match ← d.variant? with
  | ("grouped", some d) => one? .grouped part d
  | ("and", some d) => two? .and part d
  | ("or", some d) => two? .or part d
  | ("negated", some d) => one? .negated part d
  | ("relational", some d) =>
    match ← d.slots ["lhs", "operator", "rhs"] with
    | [lhs, operator, rhs] =>
      return .relational (← lhs.required expression?)
        (← operator.required RelationalOperator.ofDocument?) (← rhs.required expression?)
    | _ => none
  | ("is_null", some d) =>
    match ← d.slots ["expression", "negated"] with
    | [subject, isNegated] =>
      return .isNull (← subject.required expression?) (← isNegated.orElse false Document.bool?)
    | _ => none
  | ("is_empty", some d) =>
    match ← d.slots ["collection", "negated"] with
    | [collection, isNegated] =>
      return .isEmpty (← collection.required AttributePath.ofDocument?)
        (← isNegated.orElse false Document.bool?)
    | _ => none
  | ("between", some d) =>
    match ← d.slots ["expression", "lower_bound", "upper_bound", "negated"] with
    | [subject, lower, upper, isNegated] =>
      return .between (← subject.required expression?)
        (← lower.required expression?) (← upper.required expression?)
        (← isNegated.orElse false Document.bool?)
    | _ => none
  | ("like", some d) =>
    match ← d.slots ["match_expression", "pattern", "escape_character", "negated"] with
    | [subject, pattern, escape, isNegated] =>
      return .like (← subject.required expression?)
        (← pattern.required expression?) (← escape.optional expression?)
        (← isNegated.orElse false Document.bool?)
    | _ => none
  | ("member_of", some d) =>
    match ← d.slots ["value", "collection", "negated"] with
    | [value, collection, isNegated] =>
      return .memberOf (← value.required expression?)
        (← collection.required AttributePath.ofDocument?) (← isNegated.orElse false Document.bool?)
    | _ => none
  | _ => none

/-- A predicate nested at most `depth` deep. -/
def within? (layout : Layout) : Nat → Reader Predicate
  | 0 => fun _ => none
  | depth + 1 => layer? layout (within? layout depth)

def read? (layout : Layout) : Reader Predicate := fun d => within? layout d.depth d

def ofDocument? : Document → Option Predicate := read? Document.namedSlots

end Predicate

end EntityQuery
