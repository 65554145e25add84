import EntityQuery.Document.Reading
import EntityQuery.DomainType

/-!
# Documents of types

The written form of kinds of values, basic types and domain types, and how it is read. A `layout`
says which documents may stand for the fields of a variant.
-/

set_option autoImplicit false

namespace EntityQuery

/-- A SQL type code as a document. -/
def Document.code (c : SqlCode) : Document := .int c.toInt

/-- A list of SQL type codes as a document. -/
def Document.codes (cs : List SqlCode) : Document := .list (cs.map .code)

/-! ## Kinds of values -/

namespace EnumStorage

def toDocument : EnumStorage → Document
  | .ordinal => .text "ordinal"
  | .string nationalized => .variant "string" (.fields [("nationalized", .bool nationalized)])

def read? (layout : Layout) : Reader EnumStorage := fun d => do
  match ← d.variant? with
  | ("string", some payload) =>
    match ← layout ["nationalized"] payload with
    | [nationalized] => return .string (← nationalized.required Document.bool?)
    | _ => none
  | _ => d.enum? [("ordinal", .ordinal)]

def ofDocument? : Document → Option EnumStorage := read? Document.namedSlots

end EnumStorage

namespace ValueType

/-- The kinds that are written as their name alone. -/
def plain : List (String × ValueType) :=
  [("string", .string), ("character", .character), ("boolean", .boolean), ("byte", .byte),
   ("short", .short), ("integer", .integer), ("long", .long), ("float", .float),
   ("double", .double), ("big_integer", .bigInteger), ("big_decimal", .bigDecimal),
   ("date", .date), ("time", .time), ("timestamp", .timestamp), ("binary", .binary)]

def toDocument : ValueType → Document
  | .string => .text "string"
  | .character => .text "character"
  | .boolean => .text "boolean"
  | .byte => .text "byte"
  | .short => .text "short"
  | .integer => .text "integer"
  | .long => .text "long"
  | .float => .text "float"
  | .double => .text "double"
  | .bigInteger => .text "big_integer"
  | .bigDecimal => .text "big_decimal"
  | .date => .text "date"
  | .time => .text "time"
  | .timestamp => .text "timestamp"
  | .binary => .text "binary"
  | .enum name storage =>
    .variant "enum" (.fields [("name", .text name), ("storage", storage.toDocument)])

def read? (layout : Layout) : Reader ValueType := fun d => do
  match ← d.variant? with
  | ("enum", some payload) =>
    match ← layout ["name", "storage"] payload with
    | [name, storage] =>
      return .enum (← name.required Document.text?) (← storage.required (EnumStorage.read? layout))
    | _ => none
  | _ => d.enum? plain

def ofDocument? : Document → Option ValueType := read? Document.namedSlots

end ValueType

/-! ## Types -/

namespace BasicType

/-- The converter is written only when there is one. -/
def toDocument (t : BasicType) : Document :=
  .fields ([("java_type", t.valueType.toDocument), ("sql_type_code", .code t.sqlCode)] ++
    (t.converter.map fun c => ("converter", Document.text c)).toList)

def read? (layout : Layout) : Reader BasicType := fun d => do
  match ← d.slots ["java_type", "sql_type_code", "converter"] with
  | [valueType, sqlCode, converter] =>
    return ⟨← valueType.required (ValueType.read? layout), ← sqlCode.required Document.int32?,
      ← converter.optional Document.text?⟩
  | _ => none

def ofDocument? : Document → Option BasicType := read? Document.namedSlots

end BasicType

namespace AnyType

def toDocument (t : AnyType) : Document :=
  .fields [("discriminator_type", t.discriminator.toDocument),
    ("identifier_type", t.identifier.toDocument)]

def read? (layout : Layout) : Reader AnyType := fun d => do
  match ← d.slots ["discriminator_type", "identifier_type"] with
  | [discriminator, identifier] =>
    return ⟨← discriminator.required (BasicType.read? layout),
      ← identifier.required (BasicType.read? layout)⟩
  | _ => none

def ofDocument? : Document → Option AnyType := read? Document.namedSlots

end AnyType

namespace DomainType

def toDocument : DomainType → Document
  | .basic t => .variant "basic" t.toDocument
  | .entity name => .variant "entity" (.text name)
  | .embeddable role => .variant "embeddable" (.text role)
  | .any t => .variant "any" t.toDocument
  | .collection role => .variant "collection" (.text role)

def read? (layout : Layout) : Reader DomainType := fun d => do
  match ← d.variant? with
  | ("basic", some d) => return .basic (← BasicType.read? layout d)
  | ("entity", some d) => return .entity (← d.text?)
  | ("embeddable", some d) => return .embeddable (← d.text?)
  | ("any", some d) => return .any (← AnyType.read? layout d)
  | ("collection", some d) => return .collection (← d.text?)
  | _ => none

def ofDocument? : Document → Option DomainType := read? Document.namedSlots

end DomainType

end EntityQuery
