import EntityQuery.Mapping
import EntityQuery.Text.Quoted

/-!
# Mappings in messages

A message may show a whole storage description: variants by name, records with all their fields,
texts between quotes.
-/

set_option autoImplicit false

namespace EntityQuery

namespace Display

/-- A record: its name and its fields in order. -/
def record (name : String) (fields : List (String × String)) : String :=
  name ++ " \x7b " ++ ", ".intercalate (fields.map fun f => f.1 ++ ": " ++ f.2) ++ " \x7d"

/-- A variant with the value it carries. -/
def carrying (name value : String) : String := name ++ "(" ++ value ++ ")"

/-- A list of shown values. -/
def list (items : List String) : String := "[" ++ ", ".intercalate items ++ "]"

/-- A value that may be missing. -/
def option {α : Type} (show_ : α → String) : Option α → String
  | none => "None"
  | some x => carrying "Some" (show_ x)

/-- A list of texts. -/
def texts (xs : List String) : String := list (xs.map Text.quoted)

/-- A list of texts that may be missing. -/
def optionalTexts (xs : List (Option String)) : String := list (xs.map (option Text.quoted))

/-- A list of SQL type codes. -/
def codes (xs : List SqlCode) : String := list (xs.map fun c => toString c.toInt)

end Display

open Display

def EnumStorage.display : EnumStorage → String
  | .ordinal => "Ordinal"
  | .string nationalized => record "String" [("nationalized", toString nationalized)]

def ValueType.display : ValueType → String
  | .string => "String"
  | .character => "Character"
  | .boolean => "Boolean"
  | .byte => "Byte"
  | .short => "Short"
  | .integer => "Integer"
  | .long => "Long"
  | .float => "Float"
  | .double => "Double"
  | .bigInteger => "BigInteger"
  | .bigDecimal => "BigDecimal"
  | .date => "Date"
  | .time => "Time"
  | .timestamp => "Timestamp"
  | .binary => "Binary"
  | .enum name storage =>
    record "Enum" [("name", Text.quoted name), ("storage", storage.display)]

def BasicType.describe (t : BasicType) : String :=
  record "BasicType"
    [("java_type", t.valueType.display), ("sql_type_code", toString t.sqlCode.toInt),
     ("converter", option Text.quoted t.converter)]

def AnyType.describe (t : AnyType) : String :=
  record "AnyType"
    [("discriminator_type", t.discriminator.describe), ("identifier_type", t.identifier.describe)]

def DomainType.describe : DomainType → String
  | .basic t => carrying "Basic" t.describe
  | .entity name => carrying "Entity" (Text.quoted name)
  | .embeddable role => carrying "Embeddable" (Text.quoted role)
  | .any t => carrying "Any" t.describe
  | .collection role => carrying "Collection" (Text.quoted role)

def AssociationKind.display : AssociationKind → String
  | .manyToOne => "ManyToOne"
  | .primaryKeyOneToOne => "PrimaryKeyOneToOne"
  | .uniqueKeyOneToOne => "UniqueKeyOneToOne"

def ContainerKind.display : ContainerKind → String
  | .set => "Set"
  | .map => "Map"
  | .list => "List"
  | .other => "Other"

def CollectionShape.display : CollectionShape → String
  | .bag => "Bag"
  | .idBag => "IdBag"
  | .list => "List"
  | .array => "Array"
  | .set => "Set"
  | .orderedSet => "OrderedSet"
  | .sortedSet => "SortedSet"
  | .map => "Map"
  | .orderedMap => "OrderedMap"
  | .sortedMap => "SortedMap"
  | .custom container => carrying "Custom" container.display

def IndexMapping.display (m : IndexMapping) : String :=
  record "IndexMapping"
    [("index_type", m.indexType.describe), ("columns", texts m.columns),
     ("sql_type_codes", codes m.sqlCodes)]

namespace MappedType

mutual
/-- A storage description in full. -/
def display : MappedType → String
  | .basic t => carrying "Basic" t.describe
  | .component c => carrying "Component" (displayComponent c)
  | .any t => carrying "Any" t.describe
  | .association target kind =>
    record "Association" [("target_entity", Text.quoted target), ("kind", kind.display)]
  | .collection ⟨role, shape, table, keys, keyCodes, ⟨type, columns, formulas, sqlCodes⟩, index⟩ =>
    carrying "Collection" (record "CollectionMapping"
      [("role", Text.quoted role), ("shape", shape.display),
       ("collection_table", option Text.quoted table), ("key_columns", texts keys),
       ("key_sql_type_codes", codes keyCodes),
       ("element", record "ElementMapping"
         [("element_type", displayElement type), ("columns", optionalTexts columns),
          ("formulas", option optionalTexts formulas), ("sql_type_codes", codes sqlCodes)]),
       ("index", option IndexMapping.display index)])
def displayElement : ElementTypeOf MappedType → String
  | .basic t => carrying "Basic" t.describe
  | .component c => carrying "Component" (displayComponent c)
  | .any t => carrying "Any" t.describe
  | .entity target viaLinkTable =>
    record "Entity"
      [("target_entity", Text.quoted target), ("via_link_table", toString viaLinkTable)]
def displayComponent : ComponentMappingOf MappedType → String
  | ⟨name, attributes⟩ =>
    record "ComponentMapping"
      [("embeddable_name", Text.quoted name), ("attributes", list (displayAttributes attributes))]
def displayAttributes : List (AttributeMappingOf MappedType) → List String
  | [] => []
  | ⟨name, tableNumber, columns, formulas, sqlCodes, type⟩ :: rest =>
    record "AttributeMapping"
      [("name", Text.quoted name), ("table_number", toString tableNumber),
       ("columns", optionalTexts columns), ("formulas", option optionalTexts formulas),
       ("sql_type_codes", codes sqlCodes), ("mapped_type", display type)]
      :: displayAttributes rest
end

end MappedType

end EntityQuery
