import EntityQuery.Json.Types
import EntityQuery.Mapping

/-!
# Documents of mappings

The written form of raw mappings, and how it is read. Components may be nested, so readers of
storage descriptions are built for a given depth and used at the depth of the document.
-/

set_option autoImplicit false

namespace EntityQuery

/-! ## Enumerations -/

namespace AssociationKind

def toDocument : AssociationKind → Document
  | .manyToOne => .text "many_to_one"
  | .primaryKeyOneToOne => .text "primary_key_one_to_one"
  | .uniqueKeyOneToOne => .text "unique_key_one_to_one"

def ofDocument? : Document → Option AssociationKind :=
  Document.enum? [("many_to_one", .manyToOne), ("primary_key_one_to_one", .primaryKeyOneToOne),
    ("unique_key_one_to_one", .uniqueKeyOneToOne)]

end AssociationKind

namespace ContainerKind

def toDocument : ContainerKind → Document
  | .set => .text "set"
  | .map => .text "map"
  | .list => .text "list"
  | .other => .text "other"

/-- The kinds by their names, in their order. -/
def named : List (String × ContainerKind) :=
  [("set", .set), ("map", .map), ("list", .list), ("other", .other)]

def ofDocument? : Document → Option ContainerKind := Document.enum? named

/-- The kind in a settled document. -/
def ofSettled? (d : Document) : Option ContainerKind := ofDocument? (d.plain (named.map Prod.fst))

end ContainerKind

namespace CollectionShape

def toDocument : CollectionShape → Document
  | .bag => .text "bag"
  | .idBag => .text "id_bag"
  | .list => .text "list"
  | .array => .text "array"
  | .set => .text "set"
  | .orderedSet => .text "ordered_set"
  | .sortedSet => .text "sorted_set"
  | .map => .text "map"
  | .orderedMap => .text "ordered_map"
  | .sortedMap => .text "sorted_map"
  | .custom container => .variant "custom" container.toDocument

/-- The shapes without a container by their names, in their order. -/
def named : List (String × CollectionShape) :=
  [("bag", .bag), ("id_bag", .idBag), ("list", .list), ("array", .array), ("set", .set),
   ("ordered_set", .orderedSet), ("sorted_set", .sortedSet), ("map", .map),
   ("ordered_map", .orderedMap), ("sorted_map", .sortedMap)]

/-- A shape, the container of which is read by `container`. -/
def read? (container : Reader ContainerKind) : Reader CollectionShape := fun d => do
  match ← d.variant? with
  | ("custom", some payload) => return .custom (← container payload)
  | _ => d.enum? named

def ofDocument? : Document → Option CollectionShape := read? ContainerKind.ofDocument?

/-- The shape in a settled document. -/
def ofSettled? (d : Document) : Option CollectionShape :=
  read? ContainerKind.ofSettled? (d.plain (named.map Prod.fst ++ ["custom"]))

end CollectionShape

/-! ## Slots -/

/-- A row of columns or formulas, with gaps. -/
def Document.gaps (xs : List (Option String)) : Document := .list (xs.map (.option .text))

/-- A row of columns or formulas, with gaps. -/
def Document.gaps? : Reader (List (Option String)) := Document.list? (Document.option? Document.text?)

namespace IndexMapping

def toDocument (m : IndexMapping) : Document :=
  .fields [("index_type", m.indexType.toDocument), ("columns", .texts m.columns),
    ("sql_type_codes", .codes m.sqlCodes)]

def ofDocument? (d : Document) : Option IndexMapping := do
  match ← d.slots ["index_type", "columns", "sql_type_codes"] with
  | [type, columns, codes] =>
    return ⟨← type.required DomainType.ofDocument?, ← columns.required (Document.list? Document.text?),
      ← codes.required (Document.list? Document.int32?)⟩
  | _ => none

end IndexMapping

/-! ## Storage -/

namespace MappedType

mutual
def toDocument : MappedType → Document
  | .basic t => .variant "basic" t.toDocument
  | .component c => .variant "component" (componentDocument c)
  | .any t => .variant "any" t.toDocument
  | .association target kind =>
    .variant "association" (.fields [("target_entity", .text target), ("kind", kind.toDocument)])
  | .collection ⟨role, shape, table, keys, keyCodes, ⟨type, columns, formulas, codes⟩, index⟩ =>
    .variant "collection" (.fields
      [("role", .text role), ("shape", shape.toDocument), ("collection_table", .option .text table),
       ("key_columns", .texts keys), ("key_sql_type_codes", .codes keyCodes),
       ("element", .fields
         [("element_type", elementDocument type), ("columns", .gaps columns),
          ("formulas", .option .gaps formulas), ("sql_type_codes", .codes codes)]),
       ("index", .option IndexMapping.toDocument index)])
def elementDocument : ElementTypeOf MappedType → Document
  | .basic t => .variant "basic" t.toDocument
  | .component c => .variant "component" (componentDocument c)
  | .any t => .variant "any" t.toDocument
  | .entity target viaLinkTable =>
    .variant "entity"
      (.fields [("target_entity", .text target), ("via_link_table", .bool viaLinkTable)])
def componentDocument : ComponentMappingOf MappedType → Document
  | ⟨name, attributes⟩ =>
    .fields [("embeddable_name", .text name), ("attributes", .list (attributeDocuments attributes))]
def attributeDocuments : List (AttributeMappingOf MappedType) → List Document
  | [] => []
  | ⟨name, tableNumber, columns, formulas, codes, type⟩ :: rest =>
    .fields [("name", .text name), ("table_number", .nat tableNumber), ("columns", .gaps columns),
      ("formulas", .option .gaps formulas), ("sql_type_codes", .codes codes),
      ("mapped_type", toDocument type)]
      :: attributeDocuments rest
end

/-- An attribute mapping, whose storage is read by `mapped`. -/
def attribute? (mapped : Reader MappedType) : Reader AttributeMapping := fun d => do
  match ← d.slots ["name", "table_number", "columns", "formulas", "sql_type_codes", "mapped_type"] with
  | [name, tableNumber, columns, formulas, codes, type] =>
    return ⟨← name.required Document.text?, ← tableNumber.required Document.nat?,
      ← columns.required Document.gaps?, ← formulas.nullable Document.gaps?,
      ← codes.required (Document.list? Document.int32?), ← type.required mapped⟩
  | _ => none

/-- A component, the storage of whose attributes is read by `mapped`. -/
def component? (mapped : Reader MappedType) : Reader ComponentMapping := fun d => do
  match ← d.slots ["embeddable_name", "attributes"] with
  | [name, attributes] =>
    return ⟨← name.required Document.text?, ← attributes.required (Document.list? (attribute? mapped))⟩
  | _ => none

/-- The type of the elements of a collection. -/
def elementType? (mapped : Reader MappedType) : Reader ElementType := fun d => do
  match ← d.variant? with
  | ("basic", some d) => return .basic (← BasicType.ofDocument? d)
  | ("component", some d) => return .component (← component? mapped d)
  | ("any", some d) => return .any (← AnyType.ofDocument? d)
  | ("entity", some d) =>
    match ← d.namedSlots ["target_entity", "via_link_table"] with
    | [target, viaLinkTable] =>
      return .entity (← target.required Document.text?) (← viaLinkTable.required Document.bool?)
    | _ => none
  | _ => none

/-- The elements of a collection. -/
def element? (mapped : Reader MappedType) : Reader ElementMapping := fun d => do
  match ← d.slots ["element_type", "columns", "formulas", "sql_type_codes"] with
  | [type, columns, formulas, codes] =>
    return ⟨← type.required (elementType? mapped), ← columns.required Document.gaps?,
      ← formulas.nullable Document.gaps?, ← codes.required (Document.list? Document.int32?)⟩
  | _ => none

/-- A collection. -/
def collection? (mapped : Reader MappedType) : Reader CollectionMapping := fun d => do
  match ← d.slots ["role", "shape", "collection_table", "key_columns", "key_sql_type_codes",
      "element", "index"] with
  | [role, shape, table, keys, keyCodes, element, index] =>
    return ⟨← role.required Document.text?, ← shape.required CollectionShape.ofDocument?,
      ← table.nullable Document.text?, ← keys.required (Document.list? Document.text?),
      ← keyCodes.required (Document.list? Document.int32?), ← element.required (element? mapped),
      ← index.nullable IndexMapping.ofDocument?⟩
  | _ => none

/-- A storage description, whose parts are read by `mapped`. -/
def layer? (mapped : Reader MappedType) : Reader MappedType := fun d => do
  match ← d.variant? with
  | ("basic", some d) => return .basic (← BasicType.ofDocument? d)
  | ("component", some d) => return .component (← component? mapped d)
  | ("any", some d) => return .any (← AnyType.ofDocument? d)
  | ("association", some d) =>
    match ← d.namedSlots ["target_entity", "kind"] with
    | [target, kind] =>
      return .association (← target.required Document.text?) (← kind.required AssociationKind.ofDocument?)
    | _ => none
  | ("collection", some d) => return .collection (← collection? mapped d)
  | _ => none

/-- A storage description with parts nested at most `depth` deep. -/
def within? : Nat → Reader MappedType
  | 0 => fun _ => none
  | depth + 1 => layer? (within? depth)

def ofDocument? (d : Document) : Option MappedType := within? d.depth d

end MappedType

/-- The document of one attribute mapping. -/
def AttributeMappingOf.toDocument (m : AttributeMapping) : Document :=
  .fields [("name", .text m.name), ("table_number", .nat m.tableNumber),
    ("columns", .gaps m.columns), ("formulas", .option .gaps m.formulas),
    ("sql_type_codes", .codes m.sqlCodes), ("mapped_type", m.mappedType.toDocument)]

namespace IdentifierMapping

def toDocument (m : IdentifierMapping) : Document :=
  .fields [("name", .text m.name), ("columns", .texts m.columns),
    ("sql_type_codes", .codes m.sqlCodes), ("id_type", m.idType.toDocument)]

def ofDocument? (d : Document) : Option IdentifierMapping := do
  match ← d.slots ["name", "columns", "sql_type_codes", "id_type"] with
  | [name, columns, codes, type] =>
    return ⟨← name.required Document.text?, ← columns.required (Document.list? Document.text?),
      ← codes.required (Document.list? Document.int32?), ← type.required MappedType.ofDocument?⟩
  | _ => none

end IdentifierMapping

namespace EntityMapping

def toDocument (m : EntityMapping) : Document :=
  .fields [("entity_name", .text m.name), ("super_entity_name", .option .text m.parent),
    ("table_expressions", .texts m.tables), ("identifier", m.identifier.toDocument),
    ("attributes", .list (m.attributes.map (·.toDocument)))]

/-- The attributes may be left out. -/
def ofDocument? (d : Document) : Option EntityMapping := do
  match ← d.namedSlots ["entity_name", "super_entity_name", "table_expressions", "identifier",
      "attributes"] with
  | [name, parent, tables, identifier, attributes] =>
    return ⟨← name.required Document.text?, ← parent.optional Document.text?,
      ← tables.required (Document.list? Document.text?),
      ← identifier.required IdentifierMapping.ofDocument?,
      (← attributes.optional (Document.list? (MappedType.attribute? MappedType.ofDocument?))).getD []⟩
  | _ => none

end EntityMapping

end EntityQuery
