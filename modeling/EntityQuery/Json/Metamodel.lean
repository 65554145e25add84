import EntityQuery.Json.Types
import EntityQuery.Metamodel

/-!
# Documents of metamodels

The written form of tables, columns, attributes and entities, and how tables, columns and plural
attributes are read.
-/

set_option autoImplicit false

namespace EntityQuery

/-! ## Tables -/

namespace TableId

def toDocument (id : TableId) : Document := .nat id.index

def ofDocument? (d : Document) : Option TableId := do return ⟨← d.nat?⟩

end TableId

namespace ColumnId

def toDocument (id : ColumnId) : Document :=
  .fields [("table", id.table.toDocument), ("index", .nat id.index)]

def ofDocument? (d : Document) : Option ColumnId := do
  match ← d.slots ["table", "index"] with
  | [table, index] =>
    return ⟨← table.required TableId.ofDocument?, ← index.required Document.nat?⟩
  | _ => none

end ColumnId

/-- A list of columns by their places. -/
def Document.columnIds (ids : List ColumnId) : Document := .list (ids.map (·.toDocument))

namespace TableReference

def toDocument : TableReference → Document
  | .physical name => .variant "physical" (.fields [("table_name", .text name)])
  | .derived expression => .variant "derived" (.fields [("expression", .text expression)])

def ofDocument? (d : Document) : Option TableReference := do
  match ← d.variant? with
  | ("physical", some d) =>
    match ← d.namedSlots ["table_name"] with
    | [name] => return .physical (← name.required Document.text?)
    | _ => none
  | ("derived", some d) =>
    match ← d.namedSlots ["expression"] with
    | [expression] => return .derived (← expression.required Document.text?)
    | _ => none
  | _ => none

end TableReference

namespace ColumnExpression

def toDocument : ColumnExpression → Document
  | .column name => .variant "column" (.text name)
  | .formula text => .variant "formula" (.text text)

def ofDocument? (d : Document) : Option ColumnExpression := do
  match ← d.variant? with
  | ("column", some d) => return .column (← d.text?)
  | ("formula", some d) => return .formula (← d.text?)
  | _ => none

end ColumnExpression

def Column.toDocument (c : Column) : Document :=
  .fields [("expression", c.expression.toDocument), ("sql_type_code", .code c.sqlCode)]

def Table.toDocument (t : Table) : Document :=
  .fields [("reference", t.reference.toDocument), ("columns", .list (t.columns.map (·.toDocument)))]

/-! ## Classes -/

namespace SingularClass

def toDocument (c : SingularClass) : Document := .text c.display

end SingularClass

namespace CollectionClass

def toDocument : CollectionClass → Document
  | .bag => .text "BAG"
  | .list => .text "LIST"
  | .set => .text "SET"
  | .map => .text "MAP"

def ofDocument? : Document → Option CollectionClass :=
  Document.enum? [("BAG", .bag), ("LIST", .list), ("SET", .set), ("MAP", .map)]

end CollectionClass

namespace ElementClass

def toDocument : ElementClass → Document
  | .basic => .text "BASIC"
  | .embeddable => .text "EMBEDDABLE"
  | .any => .text "ANY"
  | .oneToMany => .text "ONE_TO_MANY"
  | .manyToMany => .text "MANY_TO_MANY"

def ofDocument? : Document → Option ElementClass :=
  Document.enum? [("BASIC", .basic), ("EMBEDDABLE", .embeddable), ("ANY", .any),
    ("ONE_TO_MANY", .oneToMany), ("MANY_TO_MANY", .manyToMany)]

end ElementClass

def AttributeClass.toDocument : AttributeClass → Document
  | .singular c => .variant "Singular" c.toDocument
  | .plural collection element =>
    .variant "Plural" (.fields [("collection", collection.toDocument), ("element", element.toDocument)])

/-! ## Attributes -/

namespace ManagedType

def toDocument : ManagedType → Document
  | .entity name => .variant "entity" (.text name)
  | .embeddable role => .variant "embeddable" (.text role)

def ofDocument? (d : Document) : Option ManagedType := do
  match ← d.variant? with
  | ("entity", some d) => return .entity (← d.text?)
  | ("embeddable", some d) => return .embeddable (← d.text?)
  | _ => none

end ManagedType

def SingularAttribute.toDocument (a : SingularAttribute) : Document :=
  .fields [("declaring_type", a.declaringType.toDocument), ("name", .text a.name),
    ("classification", a.kind.toDocument), ("attribute_type", a.attributeType.toDocument),
    ("columns", .columnIds a.columns), ("table_position", .nat a.tablePosition),
    ("is_identifier", .bool a.isIdentifier)]

namespace Element

def toDocument (e : Element) : Document :=
  .fields [("classification", e.kind.toDocument), ("element_type", e.elementType.toDocument),
    ("columns", .columnIds e.columns)]

def ofDocument? (d : Document) : Option Element := do
  match ← d.slots ["classification", "element_type", "columns"] with
  | [kind, type, columns] =>
    return ⟨← kind.required ElementClass.ofDocument?, ← type.required DomainType.ofDocument?,
      ← columns.required (Document.list? ColumnId.ofDocument?)⟩
  | _ => none

end Element

namespace Index

def toDocument (i : Index) : Document :=
  .fields [("index_type", i.indexType.toDocument), ("columns", .columnIds i.columns)]

def ofDocument? (d : Document) : Option Index := do
  match ← d.slots ["index_type", "columns"] with
  | [type, columns] =>
    return ⟨← type.required DomainType.ofDocument?,
      ← columns.required (Document.list? ColumnId.ofDocument?)⟩
  | _ => none

end Index

namespace PluralAttribute

def toDocument (p : PluralAttribute) : Document :=
  .fields [("declaring_type", p.declaringType.toDocument), ("name", .text p.name),
    ("role", .text p.role), ("collection_classification", p.collectionClass.toDocument),
    ("element", p.element.toDocument), ("index", .option Index.toDocument p.index),
    ("key_columns", .columnIds p.keyColumns),
    ("collection_table", .option TableId.toDocument p.collectionTable)]

def ofDocument? (d : Document) : Option PluralAttribute := do
  match ← d.slots ["declaring_type", "name", "role", "collection_classification", "element",
      "index", "key_columns", "collection_table"] with
  | [type, name, role, collectionClass, element, index, keyColumns, table] =>
    return ⟨← type.required ManagedType.ofDocument?, ← name.required Document.text?,
      ← role.required Document.text?, ← collectionClass.required CollectionClass.ofDocument?,
      ← element.required Element.ofDocument?, ← index.nullable Index.ofDocument?,
      ← keyColumns.required (Document.list? ColumnId.ofDocument?),
      ← table.nullable TableId.ofDocument?⟩
  | _ => none

end PluralAttribute

def Attribute.toDocument : Attribute → Document
  | .singular a => .variant "Singular" a.toDocument
  | .plural p => .variant "Plural" p.toDocument

def Entity.toDocument (e : Entity) : Document :=
  .fields [("name", .text e.name), ("super_entity", .option .text e.parent),
    ("tables", .list (e.tables.map (·.toDocument))), ("identifier", e.identifier.toDocument),
    ("attributes", .list (e.attributes.map (·.toDocument)))]

def Embeddable.toDocument (e : Embeddable) : Document :=
  .fields [("role", .text e.role), ("embeddable_name", .text e.name),
    ("attributes", .list (e.attributes.map (·.toDocument)))]

/-! ## Metamodels -/

namespace Metamodel

/-- The roles of the embeddables that attributes have or consist of. -/
def embeddableRoles (attributes : List Attribute) : List String :=
  attributes.filterMap fun a =>
    match a with
    | .singular { attributeType := .embeddable role, .. } => some role
    | .plural { element := { elementType := .embeddable role, .. }, .. } => some role
    | _ => none

/-- The embeddables of the given roles, and those that they consist of, each once and down to the
given depth. -/
def reachable (m : Metamodel) : Nat → List (String × Embeddable) → List String → List (String × Embeddable)
  | 0, found, _ => found
  | depth + 1, found, roles =>
    roles.foldl (fun found role =>
      match m.embeddables.lookup role, found.lookup role with
      | some e, none => m.reachable depth (found ++ [(role, e)]) (embeddableRoles e.attributes)
      | _, _ => found) found

/-- The embeddables that can be reached from the attributes of entities. -/
def usedEmbeddables (m : Metamodel) : List (String × Embeddable) :=
  m.reachable (m.embeddables.length + 1) []
    (m.entities.flatMap fun e => embeddableRoles (.singular e.identifier :: e.attributes))

/-- The collections that entities have, by role. -/
def usedCollections (m : Metamodel) : List (String × PluralAttribute) :=
  m.collections.filter fun entry =>
    m.entities.any fun e => e.attributes.any fun a =>
      match a with
      | .plural p => p.role = entry.1
      | .singular _ => false

def toDocument (m : Metamodel) : Document :=
  .fields [("entities", .list (m.entities.map (·.toDocument))),
    ("embeddables", .fields (m.usedEmbeddables.map fun e => (e.1, e.2.toDocument))),
    ("collections", .fields (m.usedCollections.map fun p => (p.1, p.2.toDocument))),
    ("tables", .list (m.database.tables.map (·.toDocument)))]

end Metamodel

end EntityQuery
