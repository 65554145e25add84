import EntityQuery.Definition
import EntityQuery.Json.Mapping

/-!
# Documents of definitions

The written form of definitions, and how it is read. Attributes and elements say by their member
`kind` which of the alternatives they are. What an attribute holds beside its kind is settled
before anything is read from it.

A `Format` says what differs from one text format to another: how a record is laid out, where a
list may stand for a record in one format and only an object in another, and how an attribute is
settled.
-/

set_option autoImplicit false

namespace EntityQuery

/-- How records are laid out, and the settled form of what an attribute holds. -/
structure Format where
  layout : Layout
  settle : Document → Option Document

/-- Documents of JSON are settled as they are. -/
def Format.json : Format := ⟨Document.slots, some⟩

namespace Document

/-- Whether a key names the kind. -/
def isKind : Document → Bool
  | .text s => s = "kind"
  | .bare s => s = "kind"
  | _ => false

/-- The name of a kind, which is one of `kinds` when a number stands for it. -/
def kindName? (kinds : List String) (d : Document) : Option String := (keyName? kinds d).join

/-- The kind of an object or list that names its kind, with what is left of it. A number may stand
for one of `kinds`. -/
def kind? (kinds : List String) : Document → Option (String × Document)
  | .fields members =>
    match members.filter (·.1 = "kind") with
    | [(_, kind)] => do
      return (← kindName? kinds kind, .fields (members.filter (·.1 ≠ "kind")))
    | _ => none
  | .mapping members =>
    match members.filter (·.1.isKind) with
    | [(_, kind)] => do
      return (← kindName? kinds kind, .mapping (members.filter (!·.1.isKind)))
    | _ => none
  | .list (kind :: rest) => do return (← kindName? kinds kind, .list rest)
  | _ => none

end Document

/-- The document of an alternative: its kind, then its fields. -/
def Document.ofKind (kind : String) (fields : List (String × Document)) : Document :=
  .fields (("kind", .text kind) :: fields)

/-- A list of texts. -/
def Document.texts? : Reader (List String) := Document.list? Document.text?

/-! ## Enumerations -/

namespace Inheritance

def toDocument : Inheritance → Document
  | .joined => .text "joined"
  | .singleTable => .text "single_table"

def ofDocument? : Document → Option Inheritance :=
  Document.enum? [("joined", .joined), ("single_table", .singleTable)]

end Inheritance

namespace EnumForm

def toDocument : EnumForm → Document
  | .ordinal => .text "ordinal"
  | .string => .text "string"
  | .nationalizedString => .text "nationalized_string"

/-- The forms by their names, in their order. -/
def named : List (String × EnumForm) :=
  [("ordinal", .ordinal), ("string", .string), ("nationalized_string", .nationalizedString)]

/-- The form in a settled document. -/
def ofDocument? (d : Document) : Option EnumForm :=
  Document.enum? named (d.plain (named.map Prod.fst))

end EnumForm

/-! ## Attributes -/

namespace BasicDefinition

def fields (d : BasicDefinition) : List (String × Document) :=
  [("name", .text d.name), ("type", .text d.typeName), ("column", .option .text d.column),
   ("columns", .texts d.columns), ("formula", .option .text d.formula),
   ("sql_type", .option .code d.sqlType), ("converter", .option .text d.converter),
   ("enum_storage", .option EnumForm.toDocument d.enumStorage), ("table", .option .text d.table)]

def ofDocument? (d : Document) : Option BasicDefinition := do
  match ← d.slots ["name", "type", "column", "columns", "formula", "sql_type", "converter",
      "enum_storage", "table"] with
  | [name, typeName, column, columns, formula, sqlType, converter, enumStorage, table] =>
    return ⟨← name.required Document.text?, ← typeName.orElse "string" Document.text?,
      ← column.optional Document.text?, ← columns.orElse [] Document.texts?,
      ← formula.optional Document.text?, ← sqlType.optional Document.int32?,
      ← converter.optional Document.text?, ← enumStorage.optional EnumForm.ofDocument?,
      ← table.optional Document.text?⟩
  | _ => none

end BasicDefinition

namespace EmbeddedDefinition

def fields (d : EmbeddedDefinition) : List (String × Document) :=
  [("name", .text d.name), ("embeddable", .text d.embeddable), ("table", .option .text d.table)]

def ofDocument? (d : Document) : Option EmbeddedDefinition := do
  match ← d.slots ["name", "embeddable", "table"] with
  | [name, embeddable, table] =>
    return ⟨← name.required Document.text?, ← embeddable.required Document.text?,
      ← table.optional Document.text?⟩
  | _ => none

end EmbeddedDefinition

namespace AnyDefinition

def fields (d : AnyDefinition) : List (String × Document) :=
  [("name", .text d.name), ("discriminator_column", .text d.discriminatorColumn),
   ("identifier_column", .text d.identifierColumn),
   ("discriminator_type", .text d.discriminatorType),
   ("identifier_type", .text d.identifierType), ("table", .option .text d.table)]

def ofDocument? (d : Document) : Option AnyDefinition := do
  match ← d.slots ["name", "discriminator_column", "identifier_column", "discriminator_type",
      "identifier_type", "table"] with
  | [name, discriminatorColumn, identifierColumn, discriminatorType, identifierType, table] =>
    return ⟨← name.required Document.text?, ← discriminatorColumn.required Document.text?,
      ← identifierColumn.required Document.text?, ← discriminatorType.orElse "string" Document.text?,
      ← identifierType.orElse "long" Document.text?, ← table.optional Document.text?⟩
  | _ => none

end AnyDefinition

namespace ToOneDefinition

def fields (d : ToOneDefinition) : List (String × Document) :=
  [("name", .text d.name), ("target", .text d.target), ("column", .option .text d.column),
   ("columns", .texts d.columns), ("primary_key", .bool d.primaryKey),
   ("table", .option .text d.table)]

def ofDocument? (d : Document) : Option ToOneDefinition := do
  match ← d.slots ["name", "target", "column", "columns", "primary_key", "table"] with
  | [name, target, column, columns, primaryKey, table] =>
    return ⟨← name.required Document.text?, ← target.required Document.text?,
      ← column.optional Document.text?, ← columns.orElse [] Document.texts?,
      ← primaryKey.orElse false Document.bool?, ← table.optional Document.text?⟩
  | _ => none

end ToOneDefinition

namespace IndexDefinition

def toDocument (d : IndexDefinition) : Document :=
  .fields [("columns", .texts d.columns), ("type", .text d.typeName)]

def ofDocument? (d : Document) : Option IndexDefinition := do
  match ← d.slots ["columns", "type"] with
  | [columns, typeName] =>
    return ⟨← columns.required Document.texts?, ← typeName.orElse "integer" Document.text?⟩
  | _ => none

end IndexDefinition

namespace OneToManyDefinition

def fields (d : OneToManyDefinition) : List (String × Document) :=
  [("name", .text d.name), ("target", .text d.target), ("key_columns", .texts d.keyColumns),
   ("shape", d.shape.toDocument), ("index", .option IndexDefinition.toDocument d.index)]

def ofDocument? (d : Document) : Option OneToManyDefinition := do
  match ← d.slots ["name", "target", "key_columns", "shape", "index"] with
  | [name, target, keyColumns, shape, index] =>
    return ⟨← name.required Document.text?, ← target.required Document.text?,
      ← keyColumns.required Document.texts?, ← shape.orElse .bag CollectionShape.ofSettled?,
      ← index.optional IndexDefinition.ofDocument?⟩
  | _ => none

end OneToManyDefinition

namespace ManyToManyDefinition

def fields (d : ManyToManyDefinition) : List (String × Document) :=
  [("name", .text d.name), ("target", .text d.target),
   ("collection_table", .text d.collectionTable), ("key_columns", .texts d.keyColumns),
   ("element_columns", .texts d.elementColumns), ("shape", d.shape.toDocument),
   ("index", .option IndexDefinition.toDocument d.index)]

def ofDocument? (d : Document) : Option ManyToManyDefinition := do
  match ← d.slots ["name", "target", "collection_table", "key_columns", "element_columns", "shape",
      "index"] with
  | [name, target, collectionTable, keyColumns, elementColumns, shape, index] =>
    return ⟨← name.required Document.text?, ← target.required Document.text?,
      ← collectionTable.required Document.text?, ← keyColumns.required Document.texts?,
      ← elementColumns.required Document.texts?, ← shape.orElse .bag CollectionShape.ofSettled?,
      ← index.optional IndexDefinition.ofDocument?⟩
  | _ => none

end ManyToManyDefinition

namespace ElementDefinition

def toDocument : ElementDefinition → Document
  | .basic typeName column sqlType enumStorage =>
    .ofKind "basic" [("type", .text typeName), ("column", .option .text column),
      ("sql_type", .option .code sqlType),
      ("enum_storage", .option EnumForm.toDocument enumStorage)]
  | .embeddable name => .ofKind "embeddable" [("embeddable", .text name)]
  | .any discriminatorColumn identifierColumn discriminatorType identifierType =>
    .ofKind "any" [("discriminator_column", .text discriminatorColumn),
      ("identifier_column", .text identifierColumn),
      ("discriminator_type", .text discriminatorType), ("identifier_type", .text identifierType)]

/-- The kinds of elements, in their order. -/
def kinds : List String := ["basic", "embeddable", "any"]

def ofDocument? (d : Document) : Option ElementDefinition := do
  match ← d.kind? kinds with
  | ("basic", rest) =>
    match ← rest.slots ["type", "column", "sql_type", "enum_storage"] with
    | [typeName, column, sqlType, enumStorage] =>
      return .basic (← typeName.orElse "string" Document.text?) (← column.optional Document.text?)
        (← sqlType.optional Document.int32?) (← enumStorage.optional EnumForm.ofDocument?)
    | _ => none
  | ("embeddable", rest) =>
    match ← rest.slots ["embeddable"] with
    | [name] => return .embeddable (← name.required Document.text?)
    | _ => none
  | ("any", rest) =>
    match ← rest.slots ["discriminator_column", "identifier_column", "discriminator_type",
        "identifier_type"] with
    | [discriminatorColumn, identifierColumn, discriminatorType, identifierType] =>
      return .any (← discriminatorColumn.required Document.text?)
        (← identifierColumn.required Document.text?)
        (← discriminatorType.orElse "string" Document.text?)
        (← identifierType.orElse "long" Document.text?)
    | _ => none
  | _ => none

end ElementDefinition

namespace ElementCollectionDefinition

def fields (d : ElementCollectionDefinition) : List (String × Document) :=
  [("name", .text d.name), ("collection_table", .text d.collectionTable),
   ("key_columns", .texts d.keyColumns), ("element", d.element.toDocument),
   ("shape", d.shape.toDocument), ("index", .option IndexDefinition.toDocument d.index)]

def ofDocument? (d : Document) : Option ElementCollectionDefinition := do
  match ← d.slots ["name", "collection_table", "key_columns", "element", "shape", "index"] with
  | [name, collectionTable, keyColumns, element, shape, index] =>
    return ⟨← name.required Document.text?, ← collectionTable.required Document.text?,
      ← keyColumns.required Document.texts?, ← element.required ElementDefinition.ofDocument?,
      ← shape.orElse .bag CollectionShape.ofSettled?,
      ← index.optional IndexDefinition.ofDocument?⟩
  | _ => none

end ElementCollectionDefinition

namespace AttributeDefinition

def toDocument : AttributeDefinition → Document
  | .basic d => .ofKind "basic" d.fields
  | .embedded d => .ofKind "embedded" d.fields
  | .any d => .ofKind "any" d.fields
  | .manyToOne d => .ofKind "many_to_one" d.fields
  | .oneToOne d => .ofKind "one_to_one" d.fields
  | .oneToMany d => .ofKind "one_to_many" d.fields
  | .manyToMany d => .ofKind "many_to_many" d.fields
  | .elementCollection d => .ofKind "element_collection" d.fields

/-- The attribute in a document, settled by `settle`. The kind of an attribute has to be named. -/
def read? (settle : Document → Option Document) : Reader AttributeDefinition := fun d => do
  let (kind, rest) ← d.kind? []
  let rest ← settle rest
  match kind with
  | "basic" => return .basic (← BasicDefinition.ofDocument? rest)
  | "embedded" => return .embedded (← EmbeddedDefinition.ofDocument? rest)
  | "any" => return .any (← AnyDefinition.ofDocument? rest)
  | "many_to_one" => return .manyToOne (← ToOneDefinition.ofDocument? rest)
  | "one_to_one" => return .oneToOne (← ToOneDefinition.ofDocument? rest)
  | "one_to_many" => return .oneToMany (← OneToManyDefinition.ofDocument? rest)
  | "many_to_many" => return .manyToMany (← ManyToManyDefinition.ofDocument? rest)
  | "element_collection" =>
    return .elementCollection (← ElementCollectionDefinition.ofDocument? rest)
  | _ => none

/-- The attribute in a JSON document. -/
def ofDocument? : Document → Option AttributeDefinition := read? Format.json.settle

end AttributeDefinition

/-! ## Entities and embeddables -/

namespace IdentifierDefinition

def toDocument (d : IdentifierDefinition) : Document :=
  .fields [("name", .text d.name), ("columns", .texts d.columns),
    ("type", .option .text d.typeName), ("embeddable", .option .text d.embeddable)]

def read? (layout : Layout) : Reader IdentifierDefinition := fun d => do
  match ← layout ["name", "columns", "type", "embeddable"] d with
  | [name, columns, typeName, embeddable] =>
    return ⟨← name.orElse "id" Document.text?, ← columns.orElse [] Document.texts?,
      ← typeName.optional Document.text?, ← embeddable.optional Document.text?⟩
  | _ => none

end IdentifierDefinition

namespace EntityDefinition

def toDocument (d : EntityDefinition) : Document :=
  .fields [("name", .text d.name), ("extends", .option .text d.parent),
    ("table", .option .text d.table), ("secondary_tables", .texts d.secondaryTables),
    ("inheritance", .option Inheritance.toDocument d.inheritance),
    ("identifier", .option IdentifierDefinition.toDocument d.identifier),
    ("key_columns", .option .texts d.keyColumns),
    ("attributes", .list (d.attributes.map (·.toDocument)))]

def read? (format : Format) : Reader EntityDefinition := fun d => do
  match ← format.layout ["name", "extends", "table", "secondary_tables", "inheritance", "identifier",
      "key_columns", "attributes"] d with
  | [name, parent, table, secondaryTables, inheritance, identifier, keyColumns, attributes] =>
    return ⟨← name.required Document.text?, ← parent.optional Document.text?,
      ← table.optional Document.text?, ← secondaryTables.orElse [] Document.texts?,
      ← inheritance.optional Inheritance.ofDocument?,
      ← identifier.optional (IdentifierDefinition.read? format.layout),
      ← keyColumns.optional Document.texts?,
      ← attributes.orElse [] (Document.list? (AttributeDefinition.read? format.settle))⟩
  | _ => none

end EntityDefinition

namespace EmbeddableDefinition

def toDocument (d : EmbeddableDefinition) : Document :=
  .fields [("name", .text d.name), ("attributes", .list (d.attributes.map (·.toDocument)))]

def read? (format : Format) : Reader EmbeddableDefinition := fun d => do
  match ← format.layout ["name", "attributes"] d with
  | [name, attributes] =>
    return ⟨← name.required Document.text?,
      ← attributes.required (Document.list? (AttributeDefinition.read? format.settle))⟩
  | _ => none

end EmbeddableDefinition

namespace Definition

def toDocument (d : Definition) : Document :=
  .fields [("name", .option .text d.name), ("entities", .list (d.entities.map (·.toDocument))),
    ("embeddables", .list (d.embeddables.map (·.toDocument)))]

/-- The definition in a document of the given format. -/
def read? (format : Format) : Reader Definition := fun d => do
  match ← format.layout ["name", "entities", "embeddables"] d with
  | [name, entities, embeddables] =>
    return ⟨← name.optional Document.text?,
      ← entities.required (Document.list? (EntityDefinition.read? format)),
      ← embeddables.orElse [] (Document.list? (EmbeddableDefinition.read? format))⟩
  | _ => none

/-- The definition in a JSON document. -/
def ofDocument? : Document → Option Definition := read? .json

end Definition

end EntityQuery
