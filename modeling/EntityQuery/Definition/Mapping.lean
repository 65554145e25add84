import EntityQuery.Definition.Hierarchy
import EntityQuery.Metamodel.Build

/-!
# From definitions to mappings

Each entity of a definition gives a mapping: the tables of its line, the identifier of its
hierarchy, and the attributes of its line with all columns and types filled in. The mappings of all
entities, registered in their order and built together, are the metamodel of the definition.

An embeddable is mapped anew wherever it is used. `ComponentMapper` is how that is done; it is
handed to the functions that map attributes, as an embeddable may use others, and the depth of
such nesting is at most the number of embeddables.
-/

set_option autoImplicit false

namespace EntityQuery

/-- How an embeddable is mapped: from the context it is used in, its name, and the number of the
table that holds it. -/
abbrev ComponentMapper := String → String → Nat → Except MetamodelError ComponentMapping

namespace Definition

/-- The entity of the given name, or the error that there is none. -/
def entity (d : Definition) (name : String) : Except MetamodelError EntityDefinition :=
  match d.entity? name with
  | some e => .ok e
  | none => .error (.unknownEntity name)

/-! ## Types -/

/-- The kind of values that a name stands for. -/
def valueType (name context : String) : Except MetamodelError ValueType :=
  match ValueType.ofName? name with
  | some t => .ok t
  | none => .error (.invalid (.unknownType name context))

/-- The type of a basic attribute; the name is that of an enumeration when its storage is given. -/
def basicType (name : String) (enumStorage : Option EnumForm) (sqlType : Option SqlCode)
    (converter : Option String) (context : String) : Except MetamodelError BasicType := do
  let type ← match enumStorage with
    | some form => pure (ValueType.enum name form.storage)
    | none => valueType name context
  return ⟨type, sqlType.getD type.recommendedCode, converter⟩

/-- The type of a reference of any kind. -/
def anyType (discriminator identifier context : String) : Except MetamodelError AnyType := do
  let discriminator ← valueType discriminator context
  let identifier ← valueType identifier context
  return ⟨BasicType.standard discriminator, BasicType.standard identifier⟩

/-! ## Identifiers -/

/-- The identifier of an entity's hierarchy. -/
def rootIdentifier (d : Definition) (e : EntityDefinition) :
    Except MetamodelError IdentifierDefinition := do
  let root ← d.root e
  match root.identifier with
  | some id => return id
  | none => throw (.invalid (.noIdentifier root.name))

/-- The named columns of a row of slots; a formula among them is an error. -/
def plainColumns (context : String) : List (Option String) → Except MetamodelError (List String)
  | [] => .ok []
  | some column :: rest => do return column :: (← plainColumns context rest)
  | none :: _ => .error (.invalid (.compositeFormula context))

/-- The slots of a component, in the order of its attributes. -/
def componentSlots (c : ComponentMapping) : List (Option String × SqlCode) :=
  c.attributes.flatMap fun a => a.columns.zip a.sqlCodes

/-- The columns and SQL types of an entity's identifier, as its hierarchy declares them. -/
def identifierSlots (d : Definition) (component : ComponentMapper) (e : EntityDefinition) :
    Except MetamodelError (List String × List SqlCode) := do
  let id ← d.rootIdentifier e
  let context := s!"{e.name}.{id.name}"
  match id.embeddable with
  | some name =>
    let slots := componentSlots (← component context name 0)
    let columns ← plainColumns context (slots.map (·.1))
    if id.columns.isEmpty then return (columns, slots.map (·.2))
    if id.columns.length ≠ columns.length then
      throw (.invalid (.compositeWidth context id.columns.length columns.length))
    return (id.columns, slots.map (·.2))
  | none =>
    let type ← valueType (id.typeName.getD "long") context
    let columns := if id.columns.isEmpty then [id.name] else id.columns
    return (columns, columns.map fun _ => type.recommendedCode)

/-- The SQL types of the identifier of the entity named `name`. -/
def identifierCodes (d : Definition) (component : ComponentMapper) (name : String) :
    Except MetamodelError (List SqlCode) := do
  return (← d.identifierSlots component (← d.entity name)).2

/-- The identifier of an entity. A subclass may name the columns on its own table. -/
def identifierMapping (d : Definition) (component : ComponentMapper) (e : EntityDefinition) :
    Except MetamodelError IdentifierMapping := do
  let id ← d.rootIdentifier e
  let context := s!"{e.name}.{id.name}"
  let (rootColumns, codes) ← d.identifierSlots component e
  let columns ← match e.keyColumns, e.parent with
    | some keys, some _ =>
      if keys.length ≠ rootColumns.length then
        throw (.invalid (.keyWidth e.name keys.length rootColumns.length))
      else pure keys
    | _, _ => pure rootColumns
  let type ← match id.embeddable with
    | some name => MappedType.component <$> component context name 0
    | none => do
      pure (MappedType.basic (BasicType.standard (← valueType (id.typeName.getD "long") context)))
  return ⟨id.name, columns, codes, type⟩

/-! ## Singular attributes -/

/-- The columns that an attribute names, `fallback` when it names none. -/
def namedColumns (column : Option String) (columns : List String) (fallback : List String) :
    List String :=
  match column.toList ++ columns with
  | [] => fallback
  | names => names

def basicMapping (d : BasicDefinition) (context : String) (tableNumber : Nat) :
    Except MetamodelError AttributeMapping := do
  let type ← basicType d.typeName d.enumStorage d.sqlType d.converter context
  match d.formula with
  | some formula => return ⟨d.name, tableNumber, [none], some [some formula], [type.sqlCode], .basic type⟩
  | none =>
    let columns := namedColumns d.column d.columns [d.name]
    return ⟨d.name, tableNumber, columns.map some, none, columns.map fun _ => type.sqlCode, .basic type⟩

/-- The formulas of an attribute, one place for each of its columns. -/
def formulaSlots (m : AttributeMapping) : List (Option String) :=
  m.formulas.getD (m.columns.map fun _ => none)

/-- The formulas of several attributes; absent when there is none among them. -/
def joinedFormulas (attributes : List AttributeMapping) : Option (List (Option String)) :=
  let formulas := attributes.flatMap formulaSlots
  if formulas.any (·.isSome) then some formulas else none

def embeddedMapping (d : EmbeddedDefinition) (component : ComponentMapper) (context : String)
    (tableNumber : Nat) : Except MetamodelError AttributeMapping := do
  let c ← component context d.embeddable tableNumber
  return ⟨d.name, tableNumber, c.attributes.flatMap (·.columns), joinedFormulas c.attributes,
    c.attributes.flatMap (·.sqlCodes), .component c⟩

def anyMapping (d : AnyDefinition) (context : String) (tableNumber : Nat) :
    Except MetamodelError AttributeMapping := do
  let type ← anyType d.discriminatorType d.identifierType context
  return ⟨d.name, tableNumber, [some d.discriminatorColumn, some d.identifierColumn], none,
    [type.discriminator.sqlCode, type.identifier.sqlCode], .any type⟩

/-- How a reference to a single entity is stored. -/
def associationKind (oneToOne primaryKey : Bool) (context : String) :
    Except MetamodelError AssociationKind :=
  match oneToOne, primaryKey with
  | true, true => .ok .primaryKeyOneToOne
  | true, false => .ok .uniqueKeyOneToOne
  | false, false => .ok .manyToOne
  | false, true => .error (.invalid (.primaryKey context))

/-- The columns that refer to another entity, where none are named. -/
def defaultReference (name : String) : AssociationKind → List String
  | .primaryKeyOneToOne => []
  | _ => [name ++ "_id"]

def toOneMapping (d : Definition) (component : ComponentMapper) (a : ToOneDefinition)
    (oneToOne : Bool) (context : String) (tableNumber : Nat) :
    Except MetamodelError AttributeMapping := do
  let kind ← associationKind oneToOne a.primaryKey context
  let columns := namedColumns a.column a.columns (defaultReference a.name kind)
  let targetCodes ← d.identifierCodes component a.target
  let mapping codes : AttributeMapping :=
    ⟨a.name, tableNumber, columns.map some, none, codes, .association a.target kind⟩
  if columns.isEmpty then return mapping []
  if columns.length ≠ targetCodes.length then
    throw (.invalid (.associationWidth context columns.length a.target targetCodes.length))
  return mapping targetCodes

/-! ## Collections -/

/-- The SQL types of the columns that refer back to the owner. -/
def keyCodes (d : Definition) (component : ComponentMapper) (owner : String) (columns : List String)
    (context : String) : Except MetamodelError (List SqlCode) := do
  let codes ← d.identifierCodes component owner
  if codes.length ≠ columns.length then
    throw (.invalid (.ownerWidth context columns.length codes.length))
  return codes

def indexMapping (index : Option IndexDefinition) (context : String) :
    Except MetamodelError (Option IndexMapping) := do
  match index with
  | none => return none
  | some index =>
    let type := BasicType.standard (← valueType index.typeName context)
    return some ⟨.basic type, index.columns, index.columns.map fun _ => type.sqlCode⟩

/-- The mapping of an attribute that is a collection. It has no slots of its own. -/
def collectionMapping (name : String) (tableNumber : Nat) (c : CollectionMapping) :
    AttributeMapping :=
  ⟨name, tableNumber, [], none, [], .collection c⟩

def oneToManyMapping (d : Definition) (component : ComponentMapper) (owner : String)
    (a : OneToManyDefinition) (context : String) (tableNumber : Nat) :
    Except MetamodelError AttributeMapping := do
  let _ ← d.entity a.target
  let codes ← d.keyCodes component owner a.keyColumns context
  let index ← indexMapping a.index context
  return collectionMapping a.name tableNumber
    ⟨context, a.shape, none, a.keyColumns, codes, ⟨.entity a.target false, [], none, []⟩, index⟩

def manyToManyMapping (d : Definition) (component : ComponentMapper) (owner : String)
    (a : ManyToManyDefinition) (context : String) (tableNumber : Nat) :
    Except MetamodelError AttributeMapping := do
  let elementCodes ← d.identifierCodes component a.target
  if elementCodes.length ≠ a.elementColumns.length then
    throw (.invalid
      (.elementWidth context a.elementColumns.length a.target elementCodes.length))
  let codes ← d.keyCodes component owner a.keyColumns context
  let index ← indexMapping a.index context
  return collectionMapping a.name tableNumber
    ⟨context, a.shape, some a.collectionTable, a.keyColumns, codes,
     ⟨.entity a.target true, a.elementColumns.map some, none, elementCodes⟩, index⟩

/-- The elements of a collection that are not entities. -/
def elementMapping (component : ComponentMapper) (context : String) :
    ElementDefinition → Except MetamodelError ElementMapping
  | .basic typeName column sqlType enumStorage => do
    let type ← basicType typeName enumStorage sqlType none context
    return ⟨.basic type, [some (column.getD "element")], none, [type.sqlCode]⟩
  | .embeddable name => do
    let c ← component context name 0
    return ⟨.component c, c.attributes.flatMap (·.columns), none, c.attributes.flatMap (·.sqlCodes)⟩
  | .any discriminatorColumn identifierColumn discriminatorType identifierType => do
    let type ← anyType discriminatorType identifierType context
    return ⟨.any type, [some discriminatorColumn, some identifierColumn], none,
      [type.discriminator.sqlCode, type.identifier.sqlCode]⟩

def elementCollectionMapping (d : Definition) (component : ComponentMapper) (owner : String)
    (a : ElementCollectionDefinition) (context : String) (tableNumber : Nat) :
    Except MetamodelError AttributeMapping := do
  let element ← elementMapping component context a.element
  let codes ← d.keyCodes component owner a.keyColumns context
  let index ← indexMapping a.index context
  return collectionMapping a.name tableNumber
    ⟨context, a.shape, some a.collectionTable, a.keyColumns, codes, element, index⟩

/-! ## Attributes, embeddables and entities -/

/-- The mapping of an attribute that `owner` declares, stored in the table of the given number. -/
def attributeMapping (d : Definition) (component : ComponentMapper) (owner : String)
    (tableNumber : Nat) (a : AttributeDefinition) : Except MetamodelError AttributeMapping :=
  let context := s!"{owner}.{a.name}"
  match a with
  | .basic a => basicMapping a context tableNumber
  | .embedded a => embeddedMapping a component context tableNumber
  | .any a => anyMapping a context tableNumber
  | .manyToOne a => d.toOneMapping component a false context tableNumber
  | .oneToOne a => d.toOneMapping component a true context tableNumber
  | .oneToMany a => d.oneToManyMapping component owner a context tableNumber
  | .manyToMany a => d.manyToManyMapping component owner a context tableNumber
  | .elementCollection a => d.elementCollectionMapping component owner a context tableNumber

/-- The mapping of an attribute of an embeddable, which may not be a collection. -/
def subMapping (d : Definition) (component : ComponentMapper) (owner : String)
    (tableNumber : Nat) (a : AttributeDefinition) : Except MetamodelError AttributeMapping :=
  if a.isPlural then .error (.unsupported s!"{owner}.{a.name}" .nestedCollection)
  else d.attributeMapping component owner tableNumber a

/-- How embeddables are mapped, when they are nested at most `depth` deep. -/
def componentMapper (d : Definition) (depth : Nat) : ComponentMapper :=
  fun context name tableNumber =>
    match d.embeddable? name with
    | none => .error (.invalid (.unknownEmbeddable name))
    | some e =>
      match depth with
      | 0 => .error (.invalid (.endlessEmbeddable name))
      | depth + 1 => do
        return ⟨e.name, ← e.attributes.mapM
          (d.subMapping (d.componentMapper depth) context tableNumber)⟩

/-- How the embeddables of the definition are mapped. -/
def component (d : Definition) : ComponentMapper := d.componentMapper d.embeddables.length

/-- The table that an attribute is stored in: the one it asks for, which must be the declaring
entity's own, or the first. -/
def tableOf (e : EntityDefinition) (tables : List String) (a : AttributeDefinition) :
    Except MetamodelError String :=
  match a.table? with
  | some table =>
    if table ∈ tables then .ok table else .error (.invalid (.foreignTable e.name a.name table))
  | none => .ok (tables.headD "")

/-- The mapping of an attribute that `declarer` declares, as an attribute of the entity named
`name` with the tables `order`. -/
def inheritedMapping (d : Definition) (name : String) (order : List String)
    (declarer : EntityDefinition) (tables : List String) (a : AttributeDefinition) :
    Except MetamodelError AttributeMapping := do
  let table ← tableOf declarer tables a
  match order.idxOf? table with
  | some number => d.attributeMapping d.component declarer.name number a
  | none => throw (.invalid (.tableOutside table name))

/-- The mapping of an entity. -/
def entityMapping (d : Definition) (e : EntityDefinition) : Except MetamodelError EntityMapping := do
  let order ← d.tableOrder e
  let identifier ← d.identifierMapping d.component e
  let attributes ← (← d.line e).mapM fun declarer => do
    let tables ← d.ownTables declarer
    declarer.attributes.mapM (d.inheritedMapping e.name order declarer tables)
  return ⟨e.name, e.parent, order, identifier, attributes.flatten⟩

/-- The mappings of all entities of a valid definition. -/
def entityMappings (d : Definition) : Except MetamodelError (List EntityMapping) := do
  d.validate
  d.entities.mapM d.entityMapping

/-- The metamodel that a definition describes. -/
def metamodel (d : Definition) : Except MetamodelError Metamodel := do
  let registration ← Registration.empty.registerAll (← d.entityMappings)
  registration.build

end Definition

end EntityQuery
