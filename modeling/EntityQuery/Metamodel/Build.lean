import EntityQuery.Database.Values
import EntityQuery.Mapping.Display
import EntityQuery.Metamodel

/-!
# Building a metamodel

Entities are registered one after the other, which fixes the places of their tables, and then
built together: first all identifiers, then all attributes, so that an attribute may refer to any
registered entity. Identifiers are built before any entity is known.

Embeddables and collections are kept by role. Attributes of a hierarchy are built once for each
entity that has them, and the first result under a role is the one that is kept.
-/

set_option autoImplicit false

namespace EntityQuery

/-- A registered entity: its mapping, with the tables at their places. -/
structure PendingEntity where
  name : String
  parent : Option String
  primaryTable : TableId
  moreTables : List TableId
  identifier : IdentifierMapping
  attributes : List AttributeMapping

/-- All tables of a registered entity, the primary one first. -/
def PendingEntity.tables (p : PendingEntity) : List TableId := p.primaryTable :: p.moreTables

/-- The entities registered so far, with their tables. -/
structure Registration where
  database : Database
  pending : List PendingEntity

namespace Registration

/-- Nothing registered. -/
def empty : Registration := ⟨.empty, []⟩

/-- One more entity. Its name must be new, and it must have a table. -/
def register (r : Registration) (m : EntityMapping) : Except MetamodelError Registration :=
  if r.pending.any (·.name = m.name) then .error (.invalid (.registeredTwice m.name))
  else match m.tables with
    | [] => .error (.malformed m.name .noTables)
    | first :: rest =>
      let (primary, database) := r.database.tableFor first
      let (more, database) := database.tablesFor rest
      let entity := ⟨m.name, m.parent, primary, more, m.identifier, m.attributes⟩
      .ok ⟨database, r.pending ++ [entity]⟩

/-- All entities of a list; the first error ends the registration. -/
def registerAll : Registration → List EntityMapping → Except MetamodelError Registration
  | r, [] => .ok r
  | r, m :: ms => do registerAll (← r.register m) ms

end Registration

/-! ## Attributes -/

/-- What the build has found so far. -/
structure Registry where
  database : Database
  embeddables : List (String × Embeddable)
  collections : List (String × PluralAttribute)

/-- Steps of the build. -/
abbrev Build := EStateM MetamodelError Registry

namespace Build

/-- A step that concerns only the database. -/
def database {α : Type} (act : Database.Action α) : Build α := fun r =>
  match act r.database with
  | .ok a db => .ok a { r with database := db }
  | .error e db => .error e { r with database := db }

/-- The table that an expression stands for. -/
def tableFor (expression : String) : Build TableId := fun r =>
  let (id, db) := r.database.tableFor expression
  .ok id { r with database := db }

/-- `entries` with the value of a key, unless the key has one already. -/
def keepFirst {α : Type} (entries : List (String × α)) (key : String) (value : α) :
    List (String × α) :=
  if (entries.lookup key).isSome then entries else entries ++ [(key, value)]

/-- Keeps an embeddable by its role. -/
def keepEmbeddable (e : Embeddable) : Build Unit :=
  modify fun r => { r with embeddables := keepFirst r.embeddables e.role e }

/-- Keeps a collection by its role. -/
def keepCollection (p : PluralAttribute) : Build Unit :=
  modify fun r => { r with collections := keepFirst r.collections p.role p }

end Build

/-- The type that attributes are built for, with the tables and the identifier of the entity they
are part of. -/
structure Owner where
  type : ManagedType
  tables : List TableId
  identifierColumns : List ColumnId

/-- The role of an attribute of the owner. -/
def Owner.roleOf (o : Owner) (name : String) : String := s!"{o.type.name}.{name}"

namespace Build

/-- The entity of the given name among those known. -/
def known (entities : List Entity) (name : String) : Except MetamodelError Entity :=
  match entities.find? (·.name = name) with
  | some e => .ok e
  | none => .error (.unknownEntity name)

/-- The result of a step without effects. -/
def ofExcept {α : Type} : Except MetamodelError α → Build α
  | .ok a => pure a
  | .error e => throw e

/-- The columns of a basic attribute. -/
def basicColumns (role : String) (values : Database.Action (List ColumnId)) :
    Build (List ColumnId) := do
  let columns ← database values
  if columns.isEmpty then throw (.malformed role .noBasicColumns)
  return columns

/-- The columns of a reference to a single entity, with the position of their table. A reference
that shares the owner's identifier has no columns of its own. -/
def associationColumns (owner : Owner) (role : String) (kind : AssociationKind)
    (declaresColumns : Bool) (tableNumber : Nat) (values : Database.Action (List ColumnId)) :
    Build (List ColumnId × Nat) := do
  let (columns, position) ← match kind with
    | .primaryKeyOneToOne =>
      if declaresColumns then throw (.malformed role .ownColumns)
      else pure (owner.identifierColumns, 0)
    | _ => do pure (← database values, tableNumber)
  if columns.isEmpty then throw (.malformed role .noAssociationColumns)
  return (columns, position)

/-- The table that holds the key, element and index columns of a collection. -/
def slotTable (entities : List Entity) (role : String) (element : ElementType)
    (table : Option TableId) : Except MetamodelError TableId :=
  match element, table with
  | .entity target viaLinkTable, table => do
    let entity ← known entities target
    match viaLinkTable, table with
    | true, some link => .ok link
    | true, none => .error (.malformed role .noLinkTable)
    | false, none => .ok entity.primaryTable
    | false, some _ => .error (.malformed role .superfluousTable)
  | _, some table => .ok table
  | _, none => .error (.malformed role .noElementTable)

/-- The columns of the elements. Elements of a one-to-many collection without columns of their
own are known by the identifier of their entity. -/
def elementColumns (entities : List Entity) (role : String) (elementType : ElementType)
    (values : Database.Action (List ColumnId)) : Build (List ColumnId) := do
  let columns ← database values
  let columns := match columns, elementType with
    | [], .entity target false =>
      match entities.find? (·.name = target) with
      | some e => e.identifier.columns
      | none => []
    | columns, _ => columns
  if columns.isEmpty then throw (.malformed role .noElementColumns)
  return columns

/-- The index of a collection; lists and maps must have one. -/
def indexOf (role : String) (table : TableId) (collection : CollectionClass)
    (index : Option IndexMapping) : Build (Option Index) := do
  match index with
  | some m =>
    let columns ← database (Database.namedValues role table m.columns m.sqlCodes)
    return some ⟨m.indexType, columns⟩
  | none =>
    match collection with
    | .list | .map => throw (.malformed role (.noIndex collection))
    | _ => return none

/-- The key columns of a collection. -/
def keyColumns (role : String) (table : TableId) (columns : List String) (codes : List SqlCode) :
    Build (List ColumnId) := do
  let columns ← database (Database.namedValues role table columns codes)
  if columns.isEmpty then throw (.malformed role .noKeyColumns)
  return columns

/-- The role of the elements of a collection. -/
def elementRole (role : String) : String := role ++ ".\x7belement\x7d"

mutual
/-- The attribute of the given name whose storage is `mapped`. -/
def stored (entities : List Entity) (owner : Owner) (name : String) (tableNumber : Nat)
    (columns : List (Option String)) (formulas : Option (List (Option String)))
    (codes : List SqlCode) (mapped : MappedType) : Build Attribute := do
  let role := owner.roleOf name
  let some table := owner.tables[tableNumber]?
    | throw (.malformed role (.tableNumber tableNumber owner.tables.length))
  let values := Database.values role table columns formulas codes
  match mapped with
  | .basic t =>
    let columns ← basicColumns role values
    return .singular ⟨owner.type, name, .basic, .basic t, columns, tableNumber, false⟩
  | .component c =>
    let columns ← database values
    component entities owner role c
    return .singular ⟨owner.type, name, .embedded, .embeddable role, columns, tableNumber, false⟩
  | .any t =>
    let columns ← database values
    return .singular ⟨owner.type, name, .any, .any t, columns, tableNumber, false⟩
  | .association target kind =>
    let _ ← ofExcept (known entities target)
    let (columns, position) ←
      associationColumns owner role kind (!columns.isEmpty) tableNumber values
    return .singular
      ⟨owner.type, name, kind.singularClass, .entity target, columns, position, false⟩
  | .collection c => return .plural (← plural entities owner name c)
/-- The embeddable used in the role `role`, kept under that role. Its attributes have the tables
and the identifier of the owner. -/
def component (entities : List Entity) (owner : Owner) (role : String) :
    ComponentMappingOf MappedType → Build Unit
  | ⟨name, attributes⟩ => do
    let subs ← subAttributes entities { owner with type := .embeddable role } attributes
    keepEmbeddable ⟨role, name, subs⟩
/-- The attributes of an embeddable, none of which may be a collection. -/
def subAttributes (entities : List Entity) (owner : Owner) :
    List (AttributeMappingOf MappedType) → Build (List Attribute)
  | [] => return []
  | ⟨name, tableNumber, columns, formulas, codes, mapped⟩ :: rest => do
    match ← stored entities owner name tableNumber columns formulas codes mapped with
    | .plural _ => throw (.unsupported (owner.roleOf name) .nestedCollection)
    | a => return a :: (← subAttributes entities owner rest)
/-- The type of the elements of a collection. An embeddable is kept under the role of the
elements and has the table of the collection for its only one. -/
def elementType (entities : List Entity) (owner : Owner) (role : String) (table : TableId) :
    ElementTypeOf MappedType → Build DomainType
  | .basic t => return .basic t
  | .any t => return .any t
  | .entity target _ => return .entity target
  | .component c => do
    component entities { owner with tables := [table] } (elementRole role) c
    return .embeddable (elementRole role)
/-- The plural attribute that a mapping describes, kept under its role. -/
def plural (entities : List Entity) (owner : Owner) (name : String) :
    CollectionMappingOf MappedType → Build PluralAttribute
  | ⟨role, shape, expression, keys, keyCodes, ⟨type, columns, formulas, codes⟩, index⟩ => do
    let collectionTable ← match expression with
      | some expression => some <$> tableFor expression
      | none => pure none
    let table ← ofExcept (slotTable entities role type collectionTable)
    let keyColumns ← keyColumns role table keys keyCodes
    let elementType ← elementType entities owner role table type
    let elementColumns ←
      elementColumns entities role type (Database.values role table columns formulas codes)
    let collectionClass := shape.collectionClass
    let index ← indexOf role table collectionClass index
    let p : PluralAttribute :=
      ⟨owner.type, name, role, collectionClass, ⟨type.elementClass, elementType, elementColumns⟩,
       index, keyColumns, collectionTable⟩
    keepCollection p
    return p
end

/-- The attribute that a mapping describes. -/
def attributeOf (entities : List Entity) (owner : Owner) (m : AttributeMapping) : Build Attribute :=
  stored entities owner m.name m.tableNumber m.columns m.formulas m.sqlCodes m.mappedType

/-- The attributes of an entity. -/
def attributes (entities : List Entity) (owner : Owner) :
    List AttributeMapping → Build (List Attribute)
  | [] => return []
  | m :: rest => do return (← attributeOf entities owner m) :: (← attributes entities owner rest)

/-! ## Entities -/

/-- The identifier of a registered entity, on its primary table. No entity is known yet. -/
def identifier (p : PendingEntity) : Build SingularAttribute := do
  let m := p.identifier
  let role := s!"{p.name}.{m.name}"
  let columns ← database (Database.namedValues role p.primaryTable m.columns m.sqlCodes)
  if columns.isEmpty then throw (.malformed role .noIdentifierColumns)
  let type ← match m.idType with
    | .basic t => pure (DomainType.basic t)
    | .component c => do
      component [] ⟨.entity p.name, p.tables, columns⟩ role c
      pure (DomainType.embeddable role)
    | other => throw (.unsupported role (.identifierType other.display))
  return ⟨.entity p.name, m.name, m.idType.identifierClass, type, columns, 0, true⟩

/-- The entities with their identifiers and without attributes. -/
def identified : List PendingEntity → Build (List Entity)
  | [] => return []
  | p :: rest => do
    let id ← identifier p
    return ⟨p.name, p.parent, p.primaryTable, p.moreTables, id, []⟩ :: (← identified rest)

/-- The entities with their attributes; each of `bare` belongs to the registered entity at its
place. -/
def completed (entities : List Entity) :
    List PendingEntity → List Entity → Build (List Entity)
  | p :: pending, e :: bare => do
    let owner : Owner := ⟨.entity p.name, p.tables, e.identifier.columns⟩
    let attributes ← attributes entities owner p.attributes
    return { e with attributes } :: (← completed entities pending bare)
  | _, _ => return []

/-- The first registered entity whose parent is not registered, with the name of that parent. -/
def orphan? (pending : List PendingEntity) : Option (String × String) :=
  pending.findSome? fun p =>
    match p.parent with
    | some parent => if pending.any (·.name = parent) then none else some (p.name, parent)
    | none => none

/-- All registered entities. -/
def entities (pending : List PendingEntity) : Build (List Entity) := do
  match orphan? pending with
  | some (entity, parent) => throw (.invalid (.parentNotRegistered entity parent))
  | none =>
    let bare ← identified pending
    completed bare pending bare

end Build

/-- The metamodel of all registered entities. -/
def Registration.build (r : Registration) : Except MetamodelError Metamodel :=
  match Build.entities r.pending ⟨r.database, [], []⟩ with
  | .ok entities found => .ok ⟨found.database, entities, found.embeddables, found.collections⟩
  | .error e _ => .error e

end EntityQuery
