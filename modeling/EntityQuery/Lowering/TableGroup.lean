import EntityQuery.Metamodel
import EntityQuery.Sql.Query

/-!
# Table groups of entities and collections

The tables behind an entity or a collection, under identification variables that are numbered
from the alias base. All tables of an entity are in its group: the primary one is the root and the
others are joined from the left.
-/

set_option autoImplicit false

namespace EntityQuery

open Sql (ColumnReference TableUse TableJoin TableGroup)

/-- The entity that an association leads to. -/
def SingularAttribute.targetName (a : SingularAttribute) : Except MetamodelError String :=
  match a.attributeType with
  | .entity name => .ok name
  | other => .error (.malformed a.role (.associationType other.name))

namespace Metamodel

/-! ## Tables -/

/-- A table at a place of the group with the given alias base. -/
def tableUse (m : Metamodel) (aliasBase : String) (position : Nat) (id : TableId) :
    Except MetamodelError TableUse :=
  match m.database.table? id with
  | some table => .ok ⟨id, table.reference, s!"{aliasBase}_{position}"⟩
  | none => .error (.invalid (.unregisteredTable id))

/-- Tables at consecutive places of a group. -/
def tableUses (m : Metamodel) (aliasBase : String) :
    Nat → List TableId → Except MetamodelError (List TableUse)
  | _, [] => .ok []
  | position, id :: ids => do
    let table ← m.tableUse aliasBase position id
    let rest ← m.tableUses aliasBase (position + 1) ids
    return table :: rest

/-! ## Columns -/

/-- A column of the table with the given identification variable. -/
def columnReference (m : Metamodel) (variableName : String) (id : ColumnId) :
    Except MetamodelError ColumnReference :=
  match m.database.column? id with
  | some column => .ok ⟨variableName, column.expression, column.sqlCode, none⟩
  | none => .error (.invalid (.unregisteredColumn id))

/-- Columns of one table. -/
def columnReferences (m : Metamodel) (variableName : String) (ids : List ColumnId) :
    Except MetamodelError (List ColumnReference) :=
  ids.mapM (m.columnReference variableName)

/-- A column, of the table of the group that it belongs to. -/
def locatedReference (m : Metamodel) (group : TableGroup) (id : ColumnId) :
    Except MetamodelError ColumnReference :=
  match group.use? id.table with
  | some table => m.columnReference table.variableName id
  | none => .error (.invalid (.columnOutside id group.aliasBase))

/-- Columns, each of the table of the group that it belongs to. -/
def locatedReferences (m : Metamodel) (group : TableGroup) (ids : List ColumnId) :
    Except MetamodelError (List ColumnReference) :=
  ids.mapM (m.locatedReference group)

/-- The value that columns of the table at a place of the group make up. -/
def columnsAt (m : Metamodel) (group : TableGroup) (position : Nat) (ids : List ColumnId)
    (type : Option DomainType) : Except MetamodelError Sql.Expression :=
  match group.table? position with
  | some table => do return .ofColumns (← m.columnReferences table.variableName ids) type
  | none => .error (.invalid (.noTableAt group.aliasBase position))

/-! ## Groups -/

/-- The group of an entity. -/
def entityGroup (m : Metamodel) (e : Entity) (aliasBase : String) :
    Except MetamodelError TableGroup := do
  let root ← m.tableUse aliasBase 0 e.primaryTable
  let more ← m.tableUses aliasBase 1 e.moreTables
  return ⟨aliasBase, .entity e.name, root, more.map (⟨.left, ·, none⟩), 0⟩

/-- The entity that the elements of a collection are. -/
def elementEntity (m : Metamodel) (p : PluralAttribute) : Except MetamodelError Entity :=
  match p.elementEntity? with
  | some name => m.entity name
  | none => .error (.malformed p.role .noElementEntity)

/-- The group of a collection of entities behind a link table. The first table of the elements is
joined to the link table by the columns of the elements. -/
def linkGroup (m : Metamodel) (p : PluralAttribute) (link : TableId) (element : Entity)
    (aliasBase : String) : Except MetamodelError TableGroup := do
  let root ← m.tableUse aliasBase 0 link
  let first ← m.tableUse aliasBase 1 element.primaryTable
  let references ← m.columnReferences root.variableName p.element.columns
  let identifiers ← m.columnReferences first.variableName element.identifier.columns
  let condition := Sql.Predicate.equality (references.map .column) (identifiers.map .column)
  let more ← m.tableUses aliasBase 2 element.moreTables
  return ⟨aliasBase, .collection p.role, root,
    ⟨.inner, first, condition⟩ :: more.map (⟨.left, ·, none⟩), 1⟩

/-- The table of a collection. -/
def collectionTable (p : PluralAttribute) : Except MetamodelError TableId :=
  match p.collectionTable with
  | some table => .ok table
  | none => .error (.malformed p.role .noCollectionTable)

/-- The group of a collection: that of its elements when they refer back to the owner, the link
table with the elements behind it, or the collection table alone. -/
def collectionGroup (m : Metamodel) (p : PluralAttribute) (aliasBase : String) :
    Except MetamodelError TableGroup :=
  match p.element.kind with
  | .oneToMany => do m.entityGroup (← m.elementEntity p) aliasBase
  | .manyToMany => do
    let link ← collectionTable p
    let element ← m.elementEntity p
    m.linkGroup p link element aliasBase
  | .basic | .embeddable => do
    let table ← collectionTable p
    let root ← m.tableUse aliasBase 0 table
    return ⟨aliasBase, .collection p.role, root, [], 0⟩
  | .any => .error (.unsupported p.role .anyElements)

/-! ## Values of collections -/

/-- The value of an element of a collection: the identifier of an entity, or the columns of the
element. -/
def elementValue (m : Metamodel) (p : PluralAttribute) (group : TableGroup) :
    Except MetamodelError Sql.Expression :=
  match p.element.kind with
  | .manyToMany | .oneToMany => do
    let element ← m.elementEntity p
    m.columnsAt group group.elementOffset element.identifier.columns (some (.entity element.name))
  | .basic | .embeddable => m.columnsAt group 0 p.element.columns (some p.element.elementType)
  | .any => .error (.unsupported p.role .anyElementLowered)

/-- The key of a collection. -/
def keyValue (m : Metamodel) (p : PluralAttribute) (group : TableGroup) :
    Except MetamodelError Sql.Expression := do
  return .ofColumns (← m.locatedReferences group p.keyColumns) none

/-- The equality of two values of the same width. -/
def matching (role : String) (lhs rhs : Sql.Expression) :
    Except MetamodelError (Option Sql.Predicate) :=
  if lhs.parts.length = rhs.parts.length then
    .ok (Sql.Predicate.equality lhs.parts rhs.parts)
  else .error (.malformed role (.width lhs.parts.length rhs.parts.length))

/-- The predicate that ties a collection to its owner. -/
def keyPredicate (m : Metamodel) (p : PluralAttribute) (group : TableGroup)
    (owner : Sql.Expression) : Except MetamodelError (Option Sql.Predicate) := do
  matching p.role (← m.keyValue p group) owner

end Metamodel

end EntityQuery
