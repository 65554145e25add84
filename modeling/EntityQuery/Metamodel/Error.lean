import EntityQuery.Database
import EntityQuery.Mapping.Classification

/-!
# Errors of definitions, mappings and look-ups

An error says what is wrong by its cause; `MetamodelError.message` puts every cause into words.
-/

set_option autoImplicit false

namespace EntityQuery

/-- Mappings that are understood but not dealt with. -/
inductive Unsupported
  | nestedCollection
  | identifierType (shown : String)
  | anyJoined
  | anyDereferenced
  | anyLowered
  | anyElements
  | anyElementDereferenced
  | anyElementLowered
  | stated (reason : String)
deriving DecidableEq

/-- What makes a mapping malformed. -/
inductive Malformation
  | unregisteredTable (table : TableId)
  | codeCount (columns codes : Nat)
  | formulaCount (columns formulas : Nat)
  | columnAndFormula (slot : Nat)
  | emptySlot (slot : Nat)
  | noTables
  | noIdentifierColumns
  | tableNumber (number count : Nat)
  | noBasicColumns
  | ownColumns
  | noAssociationColumns
  | noLinkTable
  | superfluousTable
  | noElementTable
  | noKeyColumns
  | noElementColumns
  | noIndex (collection : CollectionClass)
  | noElementEntity
  | noCollectionTable
  | embeddedType (name : String)
  | associationType (name : String)
  | width (left right : Nat)
  | stated (reason : String)
deriving DecidableEq

/-- What makes a definition or a metamodel invalid. -/
inductive Defect
  | noEntities
  | duplicateEmbeddable (name : String)
  | duplicateEntity (name : String)
  | unknownParent (entity parent : String)
  | inheritanceCycle (entity : String)
  | subclassIdentifier (entity : String)
  | noIdentifier (root : String)
  | noRootTable (entity : String)
  | noTable (entity : String)
  | nameCollision (name entity root : String)
  | foreignTable (entity name table : String)
  | tableOutside (table entity : String)
  | unknownType (name context : String)
  | unknownEmbeddable (name : String)
  | endlessEmbeddable (name : String)
  | compositeFormula (context : String)
  | compositeWidth (context : String) (listed mapped : Nat)
  | keyWidth (entity : String) (listed identifier : Nat)
  | primaryKey (context : String)
  | associationWidth (context : String) (columns : Nat) (target : String) (identifier : Nat)
  | elementWidth (context : String) (columns : Nat) (target : String) (identifier : Nat)
  | ownerWidth (context : String) (columns identifier : Nat)
  | registeredTwice (entity : String)
  | parentNotRegistered (entity parent : String)
  | noEmbeddable (role : String)
  | unregisteredTable (table : TableId)
  | unregisteredColumn (column : ColumnId)
  | columnOutside (column : ColumnId) (aliasBase : String)
  | noTableAt (aliasBase : String) (position : Nat)
  | stated (message : String)
deriving DecidableEq

inductive MetamodelError
  | unknownEntity (name : String)
  | unknownAttribute (type name : String)
  | unknownCollection (role : String)
  | unsupported (role : String) (reason : Unsupported)
  | malformed (role : String) (reason : Malformation)
  | unreadable (problem : String)
  | unparsed (problem : String)
  | invalid (defect : Defect)
deriving DecidableEq

namespace Unsupported

def message : Unsupported → String
  | .nestedCollection => "collections nested in embeddables"
  | .identifierType shown => s!"identifier type {shown} is neither basic nor composite"
  | .anyJoined => "ANY-typed associations cannot be joined"
  | .anyDereferenced => "ANY-typed attributes cannot be dereferenced"
  | .anyLowered => "ANY-typed attributes cannot be lowered"
  | .anyElements => "collections of ANY elements"
  | .anyElementDereferenced => "ANY-typed collection elements cannot be dereferenced"
  | .anyElementLowered => "ANY-typed collection elements cannot be lowered"
  | .stated reason => reason

end Unsupported

/-- The name that messages use for a class of collections. -/
def CollectionClass.display : CollectionClass → String
  | .bag => "Bag"
  | .list => "List"
  | .set => "Set"
  | .map => "Map"

namespace Malformation

def message : Malformation → String
  | .unregisteredTable table => s!"containing table {table.display} is not registered"
  | .codeCount columns codes => s!"{columns} column slot(s) but {codes} SQL type code(s)"
  | .formulaCount columns formulas => s!"{columns} column slot(s) but {formulas} formula slot(s)"
  | .columnAndFormula slot => s!"slot {slot} has both a column and a formula"
  | .emptySlot slot => s!"slot {slot} has neither a column nor a formula"
  | .noTables => "entity mapping declares no tables"
  | .noIdentifierColumns => "identifier maps no columns"
  | .tableNumber number count => s!"table number {number} out of range for {count} table(s)"
  | .noBasicColumns => "basic attribute maps no columns"
  | .ownColumns => "primary-key one-to-one must not declare its own columns"
  | .noAssociationColumns => "association resolved to no columns"
  | .noLinkTable => "many-to-many collection requires a link table"
  | .superfluousTable =>
    "one-to-many collection is keyed on the element table and takes no collection table"
  | .noElementTable => "element collection requires a collection table"
  | .noKeyColumns => "collection key maps no columns"
  | .noElementColumns => "collection element maps no columns"
  | .noIndex collection => s!"{collection.display} collection requires an index mapping"
  | .noElementEntity => "entity-valued collection without an element entity"
  | .noCollectionTable => "collection has no collection table"
  | .embeddedType name => s!"embedded attribute typed as {name}"
  | .associationType name => s!"association typed as {name}"
  | .width left right => s!"{left} column(s) cannot be matched against {right} column(s)"
  | .stated reason => reason

end Malformation

namespace Defect

def message : Defect → String
  | .noEntities => "Metamodel must contain at least one entity definition"
  | .duplicateEmbeddable name => s!"Duplicate embeddable definition: {name}"
  | .duplicateEntity name => s!"Duplicate entity definition: {name}"
  | .unknownParent entity parent => s!"Entity `{entity}` extends unknown entity `{parent}`"
  | .inheritanceCycle entity => s!"Inheritance cycle through entity `{entity}`"
  | .subclassIdentifier entity =>
    s!"Entity `{entity}` is a subclass and must not declare an identifier"
  | .noIdentifier root => s!"Hierarchy root `{root}` declares no identifier"
  | .noRootTable entity => s!"Single-table hierarchy root of `{entity}` declares no table"
  | .noTable entity => s!"Entity `{entity}` declares no table"
  | .nameCollision name entity root =>
    s!"Attribute name `{name}` on entity `{entity}` collides with another attribute in the `{root}` hierarchy"
  | .foreignTable entity name table =>
    s!"Attribute `{entity}.{name}` names table `{table}` which is not one of the entity's own tables"
  | .tableOutside table entity => s!"Table `{table}` is not part of entity `{entity}`"
  | .unknownType name context => s!"Unknown type `{name}` for `{context}`"
  | .unknownEmbeddable name => s!"Unknown embeddable `{name}`"
  | .endlessEmbeddable name => s!"Embeddable `{name}` contains itself"
  | .compositeFormula context => s!"Composite identifier `{context}` cannot use formulas"
  | .compositeWidth context listed mapped =>
    s!"Composite identifier `{context}` lists {listed} column(s) but its embeddable maps {mapped}"
  | .keyWidth entity listed identifier =>
    s!"Entity `{entity}` lists {listed} key column(s) but its identifier has {identifier}"
  | .primaryKey context => s!"`{context}`: primary_key is only valid on one_to_one"
  | .associationWidth context columns target identifier =>
    s!"`{context}` maps {columns} column(s) but `{target}` has {identifier} identifier column(s)"
  | .elementWidth context columns target identifier =>
    s!"`{context}` maps {columns} element column(s) but `{target}` has {identifier} identifier column(s)"
  | .ownerWidth context columns identifier =>
    s!"`{context}` maps {columns} key column(s) but the owner has {identifier} identifier column(s)"
  | .registeredTwice entity => s!"entity `{entity}` registered twice"
  | .parentNotRegistered entity parent => s!"entity `{entity}` extends unknown entity `{parent}`"
  | .noEmbeddable role => s!"no embeddable registered for role `{role}`"
  | .unregisteredTable table => s!"table {table.display} is not registered"
  | .unregisteredColumn column => s!"column {column.display} is not registered"
  | .columnOutside column aliasBase =>
    s!"column {column.display} does not belong to any table of group '{aliasBase}'"
  | .noTableAt aliasBase position => s!"group '{aliasBase}' has no table at position {position}"
  | .stated message => message

end Defect

namespace MetamodelError

def message : MetamodelError → String
  | .unknownEntity name => s!"No entity named `{name}` is registered in the domain metamodel"
  | .unknownAttribute type name => s!"Type `{type}` has no attribute named `{name}`"
  | .unknownCollection role => s!"No collection registered for role `{role}`"
  | .unsupported role reason => s!"Unsupported mapping for `{role}`: {reason.message}"
  | .malformed role reason => s!"Malformed attribute mapping for `{role}`: {reason.message}"
  | .unreadable problem => s!"Failed to read metamodel definition: {problem}"
  | .unparsed problem => s!"Failed to parse metamodel definition: {problem}"
  | .invalid defect => s!"Invalid metamodel definition: {defect.message}"

/-- An unknown attribute, with a note on where it was looked for. -/
def attributeIn (type name context : String) : MetamodelError :=
  .unknownAttribute type s!"{name}\n  Context: {context}"

/-- Whether a name was not found, as opposed to a mapping being at fault. -/
def isResolution : MetamodelError → Bool
  | .unknownEntity _ | .unknownAttribute _ _ | .unknownCollection _ => true
  | _ => false

end MetamodelError

end EntityQuery
