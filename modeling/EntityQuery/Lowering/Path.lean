import EntityQuery.Lowering.FromIndex
import EntityQuery.Lowering.TableGroup

/-!
# Paths within a from clause

What a path reaches from the from-elements in scope, and the columns it stands for. A path may
lead through embedded attributes. It stops at associations and collections, which have to be
joined; only the identifier of the entity that an association leads to can be read without a join,
off the columns of the association.
-/

set_option autoImplicit false

namespace EntityQuery

/-- The from-elements in scope, with the tables they stand for. -/
structure Scope where
  index : FromIndex
  spaces : List Sql.TableSpace

/-- What a path reaches: an attribute, or an identifier read off an association. -/
inductive PathTarget
  | attributeOf (found : Attribute)
  | foreignKey (association identifier : SingularAttribute)
deriving DecidableEq

/-- A path that has been followed, from a group and with the offset of its first table. -/
structure ResolvedPath where
  path : String
  ref : GroupRef
  target : PathTarget
  elementOffset : Nat

/-! ## Following a path -/

/-- The identifier that the last segment after an association names, if it names one. -/
def identifierAfter? (m : Metamodel) (association : SingularAttribute) (name : String) :
    Except LoweringError (Option SingularAttribute) := do
  let target ← m.entity (← association.targetName)
  match target.find? name with
  | some (.singular a) => return if a.isIdentifier then some a else none
  | _ => return none

/-- What the segments of a path reach from a type. -/
def walk (m : Metamodel) (path : String) (type : ManagedType) :
    List String → Except LoweringError PathTarget
  | [] => .error (.invalidPath path .namesNothing)
  | [name] => do return .attributeOf (← m.find type name)
  | name :: next :: rest => do
    match ← m.find type name with
    | .plural p => .error (.invalidPath path (.collectionDereferenced p.role))
    | .singular a =>
      match a.kind with
      | .embedded =>
        match a.attributeType with
        | .embeddable role => walk m path (.embeddable role) (next :: rest)
        | other => .error (.metamodel (.malformed a.role (.embeddedType other.name)))
      | .manyToOne | .oneToOne => do
        let identifier? ← if rest.isEmpty then identifierAfter? m a next else pure none
        match identifier? with
        | some identifier => return .foreignKey a identifier
        | none => .error (.invalidPath path (.associationDereferenced a.role))
      | .any => .error (.metamodel (.unsupported a.role .anyDereferenced))
      | .basic => .error (.invalidPath path (.basicDereferenced a.role))

namespace Scope

/-- The group of a from-element. -/
def group (s : Scope) (ref : GroupRef) : Except LoweringError Sql.TableGroup :=
  match groupAt? s.spaces ref.locator with
  | some group => .ok group
  | none => .error (.unexpected .danglingReference)

/-- The type whose attributes a from-element has, and the offset of its tables in the group. -/
def start (s : Scope) (m : Metamodel) (ref : GroupRef) (path : String) :
    Except LoweringError (ManagedType × Nat) :=
  match ref.source with
  | .entity name => .ok (.entity name, 0)
  | .collection role => do
    let p ← m.collection role
    match p.element.kind, p.element.elementType with
    | .manyToMany, .entity name => return (.entity name, (← s.group ref).elementOffset)
    | .oneToMany, .entity name => return (.entity name, 0)
    | .embeddable, .embeddable elementRole => return (.embeddable elementRole, 0)
    | .any, _ => .error (.metamodel (.unsupported role .anyElementDereferenced))
    | _, _ => .error (.invalidPath path (.elementsWithoutAttributes role))

/-- What a path reaches. -/
def resolve (s : Scope) (m : Metamodel) (path : AttributePath) :
    Except LoweringError ResolvedPath := do
  let ref ← s.index.resolve path.start
  let (type, offset) ← s.start m ref path.dotted
  let target ← walk m path.dotted type path.segments
  return ⟨path.dotted, ref, target, offset⟩

/-! ## Values -/

/-- The value that a path to a single attribute stands for. -/
def pathValue (s : Scope) (m : Metamodel) (r : ResolvedPath) :
    Except LoweringError Sql.Expression := do
  let group ← s.group r.ref
  match r.target with
  | .attributeOf (.plural p) => .error (.invalidPath r.path (.collectionReferenced p.role))
  | .attributeOf (.singular a) =>
    if a.kind = .any then .error (.metamodel (.unsupported a.role .anyLowered))
    else m.columnsAt group (a.tablePosition + r.elementOffset) a.columns (some a.attributeType)
  | .foreignKey association identifier =>
    m.columnsAt group (association.tablePosition + r.elementOffset) association.columns
      (some identifier.attributeType)

/-- The value of a from-element itself: the identifier of an entity, or an element. -/
def elementValue (s : Scope) (m : Metamodel) (ref : GroupRef) :
    Except LoweringError Sql.Expression := do
  let group ← s.group ref
  match ref.source with
  | .entity name => do
    let e ← m.entity name
    m.columnsAt group 0 e.identifier.columns (some (.entity e.name))
  | .collection role => do
    let p ← m.collection role
    m.elementValue p group

end Scope

end EntityQuery
