import EntityQuery.Lowering.Clause

/-!
# The lowering of a statement

A pass registers the from-elements of a statement in order, spaces from left to right and roots
before joins. The conditions of joins are lowered when all from-elements are registered, then the
other clauses. Each part of the statement has its visit, whose outcome is converted where it is
used.

A failing step keeps what it had changed before it failed.
-/

set_option autoImplicit false

namespace EntityQuery

/-- The condition of a registered join that is still to be lowered. -/
structure PendingCondition where
  space : Nat
  position : Nat
  condition : Predicate

/-- The state of a pass. -/
structure Pass where
  supply : Supply
  scope : Scope
  generated : Nat
  pending : List PendingCondition

namespace Pass

/-- The state at the beginning of a pass. -/
def start (settings : Settings) : Pass :=
  ⟨⟨.start settings.aliasStem, []⟩, ⟨.empty, []⟩, 0, []⟩

end Pass

/-- A step of a pass. -/
abbrev Step := EStateM LoweringError Pass

namespace Step

/-- The lowering of a clause over the from-elements in scope. -/
def clause {α : Type} (f : Scope → Clause α) : Step α := fun pass =>
  match f pass.scope pass.supply with
  | .ok a supply => .ok a { pass with supply }
  | .error e supply => .error e { pass with supply }

/-- The outcome of a step that changes nothing. -/
def lookup {α : Type} (f : Scope → Except LoweringError α) : Step α := fun pass =>
  match f pass.scope with
  | .ok a => .ok a pass
  | .error e => .error e pass

/-- The result of a visit, converted to the kind that is expected. -/
def expecting {α : Type} (convert : Outcome → Except LoweringError α) (visit : Step Outcome) :
    Step α := do
  let outcome ← visit
  lookup fun _ => convert outcome

/-! ## Aliases -/

/-- The alias of a from-element: its own, or a generated one. -/
def aliasFor : Option String → Step String
  | some name => pure name
  | none => fun pass =>
    let number := pass.generated + 1
    .ok s!"<generated_{number}>" { pass with generated := number }

/-- The alias base of a from-element. -/
def aliasBaseFor (name : String) : Step String := fun pass =>
  let (base, aliasBases) := pass.supply.aliasBases.baseFor name
  .ok base { pass with supply := { pass.supply with aliasBases } }

/-- Enters a from-element into the index. -/
def register (name : String) (ref : GroupRef) : Step Unit := fun pass =>
  match pass.scope.index.add name ref with
  | .ok index => .ok () { pass with scope := { pass.scope with index } }
  | .error e => .error e pass

/-- Changes the spaces. -/
def changeSpaces (f : List Sql.TableSpace → List Sql.TableSpace) : Step Unit := fun pass =>
  .ok () { pass with scope := { pass.scope with spaces := f pass.scope.spaces } }

/-! ## From-elements -/

/-- Opens a space. -/
def root (m : Metamodel) (r : Root) : Step Unit := do
  let name ← aliasFor r.aliasName
  let e ← lookup fun _ => lookedUp (m.entity r.entity)
  let aliasBase ← aliasBaseFor name
  let group ← lookup fun _ => lookedUp (m.entityGroup e aliasBase)
  let space := (← get).scope.spaces.length
  register name ⟨⟨space, .root⟩, aliasBase, .entity e.name⟩
  changeSpaces (· ++ [⟨group, []⟩])

/-- The visit of a root. -/
def visitRoot (m : Metamodel) (r : Root) : Step Outcome := do
  root m r
  return .fromElements

end Step

/-- A group to be joined: its tables, what it ranges over, and the predicate that ties it to the
from-element it was reached from. -/
structure JoinedGroup where
  group : Sql.TableGroup
  source : GroupSource
  predicate : Option Sql.Predicate

namespace Scope

/-- The group that an association leads to. -/
def associationGroup (s : Scope) (m : Metamodel) (r : ResolvedPath) (a : SingularAttribute)
    (aliasBase : String) : Except LoweringError JoinedGroup := do
  let target ← m.entity (← a.targetName)
  let group ← m.entityGroup target aliasBase
  let owner ← s.group r.ref
  let lhs ← m.columnsAt owner (a.tablePosition + r.elementOffset) a.columns none
  let rhs ← m.columnsAt group 0 target.identifier.columns none
  let predicate ← Metamodel.matching a.role lhs rhs
  return ⟨group, .entity target.name, predicate⟩

/-- The group of a collection, tied to its owner. -/
def pluralGroup (s : Scope) (m : Metamodel) (r : ResolvedPath) (p : PluralAttribute)
    (aliasBase : String) : Except LoweringError JoinedGroup := do
  let group ← m.collectionGroup p aliasBase
  let owner ← s.elementValue m r.ref
  let predicate ← m.keyPredicate p group owner
  return ⟨group, .collection p.role, predicate⟩

/-- The group that a join of the attribute reached by a path adds. -/
def attributeGroup (s : Scope) (m : Metamodel) (path : AttributePath) (aliasBase : String) :
    Except LoweringError JoinedGroup := do
  let r ← s.resolve m path
  match r.target with
  | .attributeOf (.singular a) =>
    match a.kind with
    | .manyToOne | .oneToOne => s.associationGroup m r a aliasBase
    | .any => .error (.metamodel (.unsupported a.role .anyJoined))
    | .basic | .embedded => .error (.notJoinable a.role a.kind.display)
  | .attributeOf (.plural p) => s.pluralGroup m r p aliasBase
  | .foreignKey _ identifier => .error (.notJoinable r.path identifier.kind.display)

/-- The group that a join adds. -/
def joinedGroup (s : Scope) (m : Metamodel) (source : JoinSource) (aliasBase : String) :
    Except LoweringError JoinedGroup :=
  match source with
  | .entity name => do
    let e ← m.entity name
    let group ← m.entityGroup e aliasBase
    return ⟨group, .entity e.name, none⟩
  | .attributeOf start dotted => s.attributeGroup m ⟨start, splitDots dotted⟩ aliasBase

end Scope

/-- The join of a query for a join of a statement. A cross join is an inner one. -/
def JoinType.lower : JoinType → Except LoweringError Sql.JoinType
  | .inner | .cross => .ok .inner
  | .left => .ok .left
  | .right => .error (.unsupportedJoin .right)
  | .full => .error (.unsupportedJoin .full)

namespace Step

/-- The place of the space that is open: the last one. -/
def openSpace : Step Nat := fun pass =>
  match pass.scope.spaces.length with
  | 0 => .error (.unexpected .joinOutsideSpace) pass
  | count + 1 => .ok count pass

/-- The number of joins in a space. -/
def joinCount (spaces : List Sql.TableSpace) (space : Nat) : Nat :=
  match spaces[space]? with
  | some s => s.joins.length
  | none => 0

/-- Joins a from-element onto the open space. -/
def join (m : Metamodel) (j : Join) : Step Unit := do
  let joinType ← lookup fun _ => j.joinType.lower
  let space ← openSpace
  let name ← aliasFor j.aliasName
  let aliasBase ← aliasBaseFor name
  let joined ← lookup fun scope => scope.joinedGroup m j.source aliasBase
  let position := joinCount (← get).scope.spaces space
  register name ⟨⟨space, .join position⟩, aliasBase, joined.source⟩
  changeSpaces fun spaces => spaces.modify space fun s =>
    { s with joins := s.joins ++ [⟨joinType, joined.group, joined.predicate, j.fetch⟩] }
  match j.condition with
  | none => pure ()
  | some condition =>
    modify fun pass => { pass with pending := pass.pending ++ [⟨space, position, condition⟩] }

/-- The visit of a join. -/
def visitJoin (m : Metamodel) (j : Join) : Step Outcome := do
  join m j
  return .fromElements

/-- The visit of a space. -/
def visitSpace (m : Metamodel) (s : Space) : Step Outcome := do
  expecting (·.asFromElements) (visitRoot m s.root)
  s.joins.forM fun j => expecting (·.asFromElements) (visitJoin m j)
  return .fromElements

/-- The from-elements of a space. -/
def space (m : Metamodel) (s : Space) : Step Unit :=
  expecting (·.asFromElements) (visitSpace m s)

/-- Ties a further predicate to a join. -/
def addCondition (space position : Nat) (condition : Sql.Predicate) : Step Unit := fun pass =>
  match groupAt? pass.scope.spaces ⟨space, .join position⟩ with
  | none => .error (.unexpected .danglingJoin) pass
  | some _ =>
    changeSpaces (fun spaces => spaces.modify space fun s =>
      { s with joins := s.joins.modify position fun j =>
          { j with predicate := Sql.Predicate.conjunction (j.predicate.toList ++ [condition]) } }) pass

/-- Lowers the condition of a registered join. -/
def pendingCondition (m : Metamodel) (p : PendingCondition) : Step Unit := do
  let condition ← clause fun scope => scope.predicate m p.condition
  addCondition p.space p.position condition

/-- The visit of a from clause: its from-elements, then the conditions of its joins. -/
def visitFromClause (m : Metamodel) (f : FromClause) : Step Outcome := do
  if f.spaces.isEmpty then throw .emptyFromClause
  f.spaces.forM (space m)
  let pending := (← get).pending
  modify fun pass => { pass with pending := [] }
  pending.forM (pendingCondition m)
  return .fromElements

/-- The from-elements of a from clause, with the conditions of its joins. -/
def fromClause (m : Metamodel) (f : FromClause) : Step Unit :=
  expecting (·.asFromElements) (visitFromClause m f)

/-! ## Statements -/

/-- Takes the spaces out of the pass. -/
def takeSpaces : Step (List Sql.TableSpace) := fun pass =>
  .ok pass.scope.spaces { pass with scope := { pass.scope with spaces := [] } }

/-- Takes the parameters out of the pass. -/
def takeParameters : Step (List Sql.Parameter) := fun pass =>
  .ok pass.supply.parameters { pass with supply := { pass.supply with parameters := [] } }

/-- The select clause of a query, or what it selects without one. -/
def selections (m : Metamodel) : Option SelectClause → Step (Bool × List Sql.SelectItem)
  | some c => clause fun scope => scope.selectClause m c
  | none => do return (false, [← lookup fun scope => scope.defaultSelection m])

/-- The sort keys of an order clause. -/
def order (m : Metamodel) : Option (List SortKey) → Step (List Sql.SortKey)
  | none => pure []
  | some keys => clause fun scope => scope.sortKeys m keys

/-- The visit of a query. -/
def visitQuery (m : Metamodel) (q : Query) : Step Outcome := do
  fromClause m q.fromClause
  let (distinct, selections) ← selections m q.select
  let predicate ← clause fun scope => scope.condition m q.condition
  let order ← order m q.order
  let spaces ← takeSpaces
  return .query ⟨distinct, selections, ⟨spaces⟩, predicate, order⟩

def query (m : Metamodel) (q : Query) : Step Sql.Query :=
  expecting (·.asQuery) (visitQuery m q)

def update (m : Metamodel) (u : Update) : Step Sql.Update := do
  expecting (·.asFromElements) (visitRoot m u.target)
  let assignments ← clause fun scope => u.assignments.mapM (scope.assignment m)
  let predicate ← clause fun scope => scope.condition m u.condition
  let spaces ← takeSpaces
  let parameters ← takeParameters
  return ⟨⟨spaces⟩, assignments, predicate, parameters⟩

def delete (m : Metamodel) (d : Delete) : Step Sql.Delete := do
  expecting (·.asFromElements) (visitRoot m d.target)
  let predicate ← clause fun scope => scope.condition m d.condition
  let spaces ← takeSpaces
  let parameters ← takeParameters
  return ⟨⟨spaces⟩, predicate, parameters⟩

/-- The visit of a statement. -/
def visitStatement (m : Metamodel) : Statement → Step Outcome
  | .select q => do
    let query ← query m q
    let parameters ← takeParameters
    return .statement (.select ⟨query, parameters⟩)
  | .update u => do return .statement (.update (← update m u))
  | .delete d => do return .statement (.delete (← delete m d))

def statement (m : Metamodel) (s : Statement) : Step Sql.Statement :=
  expecting (·.asStatement) (visitStatement m s)

end Step

end EntityQuery
