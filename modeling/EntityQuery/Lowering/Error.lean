import EntityQuery.Metamodel.Error
import EntityQuery.Query.Statement
import EntityQuery.Settings

/-!
# Errors of the lowering

An error says what is wrong by its cause; `LoweringError.message` puts every cause into words.
-/

set_option autoImplicit false

namespace EntityQuery

/-- Why a path cannot be followed or used. -/
inductive PathFault
  | namesNothing
  | collectionDereferenced (role : String)
  | associationDereferenced (role : String)
  | basicDereferenced (role : String)
  | elementsWithoutAttributes (role : String)
  | collectionReferenced (role : String)
  | notCollection
  | stated (reason : String)
deriving DecidableEq

/-- The kinds of results of lowering a part of a statement. -/
inductive ResultKind
  | statement
  | query
  | fromElements
  | selectClause
  | selectList
  | selection
  | orderClause
  | sortKey
  | assignment
  | predicate
  | expression
deriving DecidableEq

/-- What no statement should lead to. -/
inductive Fault
  | danglingReference
  | danglingJoin
  | joinOutsideSpace
  | mismatch (expected found : ResultKind)
deriving DecidableEq

inductive LoweringError
  | metamodel (error : MetamodelError)
  | unknownFromElement (aliasName : String)
  | duplicateAlias (aliasName : String)
  | unsupportedJoin (joinType : JoinType)
  | invalidPath (path : String) (fault : PathFault)
  | notJoinable (role kind : String)
  | emptyFromClause
  | invalidSettings (faults : List SettingFault)
  | unexpected (fault : Fault)
deriving DecidableEq

namespace PathFault

def message : PathFault → String
  | .namesNothing => "path names no attribute"
  | .collectionDereferenced role => s!"collection `{role}` must be joined before it is dereferenced"
  | .associationDereferenced role =>
    s!"association `{role}` must be joined before it is dereferenced"
  | .basicDereferenced role => s!"basic attribute `{role}` has no attributes"
  | .elementsWithoutAttributes role => s!"elements of `{role}` have no attributes"
  | .collectionReferenced role => s!"collection `{role}` must be joined before it is referenced"
  | .notCollection => "is not a collection-valued path"
  | .stated reason => reason

end PathFault

namespace ResultKind

def name : ResultKind → String
  | .statement => "statement"
  | .query => "query spec"
  | .fromElements => "from-elements"
  | .selectClause => "select clause"
  | .selectList => "select list"
  | .selection => "selection"
  | .orderClause => "order by clause"
  | .sortKey => "sort specification"
  | .assignment => "assignment"
  | .predicate => "predicate"
  | .expression => "expression"

end ResultKind

namespace Fault

/-- What was expected and what was found instead. -/
def expectedFound : Fault → String × String
  | .danglingReference => ("registered table group", "dangling from-index entry")
  | .danglingJoin => ("registered table group join", "dangling join position")
  | .joinOutsideSpace => ("table space", "joined from-element outside a space")
  | .mismatch expected found => (expected.name, found.name)

def message (fault : Fault) : String :=
  let (expected, found) := fault.expectedFound
  s!"Internal lowering fault: expected {expected}, visitor produced {found}"

end Fault

/-- The name that messages use for a type of join. -/
def JoinType.display : JoinType → String
  | .inner => "Inner"
  | .left => "Left"
  | .right => "Right"
  | .full => "Full"
  | .cross => "Cross"

namespace LoweringError

def message : LoweringError → String
  | .metamodel error => error.message
  | .unknownFromElement name => s!"No from-element with alias `{name}` is in scope"
  | .duplicateAlias name => s!"Alias `{name}` is used by more than one from-element"
  | .unsupportedJoin joinType => s!"Join type {joinType.display} is not supported"
  | .invalidPath path fault => s!"Invalid path `{path}`: {fault.message}"
  | .notJoinable role kind => s!"Attribute `{role}` ({kind}) cannot be joined"
  | .emptyFromClause => "Query has no from-element to select from"
  | .invalidSettings faults =>
    s!"Invalid lowering configuration: {SettingFault.messages faults}"
  | .unexpected fault => fault.message

/-- An invalid path, with a note on where it stands. -/
def pathIn (path reason context : String) : LoweringError :=
  .invalidPath path (.stated s!"{reason}\n  Context: {context}")

/-- The error of a look-up in the metamodel, if it is one. -/
def metamodel? : LoweringError → Option MetamodelError
  | .metamodel error => some error
  | _ => none

end LoweringError

/-- The result of a look-up in the metamodel, within the lowering. -/
def lookedUp {α : Type} : Except MetamodelError α → Except LoweringError α
  | .ok a => .ok a
  | .error e => .error (.metamodel e)

instance : MonadLift (Except MetamodelError) (Except LoweringError) := ⟨lookedUp⟩

end EntityQuery
