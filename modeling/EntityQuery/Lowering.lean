import EntityQuery.Lowering.Pass

/-!
# Lowering

`lowerWith` takes a statement over entities to a statement over tables, together with the index
of its from-elements. It is the whole of a pass under usable settings.
-/

set_option autoImplicit false

namespace EntityQuery

/-- A lowered statement with the index of its from-elements. -/
structure Lowered where
  statement : Sql.Statement
  index : FromIndex

/-- The lowering of a statement under the given settings. -/
def lowerWith (settings : Settings) (m : Metamodel) (s : Statement) :
    Except LoweringError Lowered :=
  match settings.faults with
  | [] =>
    match Step.statement m s (.start settings) with
    | .ok statement pass => .ok ⟨statement, pass.scope.index⟩
    | .error e _ => .error e
  | faults => .error (.invalidSettings faults)

/-- The lowering of a statement under the default settings. -/
def lower (m : Metamodel) (s : Statement) : Except LoweringError Lowered :=
  lowerWith .default m s

end EntityQuery
