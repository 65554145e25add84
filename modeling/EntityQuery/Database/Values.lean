import EntityQuery.Metamodel.Error

/-!
# Slots of an attribute

An attribute is stored in a row of slots, each a column or a formula of one table. The row is
given as parallel lists, and `Database.values` finds or makes its columns. An error part of the
way leaves the columns made before it.
-/

set_option autoImplicit false

namespace EntityQuery.Database

/-- Steps that change a database and may fail; a failing step keeps the changes made so far. -/
abbrev Action := EStateM MetamodelError Database

/-- What a slot reads: exactly one of a column and a formula. -/
def slotExpression (slot : Nat) : Option String → Option String → Except Malformation ColumnExpression
  | some column, none => .ok (.column column)
  | none, some formula => .ok (.formula formula)
  | some _, some _ => .error (.columnAndFormula slot)
  | none, none => .error (.emptySlot slot)

/-- The column of one slot, made when it is not there. -/
def fillSlot (role : String) (id : TableId) (slot : Nat) (column formula : Option String)
    (code : SqlCode) : Action ColumnId := fun db =>
  match slotExpression slot column formula with
  | .error reason => .error (.malformed role reason) db
  | .ok expression =>
    match db.slot? id ⟨expression, code⟩ with
    | none => .error (.malformed role (.unregisteredTable id)) db
    | some (column, db) => .ok column db

/-- The columns of a row of slots, the first of which has the number `slot`. -/
def fillSlots (role : String) (id : TableId) :
    Nat → List (Option String × Option String × SqlCode) → Action (List ColumnId)
  | _, [] => pure []
  | slot, (column, formula, code) :: rest => do
    let first ← fillSlot role id slot column formula code
    return first :: (← fillSlots role id (slot + 1) rest)

/-- The row of slots that parallel lists describe. -/
def slotRow (columns : List (Option String)) (formulas : Option (List (Option String)))
    (codes : List SqlCode) : List (Option String × Option String × SqlCode) :=
  columns.zip ((formulas.getD (columns.map fun _ => none)).zip codes)

/-- What is wrong with the lengths of the lists that describe a row of slots. -/
def rowFault? (columns : List (Option String)) (formulas : Option (List (Option String)))
    (codes : List SqlCode) : Option Malformation :=
  if columns.length ≠ codes.length then some (.codeCount columns.length codes.length)
  else match formulas with
    | some formulas =>
      if formulas.length ≠ columns.length then
        some (.formulaCount columns.length formulas.length)
      else none
    | none => none

/-- The columns of the attribute `role`, all of the table `id`. -/
def values (role : String) (id : TableId) (columns : List (Option String))
    (formulas : Option (List (Option String))) (codes : List SqlCode) : Action (List ColumnId) := do
  if ((← get).table? id).isNone then throw (.malformed role (.unregisteredTable id))
  match rowFault? columns formulas codes with
  | some reason => throw (.malformed role reason)
  | none => fillSlots role id 0 (slotRow columns formulas codes)

/-- The columns of a row of named columns. -/
def namedValues (role : String) (id : TableId) (columns : List String) (codes : List SqlCode) :
    Action (List ColumnId) :=
  values role id (columns.map some) none codes

end EntityQuery.Database
