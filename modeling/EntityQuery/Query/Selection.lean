/-!
# Selections

A selection is an expression, or an object made of selections: an instance of a class, a list or
a map. Statements and the queries they are lowered to select in the same shape, over expressions
of their own.
-/

set_option autoImplicit false

namespace EntityQuery

/-- What a selected object is an instance of. -/
inductive InstantiationTarget
  | named (className : String)
  | list
  | map
deriving DecidableEq

/-- A selection that may be given a name. -/
structure SelectItemOf (σ : Type) where
  selection : σ
  aliasName : Option String

/-- A selection over expressions of type `ε`. -/
inductive SelectionOf (ε : Type)
  | expression (value : ε)
  | instantiation (target : InstantiationTarget) (arguments : List (SelectItemOf (SelectionOf ε)))

end EntityQuery
