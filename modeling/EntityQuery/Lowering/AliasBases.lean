/-!
# Alias bases

Every table group has an alias base, from which the identification variables of its tables are
made. Alias bases are numbered in the order in which they are asked for, under a common stem; a
from-element keeps the one it was given.
-/

set_option autoImplicit false

namespace EntityQuery

structure AliasBases where
  stem : String
  count : Nat
  assigned : List (String × String)
deriving DecidableEq

namespace AliasBases

/-- No alias bases yet. -/
def start (stem : String) : AliasBases := ⟨stem, 0, []⟩

/-- The alias base of a number. -/
def base (stem : String) (number : Nat) : String := stem ++ toString number

/-- A new alias base. -/
def next (bases : AliasBases) : String × AliasBases :=
  (base bases.stem (bases.count + 1), { bases with count := bases.count + 1 })

/-- The alias base of a from-element, if it has one. -/
def assigned? (bases : AliasBases) (name : String) : Option String := bases.assigned.lookup name

/-- The alias base of a from-element, a new one if it has none. -/
def baseFor (bases : AliasBases) (name : String) : String × AliasBases :=
  match bases.assigned? name with
  | some base => (base, bases)
  | none =>
    let (base, bases) := bases.next
    (base, { bases with assigned := (name, base) :: bases.assigned })

end AliasBases

end EntityQuery
