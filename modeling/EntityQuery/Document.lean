import EntityQuery.Number.Decimal

/-!
# Documents

The tree behind a JSON or YAML text. Members of an object keep the order of the text, and a key
may stand in it more than once. A `bare` scalar is one written without quotes in a format that
leaves its type to the reader: the same characters are a text, a truth value or nothing at all,
by what is asked of them. `Document.settle?` decides the type by the characters alone. A `mapping`
is an object of a format in which any document may be a key.

A document is `unreadable` when it is well formed but has no value: a text with half of a pair of
surrogates, a number out of range, or what is nested deeper than a reader goes. It may stand where
nothing is read.
-/

set_option autoImplicit false

namespace EntityQuery

/-- A number of a document. A whole number keeps the sign it is written with; outside the 64-bit
ranges it is a binary fraction. -/
inductive Number
  | whole (negative : Bool) (magnitude : Nat)
  | real (value : Binary64)
deriving DecidableEq

/-- A whole number, written with a sign only below zero. -/
def Number.ofInt (n : Int) : Number := .whole (n < 0) n.natAbs

inductive Document
  | null
  | bool (value : Bool)
  | number (value : Number)
  | text (value : String)
  | bare (value : String)
  | list (items : List Document)
  | fields (members : List (String × Document))
  | mapping (members : List (Document × Document))
  | unreadable

namespace Document

/-- A natural number as a document. -/
def nat (n : Nat) : Document := .number (.whole false n)

/-- A whole number as a document. -/
def int (n : Int) : Document := .number (.ofInt n)

/-- A list of texts as a document. -/
def texts (xs : List String) : Document := .list (xs.map .text)

/-- The document of a value that may be missing. -/
def option {α : Type} (f : α → Document) : Option α → Document
  | none => .null
  | some x => f x

/-- A variant of a sum that carries data: an object with the variant's name as its only key. -/
def variant (name : String) (payload : Document) : Document := .fields [(name, payload)]

/-! ## Depth -/

mutual
/-- How deep lists and objects are nested. -/
def depth : Document → Nat
  | .list items => depthItems items + 1
  | .fields members => depthMembers members + 1
  | .mapping members => depthPairs members + 1
  | _ => 0
def depthItems : List Document → Nat
  | [] => 0
  | d :: ds => max d.depth (depthItems ds)
def depthMembers : List (String × Document) → Nat
  | [] => 0
  | (_, d) :: ds => max d.depth (depthMembers ds)
def depthPairs : List (Document × Document) → Nat
  | [] => 0
  | (key, d) :: ds => max (max key.depth d.depth) (depthPairs ds)
end

/-! ## Members -/

/-- The value of the first member named `key`. -/
def member? (key : String) : Document → Option Document
  | .fields members => members.lookup key
  | _ => none

/-- `members` with the member named `key` given the value `value`: in its place when it is there,
at the end otherwise. -/
def putMember (key : String) (value : Document) :
    List (String × Document) → List (String × Document)
  | [] => [(key, value)]
  | (k, v) :: rest => if k = key then (k, value) :: rest else (k, v) :: putMember key value rest

mutual
/-- The document with each key of an object kept once: at its first place, with its last value. -/
def collapse : Document → Document
  | .list items => .list (collapseItems items)
  | .fields members => .fields (collapseMembers [] members)
  | d => d
def collapseItems : List Document → List Document
  | [] => []
  | d :: ds => d.collapse :: collapseItems ds
def collapseMembers (done : List (String × Document)) :
    List (String × Document) → List (String × Document)
  | [] => done
  | (key, d) :: rest => collapseMembers (putMember key d.collapse done) rest
end

end Document

end EntityQuery
