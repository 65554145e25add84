import EntityQuery.Json.Token

/-!
# Reading JSON text

Tokens are taken one after the other; lists and objects that are still open wait on a stack. What
opens when the stack is `maxDepth` high cannot be read, nor can an object with a key that has no
value. Keys that are repeated are kept, each with its value.
-/

set_option autoImplicit false

namespace EntityQuery.Json

/-- The number of lists and objects that may be open at once where they are read. -/
def maxDepth : Nat := 127

/-- The members of an object, last first, each with its key unless that has no value. -/
abbrev Members := List (Option String × Document)

/-- A list or object that is still open, its content last first. An object waits for the value of
the key it was given last. -/
inductive Open
  | list (items : List Document)
  | fields (members : Members) (key : Option String)

/-- What the text may go on with. -/
inductive Expectation
  | value (stack : List Open)
  | firstItem (stack : List Open)
  | firstKey (stack : List Open)
  | key (members : Members) (stack : List Open)
  | colon (members : Members) (key : Option String) (stack : List Open)
  | moreItems (items : List Document) (stack : List Open)
  | moreMembers (members : Members) (stack : List Open)
  | nothing (document : Document)

/-- A value has been read: it goes to the list or object that is open. -/
def put (d : Document) : List Open → Expectation
  | [] => .nothing d
  | .list items :: stack => .moreItems (d :: items) stack
  | .fields members key :: stack => .moreMembers ((key, d) :: members) stack

/-- A list or object has been read. -/
def close (d : Document) (stack : List Open) : Expectation :=
  put (if (stack.drop (maxDepth - 1)).isEmpty then d else .unreadable) stack

/-- The object with the given members, the first of them last. -/
def object (members : Members) : Document :=
  match members.reverse.mapM fun (key, d) => key.map (·, d) with
  | some members => .fields members
  | none => .unreadable

/-- A token that begins a value. -/
def begin? (t : Token) (stack : List Open) : Option Expectation :=
  match t with
  | .listStart => some (.firstItem stack)
  | .fieldsStart => some (.firstKey stack)
  | .null => some (put .null stack)
  | .bool b => some (put (.bool b) stack)
  | .number n => some (put (n.elim .unreadable .number) stack)
  | .text s => some (put (s.elim .unreadable .text) stack)
  | _ => none

/-- One step of the reader. -/
def accept (e : Expectation) (t : Token) : Option Expectation :=
  match e, t with
  | .value stack, t => begin? t stack
  | .firstItem stack, .listEnd => some (close (.list []) stack)
  | .firstItem stack, t => begin? t (.list [] :: stack)
  | .firstKey stack, .fieldsEnd => some (close (.fields []) stack)
  | .firstKey stack, .text key => some (.colon [] key stack)
  | .key members stack, .text key => some (.colon members key stack)
  | .colon members key stack, .colon => some (.value (.fields members key :: stack))
  | .moreItems items stack, .comma => some (.value (.list items :: stack))
  | .moreItems items stack, .listEnd => some (close (.list items.reverse) stack)
  | .moreMembers members stack, .comma => some (.key members stack)
  | .moreMembers members stack, .fieldsEnd => some (close (object members) stack)
  | _, _ => none

/-- The document that remains when all tokens have been accepted. -/
def assemble : Expectation → List Token → Option Document
  | .nothing d, [] => some d
  | _, [] => none
  | e, t :: ts =>
    match accept e t with
    | none => none
    | some next => assemble next ts

/-- The document of a JSON text. -/
def parse? (s : String) : Option Document := do assemble (.value []) (← scan s)

end EntityQuery.Json
