import EntityQuery.Yaml.Token

/-!
# The document of a YAML text

Documents are read from tokens. Where a key, a value or an item is left out, an empty scalar stands
for it. A text holds a single document.

The readers take a bound on the number of steps, which the number of tokens gives.
-/

set_option autoImplicit false

namespace EntityQuery.Yaml

/-- An empty scalar. -/
def emptyNode : Document := .bare ""

namespace Token

/-- Whether a key, a value or an item is left out before this token of a block. A list without
indentation of its own also ends at keys and values. -/
def endsBlockNode (inMap : Bool) : Token → Bool
  | .blockEnd => true
  | .dash => !inMap
  | .key => inMap
  | .value => inMap
  | _ => false

/-- Whether a value or an item is left out before this token within brackets. -/
def endsFlowNode : Token → Bool
  | .comma => true
  | .bracketClose => true
  | .braceClose => true
  | _ => false

end Token

/-! ## Nodes -/

mutual
/-- A node. Blocks may stand for it outside brackets only, and a list without indentation of its own
as a key or value of a block only. -/
def node : Nat → Bool → Bool → List Token → Option (Document × List Token)
  | steps + 1, _, _, .bracketOpen :: ts => flowItems steps true [] ts
  | steps + 1, _, _, .braceOpen :: ts => flowMembers steps true [] ts
  | steps + 1, true, _, .listStart :: ts => blockItems steps [] ts
  | steps + 1, true, _, .mapStart :: ts => blockMembers steps [] ts
  | steps + 1, _, true, .dash :: ts => looseItems steps [] (.dash :: ts)
  | _, _, _, .scalar d :: ts => some (d, ts)
  | _, _, _, _ => none
/-- The items of a block list, read so far in `done` with the last first. -/
def blockItems : Nat → List Document → List Token → Option (Document × List Token)
  | steps + 1, done, .dash :: ts => do
    let (item, ts) ← blockNode steps false ts
    blockItems steps (item :: done) ts
  | _, done, .blockEnd :: ts => some (.list done.reverse, ts)
  | _, _, _ => none
/-- The items of a list whose dashes stand below the key it belongs to. -/
def looseItems : Nat → List Document → List Token → Option (Document × List Token)
  | steps + 1, done, .dash :: ts => do
    let (item, ts) ← looseNode steps ts
    looseItems steps (item :: done) ts
  | _, done, ts => some (.list done.reverse, ts)
/-- The members of a block object, read so far in `done` with the last first. -/
def blockMembers : Nat → List (Document × Document) → List Token → Option (Document × List Token)
  | steps + 1, done, .key :: ts => do
    let (key, ts) ← blockNode steps true ts
    let (d, ts) ← blockValue steps ts
    blockMembers steps ((key, d) :: done) ts
  | _, done, .blockEnd :: ts => some (.mapping done.reverse, ts)
  | _, _, _ => none
/-- An item of a block list, or a key or value of a block object. -/
def blockNode : Nat → Bool → List Token → Option (Document × List Token)
  | steps + 1, inMap, t :: ts =>
    if t.endsBlockNode inMap then some (emptyNode, t :: ts) else node steps true inMap (t :: ts)
  | _, _, _ => none
/-- An item of a list whose dashes stand below the key it belongs to. -/
def looseNode : Nat → List Token → Option (Document × List Token)
  | steps + 1, t :: ts =>
    if t.endsBlockNode true || t.endsBlockNode false then some (emptyNode, t :: ts)
    else node steps true false (t :: ts)
  | _, _ => none
/-- The value of a block object, with its colon. -/
def blockValue : Nat → List Token → Option (Document × List Token)
  | steps + 1, .value :: ts => blockNode steps true ts
  | _, ts => some (emptyNode, ts)
/-- The items of a list in brackets, read so far in `done` with the last first. Between two items
there is a comma; behind the last there may be one. -/
def flowItems : Nat → Bool → List Document → List Token → Option (Document × List Token)
  | _, _, done, .bracketClose :: ts => some (.list done.reverse, ts)
  | steps + 1, false, done, .comma :: ts => flowItems steps true done ts
  | steps + 1, true, done, .key :: ts => do
    let (key, ts) ← node steps false false ts
    let (d, ts) ← flowValue steps ts
    flowItems steps false (.mapping [(key, d)] :: done) ts
  | steps + 1, true, done, ts => do
    let (item, ts) ← node steps false false ts
    flowItems steps false (item :: done) ts
  | _, _, _, _ => none
/-- The members of an object in brackets, read so far in `done` with the last first. -/
def flowMembers : Nat → Bool → List (Document × Document) → List Token →
    Option (Document × List Token)
  | _, _, done, .braceClose :: ts => some (.mapping done.reverse, ts)
  | steps + 1, false, done, .comma :: ts => flowMembers steps true done ts
  | steps + 1, true, done, .key :: ts => do
    let (key, ts) ← flowKey steps ts
    let (d, ts) ← flowValue steps ts
    flowMembers steps false ((key, d) :: done) ts
  | steps + 1, true, done, ts => do
    let (key, ts) ← node steps false false ts
    flowMembers steps false ((key, emptyNode) :: done) ts
  | _, _, _, _ => none
/-- A key of an object in brackets, behind its mark. -/
def flowKey : Nat → List Token → Option (Document × List Token)
  | _, .value :: ts => some (emptyNode, .value :: ts)
  | steps + 1, t :: ts =>
    if t.endsFlowNode then some (emptyNode, t :: ts) else node steps false false (t :: ts)
  | _, _ => none
/-- A value within brackets, with its colon. -/
def flowValue : Nat → List Token → Option (Document × List Token)
  | steps + 1, .value :: t :: ts =>
    if t.endsFlowNode then some (emptyNode, t :: ts) else node steps false false (t :: ts)
  | _, ts => some (emptyNode, ts)
end

/-! ## Documents -/

/-- The node of a document behind the line that begins it, which may be left out. -/
def content (steps : Nat) : List Token → Option (Document × List Token)
  | [] => some (emptyNode, [])
  | .documentStart :: ts => some (emptyNode, .documentStart :: ts)
  | .documentEnd :: ts => some (emptyNode, .documentEnd :: ts)
  | ts => node steps true false ts

/-- The only document of a stream of tokens. -/
def stream (steps : Nat) : List Token → Option (Document × List Token)
  | [] => some (emptyNode, [])
  | .documentStart :: ts => content steps ts
  | ts => node steps true false ts

/-- Whether nothing but ends of the document is left. -/
def isDone : List Token → Bool
  | [] => true
  | .documentEnd :: ts => isDone ts
  | _ => false

/-- The document of a YAML text. A text without content is an empty scalar. -/
def parse? (s : String) : Option Document := do
  let ts ← tokens? s
  let (d, ts) ← stream (4 * ts.length + 4) ts
  if isDone ts then some d else none

end EntityQuery.Yaml
