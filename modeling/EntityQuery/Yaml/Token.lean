import EntityQuery.Yaml.Scalar

/-!
# Tokens of a YAML text

Indentation and brackets are made explicit as tokens. Whether a scalar or bracket is a key shows
only at the colon behind it, so the scanner remembers it as a candidate: at the colon a key token,
and the beginning of an object when the column is a new one, are put in front of it. A candidate
stays one on its own line, for `maxKeyLength` bytes. One that stands where a further key of an open
object has to stand must turn out to be a key.
-/

set_option autoImplicit false

namespace EntityQuery.Yaml

/-- `listStart`, `mapStart` and `blockEnd` stand for changes of the indentation. -/
inductive Token
  | scalar (document : Document)
  | listStart | mapStart | blockEnd
  | dash | key | value
  | bracketOpen | bracketClose | braceOpen | braceClose | comma
  | documentStart | documentEnd

/-- The number of bytes from the beginning of a key within which its colon stands. -/
def maxKeyLength : Nat := 1024

/-! ## Candidates -/

/-- A token that may turn out to begin a key: where it stands, how many tokens come before it, and
whether it has to be a key. -/
structure Candidate where
  start : Spot
  position : Nat
  required : Bool

/-- Whether a colon at `spot` comes too late for a candidate. -/
def Candidate.isStale (c : Candidate) (spot : Spot) : Bool :=
  c.start.line < spot.line || c.start.offset + maxKeyLength < spot.offset

/-- What is left of a candidate at `spot`, unless it had to be a key and cannot any more. -/
def Candidate.refresh? (spot : Spot) : Option Candidate → Option (Option Candidate)
  | none => some none
  | some c => if !c.isStale spot then some (some c) else if c.required then none else some none

/-! ## The scanner -/

/-- What the scanner knows: the tokens found, last first, and their number; the columns of the open
blocks, innermost first; the candidate within the innermost bracket, and those outside of each open
bracket; and whether a key may begin here. -/
structure Scanner where
  found : List Token
  size : Nat
  blocks : List Nat
  candidate : Option Candidate
  outer : List (Option Candidate)
  keyAllowed : Bool

namespace Scanner

def start : Scanner := ⟨[], 0, [], none, [], true⟩

/-- Whether a bracket is open. -/
def inFlow (s : Scanner) : Bool := !s.outer.isEmpty

/-- The first column inside the innermost block. -/
def least (s : Scanner) : Nat :=
  match s.blocks with
  | [] => 0
  | column :: _ => column + 1

/-- The scanner with a further token. -/
def emit (t : Token) (s : Scanner) : Scanner :=
  { s with found := t :: s.found, size := s.size + 1 }

/-- The scanner with a token in front of the last `behind` ones. -/
def insert (t : Token) (behind : Nat) (s : Scanner) : Scanner :=
  { s with found := s.found.take behind ++ t :: s.found.drop behind, size := s.size + 1 }

/-- The scanner when the candidate cannot be a key any more. -/
def dropCandidate? (s : Scanner) : Option Scanner :=
  if s.candidate.any (·.required) then none else some { s with candidate := none }

/-- The scanner at a further spot. The candidates outside of a bracket wait until it is closed. -/
def advance? (spot : Spot) (s : Scanner) : Option Scanner := do
  return { s with candidate := ← Candidate.refresh? spot s.candidate }

/-- The scanner when a token begins at `spot` that may be the beginning of a key. -/
def saveCandidate? (spot : Spot) (s : Scanner) : Option Scanner :=
  if s.keyAllowed then do
    let s ← s.dropCandidate?
    let required := !s.inFlow && s.blocks.head? = some spot.column
    return { s with candidate := some ⟨spot, s.size, required⟩ }
  else some s

/-! ### Blocks -/

/-- A block at `column` begins with `t`, in front of the last `behind` tokens, unless one is open
there or a bracket is. -/
def openBlock (column : Nat) (t : Token) (behind : Nat) (s : Scanner) : Scanner :=
  if s.inFlow || column < s.least then s
  else { s.insert t behind with blocks := column :: s.blocks }

/-- The scanner with the end of each of the given blocks. -/
def emitEnds (blocks : List Nat) (s : Scanner) : Scanner :=
  blocks.foldl (fun s _ => s.emit .blockEnd) s

/-- The blocks right of a token at `column` end, unless it stands in brackets. -/
def dedent (column : Nat) (s : Scanner) : Scanner :=
  if s.inFlow then s
  else
    let (ended, blocks) := s.blocks.span (column < ·)
    { s.emitEnds ended with blocks }

/-- All blocks end. -/
def endBlocks (s : Scanner) : Scanner := { s.emitEnds s.blocks with blocks := [] }

/-! ### Marks -/

/-- A line that parts documents. -/
def boundary? (t : Token) (s : Scanner) : Option Scanner := do
  let s ← s.endBlocks.dropCandidate?
  return { s with keyAllowed := false }.emit t

/-- An opening bracket, which may begin a key. -/
def openBracket? (t : Token) (spot : Spot) (s : Scanner) : Option Scanner := do
  let s ← s.saveCandidate? spot
  return { s with candidate := none, outer := s.candidate :: s.outer, keyAllowed := true }.emit t

/-- A closing bracket. -/
def closeBracket? (t : Token) (s : Scanner) : Option Scanner := do
  let s ← s.dropCandidate?
  return { s with
    candidate := s.outer.head?.join, outer := s.outer.tail, keyAllowed := false }.emit t

/-- A comma. -/
def comma? (s : Scanner) : Option Scanner := do
  return { ← s.dropCandidate? with keyAllowed := true }.emit .comma

/-- A dash or a question mark, which begins the block `block` where there is none. -/
def indicator? (block t : Token) (keyAllowed : Bool) (spot : Spot) (s : Scanner) :
    Option Scanner :=
  if s.inFlow || s.keyAllowed then do
    return { ← (s.openBlock spot.column block 0).dropCandidate? with keyAllowed }.emit t
  else none

/-- A colon. It makes the candidate a key; without one it follows a key that has been marked. -/
def colon? (spot : Spot) (s : Scanner) : Option Scanner :=
  match s.candidate with
  | some c =>
    let behind := s.size - c.position
    let s := { s.insert .key behind with candidate := none, keyAllowed := false }
    some ((s.openBlock c.start.column .mapStart (behind + 1)).emit .value)
  | none =>
    if s.inFlow then some ({ s with keyAllowed := false }.emit .value)
    else if s.keyAllowed then some ((s.openBlock spot.column .mapStart 0).emit .value)
    else none

/-- A scalar, which may be a key. -/
def scalar? (spot : Spot) (rest : List Spot) (s : Scanner) : Option (Scanner × List Spot) := do
  let (d, r) ← Yaml.scalar? s.inFlow s.least (spot :: rest)
  let s ← s.saveCandidate? spot
  return ({ s with keyAllowed := r.lineEnded }.emit (.scalar d), r.rest)

/-- The token that begins at `spot`, and the spots behind it. -/
def token? (spot : Spot) (rest : List Spot) (s : Scanner) : Option (Scanner × List Spot) :=
  let alone := s.inFlow || endsHere rest
  if isMarker '-' (spot :: rest) then (s.boundary? .documentStart).map (·, rest.drop 2)
  else if isMarker '.' (spot :: rest) then (s.boundary? .documentEnd).map (·, rest.drop 2)
  else if spot.char = '[' then (s.openBracket? .bracketOpen spot).map (·, rest)
  else if spot.char = '\x7b' then (s.openBracket? .braceOpen spot).map (·, rest)
  else if spot.char = ']' then (s.closeBracket? .bracketClose).map (·, rest)
  else if spot.char = '\x7d' then (s.closeBracket? .braceClose).map (·, rest)
  else if spot.char = ',' then s.comma?.map (·, rest)
  else if spot.char = '-' && endsHere rest then
    (s.indicator? .listStart .dash true spot).map (·, rest)
  else if spot.char = '?' && alone then
    (s.indicator? .mapStart .key (!s.inFlow) spot).map (·, rest)
  else if spot.char = ':' && alone then (s.colon? spot).map (·, rest)
  else s.scalar? spot rest

end Scanner

/-! ## Scanning -/

/-- The spots from the next token on, and whether a key may begin there: blanks, ends of lines,
comments and a mark of the byte order at the beginning of a line are passed over. A tab may not
stand where a key may begin, but for brackets. -/
def skip (inFlow keyAllowed comment : Bool) : List Spot → Bool × List Spot
  | [] => (keyAllowed, [])
  | s :: rest =>
    if isBreak s.char then skip inFlow (keyAllowed || !inFlow) false rest
    else if comment then skip inFlow keyAllowed true rest
    else if s.char = ' ' || (s.char = '\ufeff' && s.column = 0) then
      skip inFlow keyAllowed false rest
    else if s.char = '\t' && (inFlow || !keyAllowed) then skip inFlow keyAllowed false rest
    else if s.char = '#' then skip inFlow keyAllowed true rest
    else (keyAllowed, s :: rest)

/-- The tokens of spots behind those found already, in at most the given number of steps. -/
def scanFrom : Nat → Scanner → List Spot → Option (List Token)
  | 0, _, _ => none
  | steps + 1, s, ss =>
    match skip s.inFlow s.keyAllowed false ss with
    | (_, []) => s.dropCandidate?.map (·.endBlocks.found.reverse)
    | (keyAllowed, spot :: rest) => do
      let s ← { s with keyAllowed }.advance? spot
      let (s, rest) ← (s.dedent spot.column).token? spot rest
      scanFrom steps s rest

/-- The tokens of a text. Every step but the last takes a character. -/
def tokens? (s : String) : Option (List Token) := do
  let ss ← spots? s
  scanFrom (ss.length + 1) .start ss

end EntityQuery.Yaml
