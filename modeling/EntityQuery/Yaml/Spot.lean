/-!
# Characters of a YAML text with their places

A text is read as a list of characters that know their line, their column and their offset,
because the structure of the text hangs on columns and the length of a key is bounded.
-/

set_option autoImplicit false

namespace EntityQuery.Yaml

/-- A character at its place. Lines, columns and offsets are counted from zero, offsets in bytes. -/
structure Spot where
  char : Char
  line : Nat
  column : Nat
  offset : Nat
deriving DecidableEq

/-- Whether a character may stand in a text at all. -/
def isAllowed (c : Char) : Bool :=
  let n := c.toNat
  n = 0x09 || n = 0x0a || n = 0x0d || (0x20 ≤ n && n ≤ 0x7e) || n = 0x85 ||
  (0xa0 ≤ n && n ≤ 0xfffd) || 0x10000 ≤ n

/-- Whether a character ends a line. Other ends of lines than these are written as line feeds
before a text is read. -/
def isBreak (c : Char) : Bool := c = '\n' || c = '\u2028' || c = '\u2029'

/-- The characters with the ends of lines written as line feeds, but for the separators of lines
and paragraphs. -/
def unifyBreaks : List Char → List Char
  | '\r' :: '\n' :: cs => '\n' :: unifyBreaks cs
  | c :: cs => (if c = '\r' ∨ c = '\x85' then '\n' else c) :: unifyBreaks cs
  | [] => []

/-- The places of characters, the first of which stands at the given place. -/
def place (line column offset : Nat) : List Char → List Spot
  | [] => []
  | c :: cs =>
    ⟨c, line, column, offset⟩ ::
      if isBreak c then place (line + 1) 0 (offset + c.utf8Size) cs
      else place line (column + 1) (offset + c.utf8Size) cs

/-- The spots of a text without characters that may not stand in it. -/
def spots? (s : String) : Option (List Spot) :=
  if s.toList.all isAllowed then some (place 0 0 0 (unifyBreaks s.toList)) else none

/-! ## Blanks -/

def isBlank (c : Char) : Bool := c = ' ' || c = '\t'

/-- Whether a token ends before the spots: at a blank, at the end of the line or of the text. -/
def endsHere : List Spot → Bool
  | [] => true
  | s :: _ => isBlank s.char || isBreak s.char

/-- Whether a line that parts documents begins here. -/
def isMarker (mark : Char) : List Spot → Bool
  | a :: b :: c :: rest =>
    a.column = 0 && a.char = mark && b.char = mark && c.char = mark && endsHere rest
  | _ => false

/-- Whether a document ends or begins here. -/
def isBoundary (ss : List Spot) : Bool := isMarker '-' ss || isMarker '.' ss

end EntityQuery.Yaml
