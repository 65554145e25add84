import EntityQuery.Document
import EntityQuery.Yaml.Spot

/-!
# Scalars of a YAML text

A scalar is plain, or stands in single or double quotes. It may go on over several lines: a single
line feed then counts as a blank, and of several all but the first are kept. The separators of lines
and paragraphs are kept always. No line within quotes may look like one that parts documents.
-/

set_option autoImplicit false

namespace EntityQuery.Yaml

/-- What stands between two parts of a scalar: blanks within a line, or the end of a line and
those that follow it. The first end does not count when it is escaped. All are kept last first. -/
inductive Gap
  | blanks (chars : List Char)
  | breaks (first : Char) (further : List Char)
  | joined (further : List Char)

namespace Gap

/-- No gap. -/
def none : Gap := .blanks []

/-- The gap with a further blank. -/
def blank (c : Char) : Gap → Gap
  | .blanks chars => .blanks (c :: chars)
  | gap => gap

/-- The gap with a further end of a line. -/
def newline (c : Char) : Gap → Gap
  | .blanks _ => .breaks c []
  | .breaks first further => .breaks first (c :: further)
  | .joined further => .joined (c :: further)

/-- The characters that the gap stands for, last first. A line feed that comes first is a blank
when it is alone and nothing otherwise. -/
def reversed : Gap → List Char
  | .blanks chars => chars
  | .breaks '\n' [] => [' ']
  | .breaks '\n' further => further
  | .breaks first further => further ++ [first]
  | .joined further => further

/-- Whether there is a gap at all. -/
def isOpen : Gap → Bool
  | .blanks [] => false
  | _ => true

/-- Whether a line ended in the gap. -/
def hasBreak : Gap → Bool
  | .blanks _ => false
  | _ => true

end Gap

/-! ## Plain scalars -/

/-- The characters that part the items of lists and objects in brackets. -/
def isFlowIndicator (c : Char) : Bool := c ∈ [',', '[', ']', '\x7b', '\x7d']

/-- Whether a plain scalar can begin here. -/
def startsPlain (inFlow : Bool) : List Spot → Bool
  | [] => false
  | s :: rest =>
    if isBlank s.char || isBreak s.char then false
    else if s.char = '-' then !endsHere rest
    else if s.char = '?' || s.char = ':' then !inFlow && !endsHere rest
    else !(isFlowIndicator s.char) &&
      s.char ∉ ['#', '&', '*', '!', '|', '>', '\x27', '"', '%', '@', '\x60']

/-- Whether a colon stands directly before a character that parts items. -/
def isStrayColon (c : Char) : List Spot → Bool
  | [] => false
  | next :: _ => c = ':' && (isFlowIndicator next.char || next.char = '?')

/-- What has been read of a text: the characters of a scalar, whether a line ended behind them, and
the spots that are left. -/
structure Reading where
  chars : List Char
  lineEnded : Bool
  rest : List Spot

/-- The rest of a plain scalar, whose characters so far are in `done` with the last first. Outside
brackets its further lines begin at column `least` or later, and no tab may stand before that
column; within brackets no colon may stand before a character that parts items. -/
def plainFrom (inFlow : Bool) (least : Nat) (done : List Char) (gap : Gap) :
    List Spot → Option Reading
  | [] => some ⟨done.reverse, gap.hasBreak, []⟩
  | s :: rest =>
    if isBreak s.char then plainFrom inFlow least done (gap.newline s.char) rest
    else if isBlank s.char then
      if gap.hasBreak ∧ s.char = '\t' ∧ s.column < least then none
      else plainFrom inFlow least done (gap.blank s.char) rest
    else if (s.char = '#' ∧ gap.isOpen) ∨
        (gap.hasBreak ∧ ((¬ inFlow ∧ s.column < least) ∨ isBoundary (s :: rest))) then
      some ⟨done.reverse, gap.hasBreak, s :: rest⟩
    else if inFlow ∧ isStrayColon s.char rest then none
    else if (s.char = ':' ∧ endsHere rest) ∨ (inFlow ∧ isFlowIndicator s.char) then
      some ⟨done.reverse, gap.hasBreak, s :: rest⟩
    else plainFrom inFlow least (s.char :: (gap.reversed ++ done)) .none rest

/-! ## Quoted scalars -/

/-- The rest of a scalar in single quotes, after the first quote. -/
def singleFrom (done : List Char) (gap : Gap) : List Spot → Option Reading
  | [] => none
  | s :: rest =>
    if isBreak s.char then singleFrom done (gap.newline s.char) rest
    else if isBlank s.char then singleFrom done (gap.blank s.char) rest
    else if isBoundary (s :: rest) then none
    else if s.char = '\x27' then
      match rest with
      | t :: rest =>
        if t.char = '\x27' then singleFrom ('\x27' :: (gap.reversed ++ done)) .none rest
        else some ⟨(gap.reversed ++ done).reverse, false, t :: rest⟩
      | [] => some ⟨(gap.reversed ++ done).reverse, false, []⟩
    else singleFrom (s.char :: (gap.reversed ++ done)) .none rest

/-- The value of a hexadecimal digit. -/
def hexValue? (c : Char) : Option Nat :=
  if '0' ≤ c ∧ c ≤ '9' then some (c.toNat - 48)
  else if 'a' ≤ c ∧ c ≤ 'f' then some (c.toNat - 87)
  else if 'A' ≤ c ∧ c ≤ 'F' then some (c.toNat - 55)
  else none

/-- The character of a number, if there is one. -/
def charOf? (n : Nat) : Option Char :=
  if n < 0xD800 ∨ (0xE000 ≤ n ∧ n < 0x110000) then some (Char.ofNat n) else none

/-- The character that a letter after a backslash stands for. -/
def escaped? : Char → Option Char
  | '0' => some '\x00'
  | 'a' => some '\x07'
  | 'b' => some '\x08'
  | 't' => some '\t'
  | '\t' => some '\t'
  | 'n' => some '\n'
  | 'v' => some '\x0b'
  | 'f' => some '\x0c'
  | 'r' => some '\r'
  | 'e' => some '\x1b'
  | ' ' => some ' '
  | '"' => some '"'
  | '/' => some '/'
  | '\\' => some '\\'
  | 'N' => some '\x85'
  | '_' => some '\xa0'
  | 'L' => some '\u2028'
  | 'P' => some '\u2029'
  | _ => none

/-- The number of digits that follow a letter after a backslash. -/
def digitCount : Char → Nat
  | 'x' => 2
  | 'u' => 4
  | 'U' => 8
  | _ => 0

/-- The rest of a scalar in double quotes, after the first quote. `digits` are those still to come
of a character written by its number, and `number` is its value so far. -/
def doubleFrom (done : List Char) (gap : Gap) (digits number : Nat) : List Spot → Option Reading
  | [] => none
  | s :: rest =>
    match digits with
    | 1 => do
      let c ← charOf? (number * 16 + (← hexValue? s.char))
      doubleFrom (c :: done) .none 0 0 rest
    | digits + 2 => do doubleFrom done gap (digits + 1) (number * 16 + (← hexValue? s.char)) rest
    | 0 =>
      if isBreak s.char then doubleFrom done (gap.newline s.char) 0 0 rest
      else if isBlank s.char then doubleFrom done (gap.blank s.char) 0 0 rest
      else if isBoundary (s :: rest) then none
      else
        let done := gap.reversed ++ done
        if s.char = '"' then some ⟨done.reverse, false, rest⟩
        else if s.char = '\\' then
          match rest with
          | [] => none
          | t :: rest =>
            if isBreak t.char then doubleFrom done (.joined []) 0 0 rest
            else if digitCount t.char = 0 then do
              doubleFrom ((← escaped? t.char) :: done) .none 0 0 rest
            else doubleFrom done .none (digitCount t.char) 0 rest
        else doubleFrom (s.char :: done) .none 0 0 rest

/-! ## Scalars -/

/-- The scalar that begins here, with what has been read of it. -/
def scalar? (inFlow : Bool) (least : Nat) : List Spot → Option (Document × Reading)
  | [] => none
  | s :: rest =>
    if s.char = '\x27' then do
      let r ← singleFrom [] .none rest
      return (.text (String.ofList r.chars), r)
    else if s.char = '"' then do
      let r ← doubleFrom [] .none 0 0 rest
      return (.text (String.ofList r.chars), r)
    else if startsPlain inFlow (s :: rest) then do
      let r ← plainFrom inFlow least [] .none (s :: rest)
      return (.bare (String.ofList r.chars), r)
    else none

end EntityQuery.Yaml
