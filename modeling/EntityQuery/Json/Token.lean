import EntityQuery.Document
import EntityQuery.Number.Scaling

/-!
# Lexemes of JSON text

The text is read one character at a time. Numbers and the words `null`, `true` and `false` are
first collected as a run of characters and recognised when the run ends. A number or a text may be
well formed and yet have no value; its lexeme then carries none.
-/

set_option autoImplicit false

namespace EntityQuery.Json

inductive Token
  | listStart | listEnd | fieldsStart | fieldsEnd | colon | comma
  | null
  | bool (value : Bool)
  | number (value : Option Number)
  | text (value : Option String)

/-! ## Numbers -/

/-- A number as it is written: the sign, the digits before and after the point, and the exponent
if there is one. -/
structure Numeral where
  negative : Bool
  wholePart : List Char
  fraction : List Char
  exponent : Option Int

/-- Whether `c` marks an exponent. -/
def isExponentMark (c : Char) : Bool := c = 'e' || c = 'E'

/-- A run of decimal digits, of which there is at least one. -/
def digits? (cs : List Char) : Option Nat :=
  if cs.isEmpty || !cs.all Char.isDigit then none
  else some (cs.foldl (fun n c => 10 * n + (c.toNat - 48)) 0)

/-- The exponent of a number, behind its mark. -/
def exponent? : List Char → Option Int
  | '+' :: cs => (digits? cs).map Int.ofNat
  | '-' :: cs => (digits? cs).map fun n => -(Int.ofNat n)
  | cs => (digits? cs).map Int.ofNat

/-- Whether `cs` can be the whole part of a number: digits without a needless zero in front. -/
def isWholePart : List Char → Bool
  | [] => false
  | '0' :: rest => rest.isEmpty
  | _ => true

namespace Numeral

/-- The numeral that ends in an exponent or nowhere. -/
def ending? (negative : Bool) (wholePart fraction : List Char) : List Char → Option Numeral
  | [] => some ⟨negative, wholePart, fraction, none⟩
  | mark :: power =>
    if isExponentMark mark then do
      return ⟨negative, wholePart, fraction, some (← exponent? power)⟩
    else none

/-- A numeral without its sign. -/
def unsigned? (negative : Bool) (cs : List Char) : Option Numeral :=
  let wholePart := cs.takeWhile Char.isDigit
  if !isWholePart wholePart then none
  else
    match cs.dropWhile Char.isDigit with
    | '.' :: rest =>
      let fraction := rest.takeWhile Char.isDigit
      if fraction.isEmpty then none
      else ending? negative wholePart fraction (rest.dropWhile Char.isDigit)
    | rest => ending? negative wholePart [] rest

def ofChars? : List Char → Option Numeral
  | '-' :: cs => unsigned? true cs
  | cs => unsigned? false cs

/-- Whether there is neither a point nor an exponent. -/
def isWhole (n : Numeral) : Bool := n.fraction.isEmpty && n.exponent.isNone

/-- The value of a numeral, unless it is too large. It is whole when it is written so and fits 64
bits. A negative zero is a fraction, as no whole number has its sign. -/
def value? (n : Numeral) : Option Number :=
  let d := Decimal.ofLeading n.wholePart n.fraction (n.exponent.getD 0)
  let fits := !n.negative || (0 < d.digits && d.digits ≤ 0x8000000000000000)
  if n.isWhole && d.exponent = 0 && fits then some (.whole n.negative d.digits)
  else d.scale?.map fun pattern => .real (Binary64.ofParts n.negative pattern)

end Numeral

/-- The token of a run of characters outside quotes. -/
def word? (cs : List Char) : Option Token :=
  if cs = "null".toList then some .null
  else if cs = "true".toList then some (.bool true)
  else if cs = "false".toList then some (.bool false)
  else (Numeral.ofChars? cs).map fun n => .number n.value?

/-! ## Texts -/

/-- The characters of code units. A character beyond the first plane may be given by itself or by a
high surrogate with a low one behind it; a surrogate alone is no character. -/
def ofUnits? : List Nat → Option (List Char)
  | [] => some []
  | [n] => if 0xD800 ≤ n ∧ n ≤ 0xDFFF then none else some [Char.ofNat n]
  | n :: m :: rest =>
    if 0xD800 ≤ n ∧ n ≤ 0xDBFF ∧ 0xDC00 ≤ m ∧ m ≤ 0xDFFF then
      (ofUnits? rest).map (Char.ofNat (0x10000 + (n - 0xD800) * 0x400 + (m - 0xDC00)) :: ·)
    else if 0xD800 ≤ n ∧ n ≤ 0xDFFF then none
    else (ofUnits? (m :: rest)).map (Char.ofNat n :: ·)

/-! ## Scanning -/

/-- Where the scanner stands. Characters of a run and code units of a text are kept last first. -/
inductive Mode
  | between
  | run (done : List Char)
  | quoted (done : List Nat)
  | escape (done : List Nat)
  | code (done : List Nat) (left value : Nat)

/-- Blank characters of JSON. -/
def isSpace (c : Char) : Bool := c = ' ' || c = '\t' || c = '\n' || c = '\r'

/-- The token that `c` is by itself. -/
def mark? (c : Char) : Option Token :=
  match c with
  | '[' => some .listStart
  | ']' => some .listEnd
  | '\x7b' => some .fieldsStart
  | '\x7d' => some .fieldsEnd
  | ':' => some .colon
  | ',' => some .comma
  | _ => none

/-- What a single character stands for behind a backslash. -/
def escaped? (c : Char) : Option Char :=
  match c with
  | '"' => some '"'
  | '\\' => some '\\'
  | '/' => some '/'
  | 'b' => some '\x08'
  | 'f' => some '\x0c'
  | 'n' => some '\n'
  | 'r' => some '\r'
  | 't' => some '\t'
  | _ => none

/-- The value of a hexadecimal digit. -/
def hexValue? (c : Char) : Option Nat :=
  if '0' ≤ c ∧ c ≤ '9' then some (c.toNat - 48)
  else if 'a' ≤ c ∧ c ≤ 'f' then some (c.toNat - 87)
  else if 'A' ≤ c ∧ c ≤ 'F' then some (c.toNat - 55)
  else none

/-- The mode and the token, if any, after a character that is not part of a run. -/
def outside (c : Char) : Option (Mode × List Token) :=
  if isSpace c then some (.between, [])
  else if c = '"' then some (.quoted [], [])
  else match mark? c with
    | some t => some (.between, [t])
    | none => some (.run [c], [])

/-- One step of the scanner. -/
def step (mode : Mode) (c : Char) : Option (Mode × List Token) :=
  match mode with
  | .between => outside c
  | .run done => do
    let (next, tokens) ← outside c
    match next with
    | .run _ => return (.run (c :: done), [])
    | next => return (next, (← word? done.reverse) :: tokens)
  | .quoted done =>
    if c = '"' then some (.between, [.text ((ofUnits? done.reverse).map String.ofList)])
    else if c = '\\' then some (.escape done, [])
    else if c.toNat < 0x20 then none
    else some (.quoted (c.toNat :: done), [])
  | .escape done =>
    if c = 'u' then some (.code done 3 0, [])
    else (escaped? c).map fun e => (.quoted (e.toNat :: done), [])
  | .code done left value => do
    let digit ← hexValue? c
    match left with
    | 0 => return (.quoted ((16 * value + digit) :: done), [])
    | left + 1 => return (.code done left (16 * value + digit), [])

/-- The tokens of `cs` when the scanner stands in `mode`, behind those already found, which are
kept last first. -/
def scanFrom (found : List Token) : Mode → List Char → Option (List Token)
  | .between, [] => some found.reverse
  | .run done, [] => (word? done.reverse).map fun t => (t :: found).reverse
  | _, [] => none
  | mode, c :: cs =>
    match step mode c with
    | none => none
    | some (next, tokens) => scanFrom (tokens.reverse ++ found) next cs

/-- The tokens of a text. -/
def scan (s : String) : Option (List Token) := scanFrom [] .between s.toList

end EntityQuery.Json
