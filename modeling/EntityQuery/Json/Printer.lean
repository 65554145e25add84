import EntityQuery.Document

/-!
# Writing JSON text

Members are written in the order of the document. The compact form has no blanks; the indented
form puts each item and member on a line of its own, two blanks deeper than what holds it. A
number that is not finite, or a document that JSON has no form for, becomes `null`.
-/

set_option autoImplicit false

namespace EntityQuery.Json

/-- A hexadecimal digit. -/
def hexDigit (n : Nat) : Char := if n < 10 then Char.ofNat (48 + n) else Char.ofNat (87 + n)

/-- One character inside a written text. -/
def writtenChar (c : Char) : List Char :=
  match c with
  | '"' => ['\\', '"']
  | '\\' => ['\\', '\\']
  | '\x08' => ['\\', 'b']
  | '\x0c' => ['\\', 'f']
  | '\n' => ['\\', 'n']
  | '\r' => ['\\', 'r']
  | '\t' => ['\\', 't']
  | c =>
    if c.toNat < 0x20 then ['\\', 'u', '0', '0', hexDigit (c.toNat / 16), hexDigit (c.toNat % 16)]
    else [c]

/-- A text between quotes. -/
def written (s : String) : String := "\"" ++ String.ofList (s.toList.flatMap writtenChar) ++ "\""

/-- A number. -/
def writtenNumber : Number → String
  | .whole negative n => (if negative then "-" else "") ++ toString n
  | .real x => if x.isFinite then x.toText else "null"

/-- A document that holds no other. -/
def scalar : Document → String
  | .bool true => "true"
  | .bool false => "false"
  | .number n => writtenNumber n
  | .text s => written s
  | .bare s => written s
  | _ => "null"

/-! ## Compact form -/

mutual
/-- The compact text of a document. -/
def compact : Document → String
  | .list items => "[" ++ compactItems items ++ "]"
  | .fields members => "\x7b" ++ compactMembers members ++ "\x7d"
  | d => scalar d
def compactItems : List Document → String
  | [] => ""
  | [d] => compact d
  | d :: ds => compact d ++ "," ++ compactItems ds
def compactMembers : List (String × Document) → String
  | [] => ""
  | [(key, d)] => written key ++ ":" ++ compact d
  | (key, d) :: ds => written key ++ ":" ++ compact d ++ "," ++ compactMembers ds
end

/-! ## Indented form -/

/-- A new line with the blanks of nesting level `level`. -/
def newLine (level : Nat) : String := "\n" ++ String.ofList (List.replicate (2 * level) ' ')

mutual
/-- The indented text of a document that stands at nesting level `level`. -/
def indented (level : Nat) : Document → String
  | .list [] => "[]"
  | .list items => "[" ++ indentedItems (level + 1) items ++ newLine level ++ "]"
  | .fields [] => "\x7b\x7d"
  | .fields members => "\x7b" ++ indentedMembers (level + 1) members ++ newLine level ++ "\x7d"
  | d => scalar d
def indentedItems (level : Nat) : List Document → String
  | [] => ""
  | [d] => newLine level ++ indented level d
  | d :: ds => newLine level ++ indented level d ++ "," ++ indentedItems level ds
def indentedMembers (level : Nat) : List (String × Document) → String
  | [] => ""
  | [(key, d)] => newLine level ++ written key ++ ": " ++ indented level d
  | (key, d) :: ds =>
    newLine level ++ written key ++ ": " ++ indented level d ++ "," ++ indentedMembers level ds
end

end EntityQuery.Json
