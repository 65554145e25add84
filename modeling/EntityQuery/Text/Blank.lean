/-!
# Classes of characters, and blank ones

A class of characters is written as the increasing list of code points at which membership
changes: the class begins at the first bound, ends before the second, begins again at the third.

Blank characters are those with the White_Space property. Text is trimmed by taking away the blank
characters at both ends.
-/

set_option autoImplicit false

namespace EntityQuery.Text

/-- Whether `code` lies in the class whose membership changes at `bounds`. -/
def inBounds (code : Nat) : List Nat → Bool
  | [] => false
  | [first] => first ≤ code
  | first :: past :: rest => (first ≤ code && code < past) || inBounds code rest

/-- Bounds of the White_Space property. -/
def blankBounds : List Nat :=
  [0x9, 0xE, 0x20, 0x21, 0x85, 0x86, 0xA0, 0xA1, 0x1680, 0x1681, 0x2000, 0x200B, 0x2028, 0x202A,
   0x202F, 0x2030, 0x205F, 0x2060, 0x3000, 0x3001]

/-- Whether `c` is a blank character. -/
def isBlank (c : Char) : Bool := inBounds c.toNat blankBounds

/-- The characters up to the last one that is not blank. -/
def trimEnd (cs : List Char) : List Char := (cs.reverse.dropWhile isBlank).reverse

/-- The characters between the first and the last one that is not blank. -/
def trimChars (cs : List Char) : List Char := trimEnd (cs.dropWhile isBlank)

/-- `s` without the blank characters at its ends. -/
def trim (s : String) : String := String.ofList (trimChars s.toList)

end EntityQuery.Text
