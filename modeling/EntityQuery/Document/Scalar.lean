import EntityQuery.Document

/-!
# Types of bare scalars

A scalar without quotes stands for nothing, a truth value, a number or a text, decided by its
characters: `settle?` makes that decision for a whole document. Whole numbers that fit 128 bits but
not 64 are refused.
-/

set_option autoImplicit false

namespace EntityQuery.Document

/-- Whether the characters of a bare scalar say that there is nothing. -/
def isNothing (s : String) : Bool := ["", "~", "null", "Null", "NULL"].contains s

/-- The truth value that the characters of a bare scalar spell. -/
def truth? (s : String) : Option Bool :=
  if ["true", "True", "TRUE"].contains s then some true
  else if ["false", "False", "FALSE"].contains s then some false
  else none

/-! ## Numbers -/

/-- The value of a digit in bases up to sixteen. -/
def digitValue (c : Char) : Nat :=
  if '0' ≤ c ∧ c ≤ '9' then c.toNat - 48
  else if 'a' ≤ c ∧ c ≤ 'f' then c.toNat - 87
  else if 'A' ≤ c ∧ c ≤ 'F' then c.toNat - 55
  else 16

/-- The natural number that `cs` spells in the given base. -/
def natIn? (base : Nat) (cs : List Char) : Option Nat :=
  if cs.isEmpty || cs.any (fun c => base ≤ digitValue c) then none
  else some (cs.foldl (fun n c => base * n + digitValue c) 0)

/-- `cs` without a sign in front. -/
def dropSign : List Char → List Char
  | '+' :: cs => cs
  | '-' :: cs => cs
  | cs => cs

/-- Whether `cs` is a number with needless zeros in front, which makes it a text. -/
def hasLeadingZeros (cs : List Char) : Bool :=
  match dropSign cs with
  | '0' :: rest => !rest.isEmpty && rest.all Char.isDigit
  | _ => false

/-- The natural number that `cs` spells, in base sixteen, eight, two or ten. -/
def magnitude? (cs : List Char) : Option Nat :=
  match cs with
  | '0' :: 'x' :: rest => natIn? 16 rest
  | '0' :: 'o' :: rest => natIn? 8 rest
  | '0' :: 'b' :: rest => natIn? 2 rest
  | _ => if hasLeadingZeros cs then none else natIn? 10 cs

/-- The whole number that `cs` spells: whether it is below a minus sign, and its magnitude. -/
def wholeOf? (cs : List Char) : Option (Bool × Nat) :=
  match cs with
  | '-' :: rest => (magnitude? rest).map (true, ·)
  | '+' :: rest => (magnitude? rest).map (false, ·)
  | _ => (magnitude? cs).map (false, ·)

/-- Whether a whole number fits the given count of bits, one of which holds the sign when there is
one. -/
def fits (bits : Nat) (negative : Bool) (magnitude : Nat) : Bool :=
  if negative then magnitude ≤ Nat.pow 2 (bits - 1) else magnitude < Nat.pow 2 bits

/-- The decimal that `cs` spells: digits with at most one point among them, then perhaps an
exponent. -/
def decimalOf? (cs : List Char) : Option Decimal :=
  let wholePart := cs.takeWhile Char.isDigit
  let rest := cs.dropWhile Char.isDigit
  let fraction := match rest with
    | '.' :: more => more.takeWhile Char.isDigit
    | _ => []
  let rest := match rest with
    | '.' :: more => more.dropWhile Char.isDigit
    | _ => rest
  do
    let n ← natIn? 10 (wholePart ++ fraction)
    match rest with
    | [] => return ⟨n, -fraction.length⟩
    | mark :: power =>
      if mark = 'e' || mark = 'E' then
        let e ← natIn? 10 (dropSign power)
        return ⟨n, (if power.head? = some '-' then -(e : Int) else e) - fraction.length⟩
      else none

/-- The binary fraction that `cs` spells. -/
def realOf? (cs : List Char) : Option Binary64 := do
  let x ← (decimalOf? (dropSign cs)).map (Decimal.toBinary64 (cs.head? = some '-'))
  if x.isFinite then some x else none

/-- The spellings of infinite and undefined numbers. -/
def isUnbounded (s : String) : Bool :=
  [".inf", ".Inf", ".INF", "+.inf", "+.Inf", "+.INF", "-.inf", "-.Inf", "-.INF",
   ".nan", ".NaN", ".NAN"].contains s

/-- The document that a bare scalar spells when it is no whole number. -/
def settleWord (s : String) : Document :=
  if isUnbounded s then .number (.real (Binary64.ofParts false BinaryFormat.double.infinity))
  else if hasLeadingZeros s.toList then .text s
  else
    match realOf? s.toList with
    | some x => .number (.real x)
    | none => .text s

/-- The document that a bare scalar spells. -/
def settleScalar? (s : String) : Option Document :=
  if isNothing s then some .null
  else
    match truth? s, wholeOf? s.toList with
    | some b, _ => some (.bool b)
    | none, some (negative, n) =>
      if fits 64 negative n then some (.number (.whole negative n))
      else if fits 128 negative n then none
      else some (settleWord s)
    | none, none => some (settleWord s)

mutual
/-- The document with the type of every bare scalar decided. -/
def settle? : Document → Option Document
  | .bare s => settleScalar? s
  | .list items => (settleItems? items).map .list
  | .fields members => (settleMembers? members).map .fields
  | .mapping members => (settlePairs? members).map .mapping
  | d => some d
def settleItems? : List Document → Option (List Document)
  | [] => some []
  | d :: ds => do return (← d.settle?) :: (← settleItems? ds)
def settleMembers? : List (String × Document) → Option (List (String × Document))
  | [] => some []
  | (key, d) :: ds => do return (key, ← d.settle?) :: (← settleMembers? ds)
def settlePairs? : List (Document × Document) → Option (List (Document × Document))
  | [] => some []
  | (key, d) :: ds => do return (← key.settle?, ← d.settle?) :: (← settlePairs? ds)
end

end EntityQuery.Document
