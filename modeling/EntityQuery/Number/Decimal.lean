import EntityQuery.Number.Binary

/-!
# Decimal texts of binary fractions

Reading takes a decimal to the nearest binary fraction. Writing takes the fewest digits that read
back, the nearest such decimal, and an exponent only where the point would stand far from them.
-/

set_option autoImplicit false

namespace EntityQuery

/-- A decimal: `digits * 10 ^ exponent`. -/
structure Decimal where
  digits : Nat
  exponent : Int
deriving DecidableEq

namespace Decimal

/-- The number of decimal digits of `n`. -/
def width (n : Nat) : Nat := (Nat.toDigits 10 n).length

/-- The magnitude pattern nearest to `d`. Decimals far outside the range are decided by their
size alone: above 10 ^ 400 nothing is finite, and below 10 ^ -400 everything rounds to zero. -/
def pattern (f : BinaryFormat) (d : Decimal) : Nat :=
  let size : Int := width d.digits + d.exponent
  if d.digits = 0 then 0
  else if 400 < size then f.infinity
  else if size < -400 then 0
  else if 0 ≤ d.exponent then f.round (d.digits * Nat.pow 10 d.exponent.toNat) 1
  else f.round d.digits (Nat.pow 10 (-d.exponent).toNat)

/-- The number nearest to `d`, with the given sign. -/
def toBinary64 (negative : Bool) (d : Decimal) : Binary64 :=
  Binary64.ofParts negative (d.pattern .double)

/-! ## Fewest digits -/

/-- The two decimals with last digit at `10 ^ e` next to `num / den`, the nearer one first. -/
def neighboursAt (num den : Nat) (e : Int) : Decimal × Decimal :=
  let (n, d) :=
    if 0 ≤ e then (num, den * Nat.pow 10 e.toNat) else (num * Nat.pow 10 (-e).toNat, den)
  let nearer := BinaryFormat.nearest n d
  (⟨nearer, e⟩, ⟨2 * (n / d) + 1 - nearer, e⟩)

/-- The first decimal that reads back as `pattern` when the last digit moves down from `10 ^ e`,
at most `steps` times. The gap below a power of two is half of the one above it, so the neighbour
that is farther away may be the one that reads back. -/
def shortestFrom (f : BinaryFormat) (pattern num den : Nat) : Nat → Int → Decimal
  | 0, e => (neighboursAt num den e).1
  | steps + 1, e =>
    let (nearer, farther) := neighboursAt num den e
    if nearer.pattern f = pattern then nearer
    else if farther.pattern f = pattern then farther
    else shortestFrom f pattern num den steps (e - 1)

/-- `d` without the zeros at the end of its digits. -/
def stripZeros : Nat → Decimal → Decimal
  | 0, d => d
  | steps + 1, d =>
    if d.digits ≠ 0 ∧ d.digits % 10 = 0 then stripZeros steps ⟨d.digits / 10, d.exponent + 1⟩ else d

/-- The shortest decimal of a positive finite pattern. -/
def shortest (f : BinaryFormat) (pattern : Nat) : Decimal :=
  let (m, q) := f.unpack pattern
  let (num, den) := BinaryFormat.scaled m 1 (-q)
  let top : Int := (width (num / den) : Int) + (if num < den then - (width (den / num) : Int) else 0)
  stripZeros 20 (shortestFrom f pattern num den 20 top)

/-! ## Text -/

/-- `n` zeros. -/
def zeros (n : Nat) : String := String.ofList (List.replicate n '0')

/-- A power of ten behind its sign, which is always written. -/
def exponentText (e : Int) : String := (if 0 ≤ e then "e+" else "e-") ++ toString e.natAbs

/-- A positive decimal as text: positional while the point stands within sixteen digits to the
left or five zeros to the right, with an exponent otherwise. -/
def toText (d : Decimal) : String :=
  let ds := Nat.toDigits 10 d.digits
  let count := ds.length
  let point : Int := count + d.exponent
  if 0 ≤ d.exponent ∧ point ≤ 16 then
    String.ofList ds ++ zeros d.exponent.toNat ++ ".0"
  else if 0 < point ∧ point ≤ 16 then
    String.ofList (ds.take point.toNat) ++ "." ++ String.ofList (ds.drop point.toNat)
  else if -5 < point ∧ point ≤ 0 then
    "0." ++ zeros (-point).toNat ++ String.ofList ds
  else
    let mantissa := match ds with
      | [first] => String.singleton first
      | first :: rest => String.singleton first ++ "." ++ String.ofList rest
      | [] => "0"
    mantissa ++ exponentText (point - 1)

end Decimal

/-- The shortest text that reads back as the finite number `x`. -/
def Binary64.toText (x : Binary64) : String :=
  let sign := if x.isNegative then "-" else ""
  if x.magnitude = 0 then sign ++ "0.0"
  else sign ++ (Decimal.shortest .double x.magnitude).toText

end EntityQuery
