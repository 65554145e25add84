import EntityQuery.Number.Decimal

/-!
# Decimals by scaling

A decimal is taken to a binary fraction in two steps. Its leading digits, as many as fit 64 bits,
give a binary fraction, and that is multiplied or divided by a power of ten. Each step rounds, so
the last bits may differ from those of the binary fraction nearest to the decimal.
-/

set_option autoImplicit false

namespace EntityQuery.Decimal

/-- The number that digits spell behind `value`, and how many they are in addition to `count`. The
first digit with which the number would not fit 64 bits ends them. -/
def leading (value count : Nat) : List Char → Nat × Nat
  | [] => (value, count)
  | c :: cs =>
    let next := 10 * value + (c.toNat - 48)
    if next < 0x10000000000000000 then leading next (count + 1) cs else (value, count)

/-- The decimal of the leading digits of a number with the given whole part, fraction and
exponent. -/
def ofLeading (wholePart fraction : List Char) (exponent : Int) : Decimal :=
  let (value, taken) := leading 0 0 wholePart
  let (value, further) := leading value 0 fraction
  ⟨value, (wholePart.length - taken : Nat) - (further : Int) + exponent⟩

/-- The pattern of a power of ten. -/
def power (n : Nat) : Nat := BinaryFormat.double.round (Nat.pow 10 n) 1

/-- The pattern that scaling gives for a decimal, unless it is too large. Powers of ten go up to
308; a smaller decimal is divided twice, and below 10 ^ -616 nothing is left of it. -/
def scale? (d : Decimal) : Option Nat :=
  let f := BinaryFormat.double
  let start := f.round d.digits 1
  let down := (-d.exponent).toNat
  if d.digits = 0 then some 0
  else if 308 < d.exponent then none
  else if 0 ≤ d.exponent then
    let pattern := f.product start (power d.exponent.toNat)
    if pattern < f.infinity then some pattern else none
  else if down ≤ 308 then some (f.quotient start (power down))
  else if down ≤ 616 then some (f.quotient (f.quotient start (power 308)) (power (down - 308)))
  else some 0

end EntityQuery.Decimal
