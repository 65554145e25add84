/-!
# Binary fractions

Numbers with a fixed count of binary digits, in the two interchange formats that literals use.
A value is kept as its bit pattern; the sign is the highest bit, and the patterns below it are in
the order of the magnitudes they stand for, so rounding can carry from one exponent to the next
by plain addition. Rounding is to the nearest value, and a tie goes to the even pattern.
-/

set_option autoImplicit false

namespace EntityQuery

/-- An interchange format: how many bits hold the fraction and how many the exponent. -/
structure BinaryFormat where
  fractionBits : Nat
  exponentBits : Nat

namespace BinaryFormat

/-- Eight bytes: 52 bits of fraction, 11 of exponent. -/
def double : BinaryFormat := ⟨52, 11⟩

/-- Four bytes: 23 bits of fraction, 8 of exponent. -/
def single : BinaryFormat := ⟨23, 8⟩

/-- The pattern of infinity; every smaller pattern is a finite magnitude. -/
def infinity (f : BinaryFormat) : Nat := (Nat.pow 2 f.exponentBits - 1) * Nat.pow 2 f.fractionBits

/-- The pattern with only the sign bit set. -/
def signBit (f : BinaryFormat) : Nat := Nat.pow 2 (f.fractionBits + f.exponentBits)

/-- The power of two that the smallest positive magnitude stands for. -/
def leastExponent (f : BinaryFormat) : Int := 2 - Nat.pow 2 (f.exponentBits - 1) - f.fractionBits

/-- A quotient rounded to the nearest natural number, a tie to the even one. -/
def nearest (num den : Nat) : Nat :=
  let below := num / den
  let rest := num % den
  if 2 * rest < den ∨ (2 * rest = den ∧ below % 2 = 0) then below else below + 1

/-- `num / den / 2 ^ q` as a quotient of natural numbers. -/
def scaled (num den : Nat) (q : Int) : Nat × Nat :=
  if 0 ≤ q then (num, den * Nat.pow 2 q.toNat) else (num * Nat.pow 2 (-q).toNat, den)

/-- The greatest exponent `e` with `2 ^ e ≤ num / den`, for positive `num` and `den`. -/
def floorLog (num den : Nat) : Int :=
  let guess : Int := num.log2 - den.log2
  let (n, d) := scaled num den guess
  if d ≤ n then guess else guess - 1

/-- The pattern of the magnitude nearest to `num / den`; infinity when it is too large. -/
def round (f : BinaryFormat) (num den : Nat) : Nat :=
  if num = 0 then 0 else
    let q := max (floorLog num den - f.fractionBits) f.leastExponent
    let (n, d) := scaled num den q
    let pattern := (q - f.leastExponent).toNat * Nat.pow 2 f.fractionBits + nearest n d
    min pattern f.infinity

/-- The significand and the power of two of a finite pattern. -/
def unpack (f : BinaryFormat) (pattern : Nat) : Nat × Int :=
  let exponent := pattern / Nat.pow 2 f.fractionBits
  let fraction := pattern % Nat.pow 2 f.fractionBits
  if exponent = 0 then (fraction, f.leastExponent)
  else (Nat.pow 2 f.fractionBits + fraction, f.leastExponent + (exponent - 1))

/-- A magnitude of the format `f` taken into the format `g`; infinity stays infinite. -/
def convert (f g : BinaryFormat) (pattern : Nat) : Nat :=
  if f.infinity ≤ pattern then g.infinity else
    let (m, q) := f.unpack pattern
    let (n, d) := scaled m 1 (-q)
    g.round n d

/-- The pattern of the magnitude nearest to the product of two finite ones. -/
def product (f : BinaryFormat) (a b : Nat) : Nat :=
  let (m, q) := f.unpack a
  let (n, r) := f.unpack b
  let (num, den) := scaled (m * n) 1 (-(q + r))
  f.round num den

/-- The pattern of the magnitude nearest to the quotient of two finite ones, the second of which is
not zero. -/
def quotient (f : BinaryFormat) (a b : Nat) : Nat :=
  let (m, q) := f.unpack a
  let (n, r) := f.unpack b
  let (num, den) := scaled m n (r - q)
  f.round num den

end BinaryFormat

/-- A number of the double format, by its bits. -/
structure Binary64 where
  bits : UInt64
deriving DecidableEq

/-- A number of the single format, by its bits. -/
structure Binary32 where
  bits : UInt32
deriving DecidableEq

namespace Binary64

/-- The number with the given sign and magnitude. -/
def ofParts (negative : Bool) (pattern : Nat) : Binary64 :=
  ⟨UInt64.ofNat (pattern + if negative then BinaryFormat.double.signBit else 0)⟩

/-- Whether the sign bit is set. -/
def isNegative (x : Binary64) : Bool := BinaryFormat.double.signBit ≤ x.bits.toNat

/-- The bits below the sign. -/
def magnitude (x : Binary64) : Nat := x.bits.toNat % BinaryFormat.double.signBit

/-- Neither infinite nor undefined. -/
def isFinite (x : Binary64) : Bool := x.magnitude < BinaryFormat.double.infinity

/-- The number nearest to a whole number. -/
def ofInt (n : Int) : Binary64 := ofParts (n < 0) (BinaryFormat.double.round n.natAbs 1)

end Binary64

namespace Binary32

/-- The number with the given sign and magnitude. -/
def ofParts (negative : Bool) (pattern : Nat) : Binary32 :=
  ⟨UInt32.ofNat (pattern + if negative then BinaryFormat.single.signBit else 0)⟩

/-- Whether the sign bit is set. -/
def isNegative (x : Binary32) : Bool := BinaryFormat.single.signBit ≤ x.bits.toNat

/-- The bits below the sign. -/
def magnitude (x : Binary32) : Nat := x.bits.toNat % BinaryFormat.single.signBit

/-- Neither infinite nor undefined. -/
def isFinite (x : Binary32) : Bool := x.magnitude < BinaryFormat.single.infinity

/-- The number nearest to a whole number. -/
def ofInt (n : Int) : Binary32 := ofParts (n < 0) (BinaryFormat.single.round n.natAbs 1)

/-- The same number in the double format. -/
def widen (x : Binary32) : Binary64 :=
  Binary64.ofParts x.isNegative (BinaryFormat.single.convert .double x.magnitude)

end Binary32

/-- The nearest number of the single format. -/
def Binary64.narrow (x : Binary64) : Binary32 :=
  Binary32.ofParts x.isNegative (BinaryFormat.double.convert .single x.magnitude)

end EntityQuery
