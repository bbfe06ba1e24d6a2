import RunningTab.Decimal.Rounding

/-!
# Binary64 numbers as whole numbers

A finite binary64 number is a sign and a magnitude `m * 2 ^ q` with whole `m` and
`q`. `RunningTab.Decimal.Magnitude.ofFloat` reads the magnitude off the bits;
`RunningTab.Decimal.nearest` goes the other way, from a fraction to the binary64
number nearest to it. Both are stated in whole numbers, so that what is shown and
what is read can be compared without a word about floating-point operations.

The bits of a magnitude grow with it: the subnormal numbers, the normal ones and
infinity follow one another without a gap, and a significand that rounds up to the
next power of two carries into the exponent by itself. This is what makes `nearest`
one sum.
-/

namespace RunningTab.Decimal

/-! ### Reading the bits -/

/-- The number `significand * 2 ^ exponent`. -/
structure Magnitude where
  /-- The whole-number part of the product. -/
  significand : Nat
  /-- The power of two. -/
  exponent : Int
  deriving DecidableEq, Repr

/-- The exponent of the least positive binary64 number. -/
def leastExponent : Int := -1074

/-- The significands of normal numbers start here, at the fifty-second power of two. -/
def leastNormal : Nat := 0x10000000000000

/-- The number of values of the exponent's bits. -/
def exponentFields : Nat := 0x800

/-- The bits of positive infinity: all of the exponent's bits. -/
def infinityBits : Nat := (exponentFields - 1) * leastNormal

namespace Magnitude

/-- The magnitude with the given bits, whose sign bit does not count. -/
def ofBits (bits : Nat) : Magnitude :=
  let field := bits / leastNormal % exponentFields
  let fraction := bits % leastNormal
  if field = 0 then ⟨fraction, leastExponent⟩
  else ⟨leastNormal + fraction, leastExponent + (field - 1 : Nat)⟩

/-- The magnitude of a finite binary64 number. -/
def ofFloat (x : Float) : Magnitude :=
  ofBits x.toBits.toNat

end Magnitude

/-- Whether the sign bit is set. -/
def isNegative (x : Float) : Bool :=
  exponentFields * leastNormal ≤ x.toBits.toNat

/-! ### The nearest binary64 number -/

/-- Whether `2 ^ e` is at most `num / den`. -/
def twoPowLe (e : Int) (num den : Nat) : Bool :=
  (powFraction 2 e).1 * den ≤ num * (powFraction 2 e).2

/-- The exponent of the greatest power of two that is at most `num / den`. -/
def floorLog2 (num den : Nat) : Int :=
  let guess : Int := num.log2 - den.log2
  if twoPowLe guess num den then guess else guess - 1

/-- The bits of the binary64 magnitude nearest to `num / den`, from the middle
between two the one with the even significand. -/
def nearestBits (num den : Nat) : Nat :=
  if num = 0 then 0
  else
    let exponent := max (floorLog2 num den - 52) leastExponent
    let scale := powFraction 2 exponent
    let significand := roundHalfEven (num * scale.2) (den * scale.1)
    min infinityBits ((exponent - leastExponent).toNat * leastNormal + significand)

/-- **The binary64 number nearest to a fraction**, infinity if it is too large. -/
def nearest (num den : Nat) : Float :=
  Float.ofBits (UInt64.ofNat (nearestBits num den))

/-- The binary64 number nearest to `digits * 10 ^ exponent`. -/
def nearestScaled (digits : Nat) (exponent : Int) : Float :=
  nearest (digits * (powFraction 10 exponent).1) (powFraction 10 exponent).2

end RunningTab.Decimal
