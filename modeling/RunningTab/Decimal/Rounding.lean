/-!
# Rounding a quotient

The one rounding rule of the library: to the nearest whole number, and from the
middle between two to the even one (`RunningTab.Decimal.roundHalfEven`). It serves
the digits shown and the binary numbers read alike.
-/

namespace RunningTab.Decimal

/-- The whole number nearest to `num / den`, the even one of two that are equally
near. -/
def roundHalfEven (num den : Nat) : Nat :=
  let whole := num / den
  let twice := 2 * (num % den)
  if twice < den then whole
  else if den < twice then whole + 1
  else if whole % 2 = 0 then whole
  else whole + 1

/-- A power with an exponent of either sign, as the numerator and the denominator
of a fraction. -/
def powFraction (base : Nat) (e : Int) : Nat × Nat :=
  (Nat.pow base e.toNat, Nat.pow base (-e).toNat)

end RunningTab.Decimal
