import RunningTab.Decimal.Binary
import RunningTab.Decimal.Digits

/-!
# A fixed number of places

The exact value of a finite binary64 magnitude, rounded to a number of decimal
places. The rounding sees the binary value itself, so a tie is a value that lies
exactly in the middle between two texts.
-/

namespace RunningTab.Decimal

/-- The magnitude in units of `10 ^ -places`, rounded. -/
def Magnitude.inUnits (v : Magnitude) (places : Nat) : Nat :=
  let two := powFraction 2 v.exponent
  roundHalfEven (v.significand * two.1 * Nat.pow 10 places) two.2

/-- The text of a magnitude with a fixed number of places. -/
def Magnitude.fixedText (v : Magnitude) (places : Nat) : Text :=
  pointed (v.inUnits places) places

end RunningTab.Decimal
