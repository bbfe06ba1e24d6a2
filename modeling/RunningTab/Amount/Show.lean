import RunningTab.Amount.Groups
import RunningTab.Decimal.Fixed

/-!
# The text of an amount

A decimal policy and a grouping turn a binary64 number into the text that is shown. The
digits are those of the exact binary value, correctly rounded; a minus sign appears only
with digits that are not all zero, and what is not finite is shown as zero.
-/

namespace RunningTab

namespace DecimalPlaces

/-- The most places that the policy `auto` shows. -/
def autoPlaces : Nat := 10

/-- The text without trailing zeros, and then without a bare point. -/
def trimZeros (t : Text) : Text :=
  Text.trimEndBy (· == '.') (Text.trimEndBy (· == '0') t)

/-- The digits of a magnitude under a policy. -/
def magnitudeText (v : Decimal.Magnitude) : DecimalPlaces → Text
  | fixed places => v.fixedText places
  | auto => trimZeros (v.fixedText autoPlaces)

end DecimalPlaces

/-- The digits before the point grouped, the rest as it is. -/
def groupWhole (g : Grouping) (t : Text) : Text :=
  g.apply (t.takeWhile (· != '.')) ++ t.dropWhile (· != '.')

/-- **The text of an amount.** -/
def showAmount (policy : DecimalPlaces) (g : Grouping) (x : Float) : Text :=
  let x := if x.isFinite then x else 0.0
  let t := policy.magnitudeText (Decimal.Magnitude.ofFloat x)
  let minus := x < 0.0 && !t.all fun c => c == '0' || c == '.'
  (if minus then ['-'] else []) ++ groupWhole g t

/-- The text of a number with as many places as it needs and no grouping. -/
def showPlain (x : Float) : Text :=
  showAmount .auto .none x

end RunningTab
