import RunningTab.Decimal.Binary
import RunningTab.Decimal.Digits

/-!
# The shortest digits

The text of a binary64 number inside messages and steps: the fewest digits that
read back to the same number, of those the nearest to it, from the middle between
two the greater; always positional, never with an exponent.

The numbers that read back to `m * 2 ^ q` form an interval around it, ends included
exactly when `m` is even (`RunningTab.Decimal.Magnitude.readsBack`). On every decimal
grid `10 ^ g` only the value's two neighbours matter, because a point of the grid in
the interval has one of the neighbours between it and the value. The search goes from
a grid too coarse for the value to the one on which the value lies
(`RunningTab.Decimal.Magnitude.search`), and the first neighbour that reads back is
the answer.
-/

namespace RunningTab.Decimal

namespace Magnitude

/-! ### The interval that reads back -/

/-- Four times the lower end of the interval that reads back, in units of
`2 ^ exponent`. Below a power of two the neighbours are twice as close. -/
def lowerQuarters (v : Magnitude) : Nat :=
  if v.significand = leastNormal ∧ leastExponent < v.exponent then 4 * v.significand - 1
  else 4 * v.significand - 2

/-- Four times the upper end of the interval that reads back, in units of
`2 ^ exponent`. -/
def upperQuarters (v : Magnitude) : Nat :=
  4 * v.significand + 2

/-- The fraction by which quarter units are multiplied to count steps of `10 ^ g`. -/
def quartersOver (v : Magnitude) (g : Int) : Nat × Nat :=
  let two := powFraction 2 (v.exponent - 2)
  let ten := powFraction 10 g
  (two.1 * ten.2, two.2 * ten.1)

/-- Whether `n * 10 ^ g` lies in the interval that reads back. -/
def readsBack (v : Magnitude) (n : Nat) (g : Int) : Bool :=
  let scale := v.quartersOver g
  let lower := v.lowerQuarters * scale.1
  let upper := v.upperQuarters * scale.1
  let point := n * scale.2
  if v.significand % 2 = 0 then lower ≤ point && point ≤ upper
  else lower < point && point < upper

/-! ### The two neighbours on a grid -/

/-- The neighbour of the value on the grid `10 ^ g` that reads back, the nearer one if
both do, the upper one if they are equally near. -/
def neighbour? (v : Magnitude) (g : Int) : Option Nat :=
  let scale := v.quartersOver g
  let value := 4 * v.significand * scale.1
  let below := value / scale.2
  match v.readsBack below g, v.readsBack (below + 1) g with
  | true, true => if 2 * (value % scale.2) < scale.2 then some below else some (below + 1)
  | true, false => some below
  | false, true => some (below + 1)
  | false, false => none

/-! ### The search -/

/-- A grid on which the value is less than one step. -/
def coarsestGrid (v : Magnitude) : Int :=
  let top : Int := v.significand.log2 + 1 + v.exponent
  if 0 ≤ top then 4 * top / 13 + 1 else -(3 * (-top) / 10)

/-- The grid on which the value lies. -/
def exactGrid (v : Magnitude) : Int :=
  min v.exponent 0

/-- The first neighbour that reads back, over `steps` grids from `exactGrid + steps`
down; on the last grid the value itself. -/
def search (v : Magnitude) : Nat → Nat × Int
  | 0 => (v.significand * (powFraction 2 v.exponent).1 * (powFraction 5 v.exponent).2, v.exactGrid)
  | steps + 1 =>
    let g := v.exactGrid + (steps + 1 : Nat)
    match v.neighbour? g with
    | some n => (n, g)
    | none => v.search steps

/-- **The shortest decimal** of a positive magnitude, as digits and a power of ten. -/
def shortest (v : Magnitude) : Nat × Int :=
  v.search (v.coarsestGrid - v.exactGrid).toNat

end Magnitude

/-! ### Texts -/

/-- The text of a magnitude: its shortest decimal, and `0` for zero. -/
def Magnitude.text (v : Magnitude) : Text :=
  if v.significand = 0 then ['0'] else positional v.shortest.1 v.shortest.2

/-- **The text of a binary64 number**: the shortest decimal, positional, with the sign of
the number, zero included. -/
def shortText (x : Float) : Text :=
  if x.isNaN then "NaN".toList
  else
    (if isNegative x then ['-'] else []) ++
      (if x.isInf then "inf".toList else (Magnitude.ofFloat x).text)

end RunningTab.Decimal
