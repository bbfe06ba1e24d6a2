/-!
# Tax on an amount

A rate in percent is added on top of a base amount or taken out of it. What was worked out
is kept as a breakdown, from which the central and the state share are read: half the rate
and half the tax each.
-/

namespace RunningTab

/-- Whether tax is added to an amount or taken out of it. -/
inductive TaxDirection where
  | add
  | remove
  deriving DecidableEq, Repr

/-- The base, the rate in percent and the tax between the base and the total. -/
structure TaxBreakdown where
  base : Float
  rate : Float
  amount : Float

/-- A breakdown and the direction that was asked for. -/
structure LineTax where
  direction : TaxDirection
  breakdown : TaxBreakdown

/-- The factor by which a rate in percent grows an amount. -/
def taxFactor (rate : Float) : Float :=
  1.0 + rate / 100.0

/-- The total of a base amount at a rate. -/
def taxedTotal (base rate : Float) : TaxDirection → Float
  | .add => base * taxFactor rate
  | .remove => base / taxFactor rate

/-- **The total of a base amount at a rate, and its breakdown.** -/
def withTax (base rate : Float) (direction : TaxDirection) : Float × TaxBreakdown :=
  let total := taxedTotal base rate direction
  match direction with
  | .add => (total, ⟨base, rate, total - base⟩)
  | .remove => (total, ⟨base, rate, base - total⟩)

namespace LineTax

/-- The central share: half the rate and half the tax. -/
def centralShare (t : LineTax) : Float × Float :=
  (t.breakdown.rate / 2.0, t.breakdown.amount / 2.0)

/-- The state share, equal to the central one. -/
def stateShare (t : LineTax) : Float × Float :=
  t.centralShare

end LineTax

end RunningTab
