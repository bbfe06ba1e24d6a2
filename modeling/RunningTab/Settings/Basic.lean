import RunningTab.Amount.Show

/-!
# Settings

How many pages a ledger has, the tax rates, and how amounts are shown. Values out of range are
clamped or dropped (`RunningTab.Settings.validated`), never refused.
-/

namespace RunningTab

/-- **The settings of the calculator.** -/
structure Settings where
  /-- The number of pages. -/
  pages : Nat
  /-- The rate of a tax without one, in percent. -/
  defaultRate : Float
  /-- The rates of the tax mode with several, in percent. -/
  rates : List Float
  /-- Whether the tax mode with several rates is on at the start. -/
  gstMode : Bool
  decimals : DecimalPlaces
  grouping : Grouping

namespace Settings

/-- The most pages a ledger has. -/
def pageLimit : Nat := 9

/-- The most rates there are. -/
def rateLimit : Nat := 3

/-- The most decimal places. -/
def placeLimit : Nat := 10

/-- The settings where a file says nothing. -/
def standard : Settings where
  pages := 4
  defaultRate := 18.0
  rates := [5.0, 18.0, 40.0]
  gstMode := false
  decimals := .fixed 2
  grouping := .indian

/-- Whether a rate can be used: finite and not negative. -/
def isRate (x : Float) : Bool :=
  x.isFinite && 0.0 ≤ x

/-- The rates that can be used, as many as there may be, the standard ones if there are none. -/
def validRates (rates : List Float) : List Float :=
  let usable := (rates.filter isRate).take rateLimit
  if usable.isEmpty then standard.rates else usable

/-- The policy with its places cut to the most there may be. -/
def validPolicy : DecimalPlaces → DecimalPlaces
  | .auto => .auto
  | .fixed places => .fixed (min places placeLimit)

/-- **The settings with every value in range.** -/
def validated (s : Settings) : Settings :=
  { s with
    pages := max 1 (min s.pages pageLimit)
    defaultRate := if isRate s.defaultRate then s.defaultRate else standard.defaultRate
    rates := validRates s.rates
    decimals := validPolicy s.decimals }

/-- The text of an amount under the settings. -/
def amount (s : Settings) (x : Float) : Text :=
  showAmount s.decimals s.grouping x

end Settings

end RunningTab
