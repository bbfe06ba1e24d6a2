import RunningTab.Decimal.Digits

/-!
# How amounts are shown

The two choices: how many decimal places (`RunningTab.DecimalPlaces`) and how the digits
before the point are grouped (`RunningTab.Grouping`), with the words they are read from and
written as.
-/

namespace RunningTab

/-! ### Decimal places -/

/-- How many decimal places are shown. -/
inductive DecimalPlaces where
  /-- Up to ten places, without trailing zeros. -/
  | auto
  /-- Exactly so many places. -/
  | fixed (places : Nat)
  deriving DecidableEq, Repr

namespace DecimalPlaces

/-- The text of a policy. -/
def text : DecimalPlaces → Text
  | auto => "auto".toList
  | fixed places => Decimal.digits places

/-- The most places that can be asked for. -/
def maxPlaces : Nat := 255

/-- What is said of a text that is no policy. -/
def refusal (t : Text) : Text :=
  "expected \"auto\" or a number of places, got '".toList ++ t ++ ['\'']

/-- **The policy that a text names**: the word `auto` in any case, or a number of places
with blanks around it. -/
def ofText (t : Text) : Except Text DecimalPlaces :=
  if t.map Char.toLower = "auto".toList then .ok auto
  else
    match Decimal.readWhole? maxPlaces (Text.trim t) with
    | some places => .ok (fixed places)
    | none => .error (refusal t)

end DecimalPlaces

/-! ### Grouping -/

/-- How the digits before the point are grouped. -/
inductive Grouping where
  /-- Three digits, then twos: `12,34,567`. -/
  | indian
  /-- Threes: `1,234,567`. -/
  | international
  /-- Not at all. -/
  | none
  deriving DecidableEq, Repr

namespace Grouping

/-- The word for a grouping in settings. -/
def word : Grouping → Text
  | indian => "indian".toList
  | international => "international".toList
  | none => "none".toList

/-- The grouping with the given word. -/
def ofWord? (t : Text) : Option Grouping :=
  [indian, international, none].find? fun g => g.word = t

end Grouping

end RunningTab
