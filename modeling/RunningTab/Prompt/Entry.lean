import RunningTab.Decimal.Numeral
import RunningTab.Tax

/-!
# Entries

A line to commit: an expression, with or without a tax suffix. The suffix begins at the last
`@` of the line: a sign for the direction, then a rate in percent, or none for the default
rate (`1000 @+`, `1180 @-5%`).
-/

namespace RunningTab

/-- A line to commit. -/
inductive Entry where
  | plain (expression : Text)
  | taxed (expression : Text) (direction : TaxDirection) (rate : Option Float)

namespace Entry

/-- What is wrong with a tax suffix. -/
inductive Fault where
  /-- It does not begin with a sign. -/
  | noSign
  /-- The rate is not a number. -/
  | invalidRate (t : Text)
  deriving DecidableEq, Repr

/-- What is said of a wrong suffix. -/
def Fault.message : Fault → Text
  | noSign => "tax suffix must start with '+' or '-'".toList
  | invalidRate t => "invalid rate '".toList ++ t ++ ['\'']

/-- The rate that the rest of a suffix gives, if any. -/
def readRate (t : Text) : Except Fault (Option Float) :=
  let t := Text.trimEndBy (· == '%') (Text.trim t)
  if t = [] then .ok none
  else
    match Decimal.readRate? t with
    | some rate => .ok (some rate)
    | none => .error (.invalidRate t)

/-- The direction and the rate of a suffix without blanks at its ends. -/
def readSuffix : Text → Except Fault (TaxDirection × Option Float)
  | '+' :: t => (readRate t).map (TaxDirection.add, ·)
  | '-' :: t => (readRate t).map (TaxDirection.remove, ·)
  | _ => .error .noSign

/-- **The entry that a line gives.** -/
def ofLine (t : Text) : Except Fault Entry :=
  match Text.cutLast? '@' t with
  | none => .ok (plain t)
  | some (expression, suffix) =>
    (readSuffix (Text.trim suffix)).map fun s => taxed (Text.trim expression) s.1 s.2

end Entry

end RunningTab
