import RunningTab.Text.Blank

/-!
# Decimal digits

Whole numbers as runs of ASCII digits, read and written, and the positional text of
`digits * 10 ^ exponent`.
-/

namespace RunningTab.Decimal

/-- The digits of a whole number, without leading zeros. -/
def digits (n : Nat) : Text :=
  Nat.toDigits 10 n

/-- The number that a digit stands for. -/
def digitValue (c : Char) : Nat :=
  c.toNat - '0'.toNat

/-- The whole number that a run of digits denotes. -/
def ofDigits (t : Text) : Nat :=
  t.foldl (fun n c => 10 * n + digitValue c) 0

/-- **The whole number that a text stands for**: digits with an optional plus sign, up to the
largest number that can be held. -/
def readWhole? (largest : Nat) (t : Text) : Option Nat :=
  let digits := if t.head? = some '+' then t.drop 1 else t
  if digits ≠ [] ∧ digits.all Text.isDigit ∧ ofDigits digits ≤ largest then
    some (ofDigits digits)
  else none

/-- The digits with zeros in front, at least as many as asked for. -/
def padded (count : Nat) (t : Text) : Text :=
  List.replicate (count - t.length) '0' ++ t

/-- The digits of a whole number with a point before the last `places` of them, or
none if there are no places. -/
def pointed (n places : Nat) : Text :=
  let t := padded (places + 1) (digits n)
  if places = 0 then t
  else t.take (t.length - places) ++ '.' :: t.drop (t.length - places)

/-- The positional text of `n * 10 ^ exponent`. -/
def positional (n : Nat) (exponent : Int) : Text :=
  if 0 ≤ exponent then digits n ++ List.replicate exponent.toNat '0'
  else pointed n (-exponent).toNat

end RunningTab.Decimal
