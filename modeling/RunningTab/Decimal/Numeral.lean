import RunningTab.Decimal.Binary
import RunningTab.Decimal.Digits

/-!
# Reading numerals

Two grammars for numbers. A *plain numeral* is a run of digits and dots with at least
one digit and at most one dot; the expressions of the calculator know no other. A *rate
numeral*, as tax suffixes have it, adds a sign, an exponent and the words for infinity
and for no number.
-/

namespace RunningTab.Decimal

/-! ### Plain numerals -/

/-- The characters that numerals are made of: ASCII digits and the dot. -/
def isFigure (c : Char) : Bool :=
  Text.isDigit c || c == '.'

/-- At least one digit and at most one dot. -/
def isPlainNumeral (t : Text) : Bool :=
  t.any Text.isDigit && t.count '.' ≤ 1

/-- The digits before the first dot and those after it. -/
def splitPoint (t : Text) : Text × Text :=
  (t.takeWhile (· != '.'), (t.dropWhile (· != '.')).drop 1)

/-- The value of a plain numeral times `10 ^ exponent`. -/
def plainValue (t : Text) (exponent : Int) : Float :=
  let parts := splitPoint t
  nearestScaled (ofDigits (parts.1 ++ parts.2)) (exponent - (parts.2.length : Int))

/-- The value of a run of digits and dots, if it is a plain numeral. -/
def readPlain? (t : Text) : Option Float :=
  if isPlainNumeral t then some (plainValue t 0) else none

/-! ### Rate numerals -/

/-- Beyond this power of ten every numeral of a given length overflows or vanishes, so
larger exponents need not be computed with. -/
def exponentBound (length : Nat) : Int :=
  length + 400

/-- An optional sign: whether it is a minus, and the rest. -/
def splitSign : Text → Bool × Text
  | '-' :: t => (true, t)
  | '+' :: t => (false, t)
  | t => (false, t)

/-- The power of ten after the letter `e`: an optional sign and at least one digit. -/
def readExponent? (t : Text) : Option Int :=
  let signed := splitSign t
  if signed.2 ≠ [] ∧ signed.2.all Text.isDigit then
    some (if signed.1 then -(ofDigits signed.2 : Int) else ofDigits signed.2)
  else none

/-- The characters of an ASCII word in small letters. -/
def asciiLower (t : Text) : Text :=
  t.map Char.toLower

/-- Positive infinity. -/
def infinity : Float := 1.0 / 0.0

/-- The magnitude that an unsigned rate numeral denotes. -/
def readUnsigned? (t : Text) : Option Float :=
  let mantissa := t.takeWhile isFigure
  if asciiLower t = "inf".toList ∨ asciiLower t = "infinity".toList then
    some infinity
  else if ¬ isPlainNumeral mantissa then none
  else
    match t.dropWhile isFigure with
    | [] => some (plainValue mantissa 0)
    | e :: rest =>
      if e = 'e' ∨ e = 'E' then
        (readExponent? rest).map fun power =>
          let bound := exponentBound mantissa.length
          plainValue mantissa (max (-bound) (min bound power))
      else none

/-- **The value of a rate numeral**, if the text is one: a sign may come first, the word
`nan` stands for no number in any case. -/
def readRate? (t : Text) : Option Float :=
  let signed := splitSign t
  if asciiLower signed.2 = "nan".toList then some (0.0 / 0.0)
  else (readUnsigned? signed.2).map fun x => if signed.1 then -x else x

end RunningTab.Decimal
