import RunningTab.Decimal.Numeral
import RunningTab.Toml.Node

/-!
# Numbers, dates and truth values

A scalar outside quotes is a run of letters, digits and the signs `+ - _ . :`, and the whole run
decides what it is: a truth value, an integer in one of four bases, a float, or a date and time.
Digits may be spaced out with single underscores between them. Integers have 64 bits; a float must
not grow to positive infinity unless it is written as such. Of a date and time only its being one
matters here.
-/

namespace RunningTab.Toml

open Decimal (ofDigits)

/-! ### Runs -/

/-- The ASCII letters. -/
def isLetter (c : Char) : Bool :=
  ('a' ≤ c && c ≤ 'z') || ('A' ≤ c && c ≤ 'Z')

/-- The characters of scalars outside quotes. -/
def isScalarChar (c : Char) : Bool :=
  isLetter c || Text.isDigit c || "+-_.:".toList.contains c

/-- Whether a run begins and ends with a digit and has only digits and single underscores between
digits, a digit being what passes the test. -/
def isSpacedOut (digit : Char → Bool) : Text → Bool
  | [] => false
  | [c] => digit c
  | c :: '_' :: t => digit c && isSpacedOut digit t
  | c :: t => digit c && isSpacedOut digit t

/-- The run without its underscores. -/
def unspaced (t : Text) : Text :=
  t.filter (· != '_')

/-! ### Integers -/

/-- The hexadecimal digits. -/
def isHexDigit (c : Char) : Bool :=
  Text.isDigit c || ('a' ≤ c && c ≤ 'f') || ('A' ≤ c && c ≤ 'F')

/-- The value of a digit in any base up to sixteen. -/
def baseDigitValue (c : Char) : Nat :=
  if Text.isDigit c then c.toNat - '0'.toNat else c.toLower.toNat - 'a'.toNat + 10

/-- The number that digits denote in a base. -/
def ofBaseDigits (base : Nat) (t : Text) : Nat :=
  t.foldl (fun n c => base * n + baseDigitValue c) 0

/-- The least integer of 64 bits. -/
def leastWord : Int := -0x8000000000000000

/-- An integer of 64 bits. -/
def word? (n : Int) : Option Node :=
  if leastWord ≤ n ∧ n < -leastWord then some (.integer n) else none

/-- An unsigned integer in a base, without its mark. -/
def readBased? (base : Nat) (digit : Char → Bool) (t : Text) : Option Node :=
  if isSpacedOut digit t then word? (ofBaseDigits base (unspaced t)) else none

/-- Whether a run is a decimal whole number without superfluous zeros. -/
def isWhole (t : Text) : Bool :=
  isSpacedOut Text.isDigit t && (t.length == 1 || t.head? != some '0')

/-- A decimal integer with an optional sign. -/
def readDecimal? (t : Text) : Option Node :=
  let signed := Decimal.splitSign t
  if isWhole signed.2 then
    let n : Int := ofDigits (unspaced signed.2)
    word? (if signed.1 then -n else n)
  else none

/-- An integer in any of the four bases. -/
def readInteger? : Text → Option Node
  | '0' :: 'x' :: t => readBased? 16 isHexDigit t
  | '0' :: 'o' :: t => readBased? 8 (fun c => '0' ≤ c && c ≤ '7') t
  | '0' :: 'b' :: t => readBased? 2 (fun c => c == '0' || c == '1') t
  | t => readDecimal? t

/-! ### Floats -/

/-- Whether a run is a power of ten with its letter: an optional sign and digits. -/
def isPower : Text → Bool
  | e :: t => (e == 'e' || e == 'E') && isSpacedOut Text.isDigit (Decimal.splitSign t).2
  | [] => false

/-- Whether a run has the form of a float: a whole number with a fraction, a power of ten, or
both. -/
def isFloatForm (t : Text) : Bool :=
  let unsigned := (Decimal.splitSign t).2
  let mantissa := unsigned.takeWhile fun c => c != 'e' && c != 'E'
  let power := unsigned.dropWhile fun c => c != 'e' && c != 'E'
  let whole := mantissa.takeWhile (· != '.')
  let fraction := mantissa.dropWhile (· != '.')
  isWhole whole && (isPower power || power.isEmpty && !fraction.isEmpty) &&
    (fraction.isEmpty || isSpacedOut Text.isDigit (fraction.drop 1))

/-- A float, in digits or as one of the words. -/
def readFloat? (t : Text) : Option Node :=
  let signed := Decimal.splitSign t
  if signed.2 = "inf".toList ∨ signed.2 = "nan".toList then (Decimal.readRate? t).map .float
  else if isFloatForm t then
    (Decimal.readRate? (unspaced t)).bind fun x =>
      if x.isInf ∧ ¬ Decimal.isNegative x then none else some (.float x)
  else none

/-! ### Dates and times -/

/-- The number of a given count of digits, if it is within bounds. -/
def twoDigits? (low high : Nat) : Text → Option (Nat × Text)
  | a :: b :: t =>
    if Text.isDigit a && Text.isDigit b then
      let n := ofDigits [a, b]
      if low ≤ n ∧ n ≤ high then some (n, t) else none
    else none
  | _ => none

/-- The rest after a character that must come next. -/
def expect? (c : Char) : Text → Option Text
  | d :: t => if d = c then some t else none
  | [] => none

/-- The number of days of a month. -/
def daysOf (year month : Nat) : Nat :=
  if month = 2 then
    if year % 4 = 0 ∧ (year % 100 ≠ 0 ∨ year % 400 = 0) then 29 else 28
  else if month = 4 ∨ month = 6 ∨ month = 9 ∨ month = 11 then 30
  else 31

/-- The rest after a date. -/
def afterDate? (t : Text) : Option Text := do
  let (century, t) ← twoDigits? 0 99 t
  let (year, t) ← twoDigits? 0 99 t
  let (month, t) ← twoDigits? 1 12 (← expect? '-' t)
  let (_, t) ← twoDigits? 1 (daysOf (100 * century + year) month) (← expect? '-' t)
  return t

/-- The rest after a time of day, with its fraction of a second. -/
def afterTime? (t : Text) : Option Text := do
  let (_, t) ← twoDigits? 0 23 t
  let (_, t) ← twoDigits? 0 59 (← expect? ':' t)
  let (_, t) ← twoDigits? 0 60 (← expect? ':' t)
  match t with
  | '.' :: f => if f.head?.any Text.isDigit then some (f.dropWhile Text.isDigit) else none
  | t => some t

/-- Whether a run is the distance of a time from universal time, or nothing. -/
def isOffset : Text → Bool
  | [] => true
  | [c] => c == 'Z' || c == 'z'
  | c :: t =>
    (c == '+' || c == '-') &&
      ((do
        let (_, t) ← twoDigits? 0 23 t
        let (_, t) ← twoDigits? 0 59 (← expect? ':' t)
        return t.isEmpty : Option Bool).getD false)

/-- Whether a run is a time of day with or without its distance from universal time. -/
def isTimeWithOffset (t : Text) : Bool :=
  (afterTime? t).any isOffset

/-- Whether a run is a date, a time of day, or both with a letter between them. -/
def isDatetime (t : Text) : Bool :=
  afterTime? t == some [] ||
    match afterDate? t with
    | none => false
    | some [] => true
    | some (c :: t) => (c == 'T' || c == 't') && isTimeWithOffset t

/-! ### All scalars -/

/-- **The scalar that a run denotes**, if it denotes one. -/
def readScalar? (t : Text) : Option Node :=
  if t = "true".toList then some (.boolean true)
  else if t = "false".toList then some (.boolean false)
  else if isDatetime t then some .datetime
  else
    match readInteger? t with
    | some node => some node
    | none => readFloat? t

/-- The scalar at the head of a text, and the rest. A date may be parted from its time by a
space. -/
def scalar? (t : Text) : Option (Node × Text) :=
  let run := t.takeWhile isScalarChar
  let rest := t.dropWhile isScalarChar
  match rest with
  | ' ' :: more =>
    if afterDate? run == some [] && more.head?.any Text.isDigit then
      if isTimeWithOffset (more.takeWhile isScalarChar) then
        some (.datetime, more.dropWhile isScalarChar)
      else none
    else (readScalar? run).map (·, rest)
  | _ => (readScalar? run).map (·, rest)

end RunningTab.Toml
