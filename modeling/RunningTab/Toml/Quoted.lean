import RunningTab.Toml.Scalar

/-!
# Quoted texts

The four ways to quote a text: on one line or on several, with escapes or word for word. All
readers start behind the opening quotes and give the text and the rest behind the closing ones.
-/

namespace RunningTab.Toml

/-- The characters that may stand in comments: all but the control characters, tabs excepted. -/
def isPrintable (c : Char) : Bool :=
  c == '\t' || (0x20 ≤ c.toNat && c.toNat ≠ 0x7f)

/-! ### Escapes -/

/-- The character that a letter after a backslash stands for. -/
def simpleEscape? (c : Char) : Option Char :=
  if c = 'b' then some '\x08'
  else if c = 't' then some '\t'
  else if c = 'n' then some '\n'
  else if c = 'f' then some '\x0c'
  else if c = 'r' then some '\r'
  else if c = '"' ∨ c = '\\' then some c
  else none

/-- The character with a number written in hexadecimal digits. -/
def numbered? (digits : Text) : Option Char :=
  let n := ofBaseDigits 16 digits
  if digits.all isHexDigit ∧ n.isValidChar then some (Char.ofNat n) else none

/-- The character and the rest after a backslash. -/
def escape? : Text → Option (Char × Text)
  | 'u' :: a :: b :: c :: d :: t => (numbered? [a, b, c, d]).map (·, t)
  | 'U' :: a :: b :: c :: d :: e :: f :: g :: h :: t =>
    (numbered? [a, b, c, d, e, f, g, h]).map (·, t)
  | c :: t => (simpleEscape? c).map (·, t)
  | [] => none

/-- What a character yields in front of what is read behind it. -/
def consText (c : Char) (r : Option (Text × Text)) : Option (Text × Text) :=
  r.map fun r => (c :: r.1, r.2)

/-! ### One line -/

/-- A text in double quotes. The first number bounds the length of the text. -/
def basicWithin : Nat → Text → Option (Text × Text)
  | _, [] => none
  | 0, _ => none
  | n + 1, c :: t =>
    if c = '"' then some ([], t)
    else if c = '\\' then (escape? t).bind fun e => consText e.1 (basicWithin n e.2)
    else if isPrintable c then consText c (basicWithin n t)
    else none

/-- A text in double quotes. -/
def basic? (t : Text) : Option (Text × Text) :=
  basicWithin t.length t

/-- A text in single quotes, word for word. -/
def literal? : Text → Option (Text × Text)
  | [] => none
  | c :: t =>
    if c = '\'' then some ([], t)
    else if isPrintable c then consText c (literal? t)
    else none

/-! ### Several lines -/

/-- Where three quotes close a text, up to two more of them belong to it. -/
def closing? (quote : Char) (t : Text) : Option (Text × Text) :=
  let count := (t.takeWhile (· == quote)).length
  if 3 ≤ count then some (List.replicate (min (count - 3) 2) quote, t.drop (min count 5))
  else none

/-- The rest behind a line end, if there is one. -/
def afterLineEnd? : Text → Option Text
  | '\n' :: t => some t
  | '\r' :: '\n' :: t => some t
  | _ => none

/-- The rest without blanks and line ends at its head. -/
def dropVoid : Text → Text
  | '\r' :: '\n' :: t => dropVoid t
  | c :: t => if c = ' ' ∨ c = '\t' ∨ c = '\n' then dropVoid t else c :: t
  | [] => []

/-- The rest behind a backslash that ends a line, and the blanks and line ends after it. -/
def continued? (t : Text) : Option Text :=
  (afterLineEnd? (t.dropWhile fun c => c == ' ' || c == '\t')).map dropVoid

/-- A text in three quotes. The number bounds its length; `escapes` tells whether a backslash has a
meaning. -/
def multilineWithin (quote : Char) (escapes : Bool) : Nat → Text → Option (Text × Text)
  | 0, _ => none
  | n + 1, t =>
    match closing? quote t with
    | some closed => some closed
    | none =>
      match afterLineEnd? t with
      | some t => consText '\n' (multilineWithin quote escapes n t)
      | none =>
        match t with
        | [] => none
        | c :: t =>
          if escapes ∧ c = '\\' then
            match continued? t with
            | some t => multilineWithin quote escapes n t
            | none => (escape? t).bind fun e => consText e.1 (multilineWithin quote escapes n e.2)
          else if isPrintable c then consText c (multilineWithin quote escapes n t)
          else none

/-- A text in three quotes; a line end right behind the opening ones does not count. -/
def multiline? (quote : Char) (escapes : Bool) (t : Text) : Option (Text × Text) :=
  let t := (afterLineEnd? t).getD t
  multilineWithin quote escapes (t.length + 1) t

/-- **A quoted text** with its quotes, and the rest. -/
def quoted? : Text → Option (Text × Text)
  | '"' :: '"' :: '"' :: t => multiline? '"' true t
  | '"' :: t => basic? t
  | '\'' :: '\'' :: '\'' :: t => multiline? '\'' false t
  | '\'' :: t => literal? t
  | _ => none

end RunningTab.Toml
