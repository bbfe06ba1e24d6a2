import RunningTab.Expr.Failure
import RunningTab.Expr.Piece
import RunningTab.Expr.Token

/-!
# From text to tokens

The tokens of a text, read off its pieces. A minus sign is a unary one at the start,
after an operator and after an opening parenthesis, so the reader carries along whether
the next token starts an operand.

`RunningTab.Expr.withinAlphabet` is the coarser test that comes before: every character must
belong to the alphabet of expressions. It makes the reader's own refusal of a character
unreachable in an evaluation, and decides which of two faults is reported.
-/

namespace RunningTab.Expr

open Decimal (isFigure readPlain?)

/-! ### The alphabet -/

/-- The characters of expressions whose percents are written out. -/
def isAllowed (c : Char) : Bool :=
  isFigure c || "+-*/()".toList.contains c || Text.isBlank c

/-- Refuses the first character outside the alphabet. -/
def withinAlphabet (t : Text) : Except Failure Unit :=
  match t.find? (fun c => !isAllowed c) with
  | some c => .error (.unknownCharacter c)
  | none => .ok ()

/-! ### Tokens -/

/-- The token of a character that is neither a blank nor in a run; `operandNext` tells
whether an operand is due. -/
def markToken? (operandNext : Bool) (c : Char) : Option Token :=
  if c = '(' then some .opening
  else if c = ')' then some .closing
  else if c = '+' then some (.operator .add)
  else if c = '*' then some (.operator .mul)
  else if c = '/' then some (.operator .div)
  else if c = '-' then some (.operator (if operandNext then .neg else .sub))
  else none

/-- The tokens of a list of pieces. -/
def readTokens (operandNext : Bool) : List Piece → Except Failure (List Token)
  | [] => .ok []
  | .run r :: ps =>
    match readPlain? r with
    | none => .error (.invalidNumber r)
    | some x => (readTokens false ps).map (.number x :: ·)
  | .mark c :: ps =>
    if Text.isBlank c then readTokens operandNext ps
    else
      match markToken? operandNext c with
      | none => .error (.unknownCharacter c)
      | some t => (readTokens t.beforeOperand ps).map (t :: ·)

/-- **The tokens of a text.** -/
def tokensOf (t : Text) : Except Failure (List Token) :=
  readTokens true (pieces t)

end RunningTab.Expr
