import RunningTab.Decimal.Shortest

/-!
# Tokens of an expression

What the calculator computes with once the text has been read: numbers, the five
operators and the two parentheses. The minus sign is two operators, one between two
operands and one before an operand.
-/

namespace RunningTab.Expr

/-- The operators, the unary minus among them. -/
inductive Operator where
  | add
  | sub
  | mul
  | div
  | neg
  deriving DecidableEq, Repr

namespace Operator

/-- How tightly an operator binds; the unary minus binds tightest. -/
def precedence : Operator → Nat
  | neg => 3
  | mul | div => 2
  | add | sub => 1

/-- The character an operator is written with. -/
def symbol : Operator → Char
  | add => '+'
  | sub | neg => '-'
  | mul => '*'
  | div => '/'

/-- What a binary operator makes of its operands. A division by zero counts as zero, and
the unary minus takes the second operand. -/
def combine : Operator → Float → Float → Float
  | add, a, b => a + b
  | sub, a, b => a - b
  | mul, a, b => a * b
  | div, a, b => if b == 0.0 then 0.0 else a / b
  | neg, _, b => -b

end Operator

/-- A token of an expression. -/
inductive Token where
  | number (value : Float)
  | operator (op : Operator)
  | opening
  | closing

namespace Token

/-- Whether the token is a parenthesis. -/
def isParen : Token → Bool
  | opening | closing => true
  | _ => false

/-- Whether the token is a number. -/
def isNumber : Token → Bool
  | number _ => true
  | _ => false

/-- Whether a minus sign right after this token is a unary one. -/
def beforeOperand : Token → Bool
  | operator _ | opening => true
  | _ => false

end Token

end RunningTab.Expr
