import RunningTab.Expr.Token

/-!
# Postfix order

Operators after their operands. The conversion keeps the operators that wait for their
second operand on a stack, with the open parentheses between them; an operator first
releases those on top of the stack that bind at least as tightly, the unary minus not
excepted. Parentheses without a partner, on either side, are dropped.
-/

namespace RunningTab.Expr

/-- What waits on the stack. -/
inductive Waiting where
  | operator (op : Operator)
  | paren
  deriving DecidableEq, Repr

namespace Waiting

/-- The operators on top of the stack that bind at least as tightly as `op`. -/
def released (op : Operator) : List Waiting → List Token
  | .operator top :: st =>
    if top.precedence < op.precedence then [] else .operator top :: released op st
  | _ => []

/-- The stack without the operators that bind at least as tightly as `op`. -/
def kept (op : Operator) : List Waiting → List Waiting
  | .operator top :: st =>
    if top.precedence < op.precedence then .operator top :: st else kept op st
  | st => st

/-- The operators above the innermost open parenthesis. -/
def enclosed : List Waiting → List Token
  | .operator top :: st => .operator top :: enclosed st
  | _ => []

/-- The stack below the innermost open parenthesis. -/
def outside : List Waiting → List Waiting
  | .operator _ :: st => outside st
  | .paren :: st => st
  | [] => []

/-- All operators on the stack, from the top. -/
def flush : List Waiting → List Token
  | .operator top :: st => .operator top :: flush st
  | .paren :: st => flush st
  | [] => []

end Waiting

/-- The postfix order of tokens, with a stack of what waits before them. -/
def postfixFrom : List Waiting → List Token → List Token
  | st, [] => Waiting.flush st
  | st, .number x :: ts => .number x :: postfixFrom st ts
  | st, .opening :: ts => postfixFrom (.paren :: st) ts
  | st, .closing :: ts => Waiting.enclosed st ++ postfixFrom (Waiting.outside st) ts
  | st, .operator op :: ts =>
    Waiting.released op st ++ postfixFrom (.operator op :: Waiting.kept op st) ts

/-- **The postfix order of tokens.** -/
def postfixOrder (ts : List Token) : List Token :=
  postfixFrom [] ts

end RunningTab.Expr
