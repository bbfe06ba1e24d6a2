import RunningTab.Decimal.Shortest

/-!
# Why an expression has no value

The causes (`RunningTab.Expr.Failure`), their three kinds and their wording. A text can
fail to be read, its tokens can fail to fit together, and the value can fail to be a
finite number.
-/

namespace RunningTab.Expr

/-- Why an expression has no value. -/
inductive Failure where
  /-- A character that means nothing to the calculator. -/
  | unknownCharacter (c : Char)
  /-- A run of digits and dots that is not a numeral. -/
  | invalidNumber (run : Text)
  /-- There is nothing to work out. -/
  | empty
  /-- An operator lacks an operand. -/
  | missingOperand
  /-- Operands are left that no operator joins. -/
  | leftoverOperands (count : Nat)
  /-- The value is infinite or not a number. -/
  | nonFinite (value : Float)

/-- The three kinds of failure. -/
inductive FailureKind where
  | lexical
  | structural
  | numeric
  deriving DecidableEq, Repr

namespace Failure

/-- The kind of a failure. -/
def kind : Failure → FailureKind
  | unknownCharacter _ | invalidNumber _ => .lexical
  | empty | missingOperand | leftoverOperands _ => .structural
  | nonFinite _ => .numeric

/-- What is said of a failure. -/
def message : Failure → Text
  | unknownCharacter c => "Unknown character: '".toList ++ [c, '\'']
  | invalidNumber run => "Invalid number: '".toList ++ run ++ ['\'']
  | empty => "Nothing to evaluate".toList
  | missingOperand => "Missing operand".toList
  | leftoverOperands count =>
    Decimal.digits count ++ " values left without an operator".toList
  | nonFinite value => "Result is not a finite number: ".toList ++ Decimal.shortText value

end Failure

end RunningTab.Expr
