import RunningTab.Text.Blank

/-!
# Spaced-out expressions

For display, the blanks of an expression are dropped and every binary operator gets a space on
either side. A minus sign at the start, after an opening parenthesis or after another operator stays
with its operand.
-/

namespace RunningTab.Display

/-- The characters that operators are written with. -/
def isOperatorChar (c : Char) : Bool :=
  "+-*/x÷".toList.contains c

/-- Whether an operand is due after a character, or at the start. -/
def operandDue : Option Char → Bool
  | none => true
  | some c => c == '(' || isOperatorChar c

/-- Whether a character is a binary operator, given the one before it. -/
def isBinary (before : Option Char) (c : Char) : Bool :=
  isOperatorChar c && !(c == '-' && operandDue before)

/-- The characters with a space on either side of binary operators. -/
def spreadOperators : (before : Option Char) → Text → Text
  | _, [] => []
  | before, c :: t =>
    (if isBinary before c then [' ', c, ' '] else [c]) ++ spreadOperators (some c) t

/-- **The expression spaced out.** -/
def spaceOut (t : Text) : Text :=
  Text.spaced (Text.words (spreadOperators none (t.filter (!Text.isBlank ·))))

end RunningTab.Display
