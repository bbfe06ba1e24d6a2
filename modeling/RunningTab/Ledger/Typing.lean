import RunningTab.Ledger.Basic

/-!
# Typing

What the parenthesis key inserts, what is kept of a pasted text, and which words are no input but
end the program.
-/

namespace RunningTab

/-- What the parenthesis key inserts after the given input: a closing one if one is open and
an operand stands before it, otherwise an opening one, with a multiplication after an
operand. -/
def parenFor (input : Text) : Text :=
  let last := input.getLast?
  let operandDue := last.any fun c => "(+-x÷".toList.contains c
  let operandDone := last.any fun c => Text.isDigit c || c == ')'
  if input.count ')' < input.count '(' && !operandDue then ")".toList
  else if operandDone then "x(".toList
  else "(".toList

/-- The digits and operators of a pasted text. -/
def sanitize (t : Text) : Text :=
  t.filter fun c => Text.isDigit c || ".+-*/()%".toList.contains c

/-- The words that end the program, at the prompt as in the editor. -/
def isQuitWord (t : Text) : Bool :=
  ["quit", "exit", "q"].any fun w => w.toList == t

end RunningTab
