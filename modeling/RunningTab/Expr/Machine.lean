import RunningTab.Expr.Failure
import RunningTab.Expr.Token

/-!
# The stack machine

Runs a postfix sequence on a stack of values. Numbers are pushed, operators take their
operands from the top, parentheses do nothing. A run is the list of its steps, kept even
when the run fails after them, and its outcome.
-/

namespace RunningTab.Expr

/-! ### Steps -/

/-- What one step works out. -/
inductive Work where
  | negation (operand : Float)
  | combination (left : Float) (op : Operator) (right : Float)

/-- A step of the machine and its result. -/
structure Step where
  work : Work
  result : Float

/-- The operation of a step as it is listed. -/
def Work.text : Work → Text
  | negation a => "-(".toList ++ Decimal.shortText a ++ [')']
  | combination a op b =>
    Decimal.shortText a ++ [' ', op.symbol, ' '] ++ Decimal.shortText b

/-- A step as it is listed, `n` being its number and `amount` its result. -/
def Step.listed (n : Nat) (amount : Text) (s : Step) : Text :=
  "Step ".toList ++ Decimal.digits n ++ ": ".toList ++ s.work.text ++ " = ".toList ++ amount

/-! ### Runs -/

/-- The steps of a run and how it ended. -/
structure Run where
  steps : List Step
  outcome : Except Failure Float

/-- The run with a step before it. -/
def Run.after (s : Step) (r : Run) : Run :=
  { r with steps := s :: r.steps }

/-- How a run ends with the given stack. -/
def stackOutcome : List Float → Except Failure Float
  | [] => .error .empty
  | [x] => .ok x
  | st => .error (.leftoverOperands st.length)

/-- A run that starts with the given stack, the top first. -/
def runFrom : List Float → List Token → Run
  | st, [] => ⟨[], stackOutcome st⟩
  | st, .number x :: ts => runFrom (x :: st) ts
  | st, .opening :: ts => runFrom st ts
  | st, .closing :: ts => runFrom st ts
  | st, .operator .neg :: ts =>
    match st with
    | a :: st => (runFrom (-a :: st) ts).after ⟨.negation a, -a⟩
    | [] => ⟨[], .error .missingOperand⟩
  | st, .operator op :: ts =>
    match st with
    | b :: a :: st =>
      (runFrom (op.combine a b :: st) ts).after ⟨.combination a op b, op.combine a b⟩
    | _ => ⟨[], .error .missingOperand⟩

/-- **The run of a postfix sequence.** -/
def runPostfix (ts : List Token) : Run :=
  runFrom [] ts

end RunningTab.Expr
