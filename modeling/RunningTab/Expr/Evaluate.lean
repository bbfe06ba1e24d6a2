import RunningTab.Expr.Lexer
import RunningTab.Expr.Machine
import RunningTab.Expr.Percent
import RunningTab.Expr.Postfix

/-!
# Evaluation

Glyphs, percents, alphabet, tokens, postfix order, machine: the passes one after the
other (`RunningTab.Expr.work`). `RunningTab.Expr.evaluate?` keeps the cause of a failure;
`RunningTab.Expr.evaluate` counts a failure as zero, so that a tab can be totalled while a
line is still being typed.
-/

namespace RunningTab.Expr

/-- The text that the tokens are read from. -/
def plainText (t : Text) : Text :=
  expandPercents (plainGlyphs t)

/-- Refuses a value that is not finite. -/
def finiteOutcome (x : Float) : Except Failure Float :=
  if x.isFinite then .ok x else .error (.nonFinite x)

/-- The tokens of a text whose characters all belong to the alphabet. -/
def allowedTokens (t : Text) : Except Failure (List Token) :=
  (withinAlphabet t).bind fun _ => tokensOf t

/-- **The whole work on an expression**: its steps and its outcome. -/
def work (t : Text) : Run :=
  match allowedTokens (plainText t) with
  | .error e => ⟨[], .error e⟩
  | .ok ts =>
    let run := runPostfix (postfixOrder ts)
    { run with outcome := run.outcome.bind finiteOutcome }

/-- The value of an expression or the cause why it has none. -/
def evaluate? (t : Text) : Except Failure Float :=
  (work t).outcome

/-- **The value of an expression**, zero if it has none. -/
def evaluate (t : Text) : Float :=
  match evaluate? t with
  | .ok x => x
  | .error _ => 0.0

end RunningTab.Expr
