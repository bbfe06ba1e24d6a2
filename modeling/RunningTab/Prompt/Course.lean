import RunningTab.Prompt.Session

/-!
# The course of a session at the prompt

The keys of a session, in order, are its course (`RunningTab.Prompt.afterAll`). Most keys only
change the line that is typed. The enter key hands a line that is not blank over to be carried out,
on a ledger whose input has been cleared of what was typed (`RunningTab.Prompt.handedOver?`).
-/

namespace RunningTab.Prompt

/-- The session after keys. -/
def afterAll (p : Prompt) (keys : List Key) : Prompt :=
  keys.foldl (fun p k => (p.press k).1) p

/-- **The reachable sessions**: what keys make of a session at its start, with any settings. -/
def Reachable (p : Prompt) : Prop :=
  ∃ settings row keys, p = (start settings row).1.afterAll keys

/-- The ledger and the line that a key hands over to be carried out, if it does. -/
def handedOver? (k : Key) (p : Prompt) : Option (Ledger × Text) :=
  if p.ended ∨ isInterrupt k ∨ ¬ isEnter k ∨ Text.trim p.line.text = [] then none
  else some (p.ledger.edit [], Text.trim p.line.text)

/-- The lines printed for one that was carried out, as they are written to the terminal. -/
def printed (lines : List Text) : Text :=
  Terminal.newLine ++ lines.flatMap (fun line => "  ".toList ++ line ++ Terminal.newLine) ++
    Terminal.newLine

end RunningTab.Prompt
