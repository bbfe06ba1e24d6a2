import RunningTab.Prompt.Command
import RunningTab.Prompt.LineEditor
import RunningTab.Screen.Terminal
import RunningTab.Text.Width

/-!
# Sessions at the prompt

A line is typed at a prompt on one row of the terminal, with the value of what has been typed so far
beside it. Up and down recall earlier lines. After every key the row is drawn anew; the enter key
carries the line out and opens the next prompt.

`RunningTab.Prompt.press` gives the session after a key and what is written to the terminal for it.
-/

namespace RunningTab

/-- A session at the prompt. -/
structure Prompt where
  settings : Settings
  ledger : Ledger
  /-- The lines carried out, the oldest first. -/
  history : List Text
  /-- The index of the recalled line; behind the last one if none is. -/
  recalled : Nat
  line : LineEditor
  /-- The row of the terminal that the prompt is on. -/
  row : Nat
  ended : Bool

namespace Prompt

/-- The words before a line. -/
def label : Text := "Expression: ".toList

/-- What is said at the start. -/
def banner (s : Settings) : List Text :=
  ["tabcalc line mode".toList,
   "Supports: +, -, * (x), / (÷), parentheses, 50%, 100+5%".toList,
   "Tax: '1000 @+' adds ".toList ++ Decimal.shortText s.defaultRate ++
     "% tax, '1180 @-5' takes 5% out".toList,
   "Commands: total, list, page N, pop, undo, clear, details <expr>, quit".toList,
   "\rNavigation: ←/→, Backspace/Delete, Home/End, ↑/↓ for history".toList,
   []]

/-! ### Drawing the row -/

/-- The value beside what has been typed. -/
def previewText (p : Prompt) : Text :=
  if p.line.text = [] then [] else "   = ".toList ++ p.settings.amount p.ledger.preview

/-- The column of the cursor. -/
def cursorColumn (p : Prompt) : Nat :=
  1 + label.length + Text.width p.line.beforeCursor

/-- The session with what has been typed in the ledger's input, unless nothing has. -/
def previewing (p : Prompt) : Prompt :=
  if p.line.text = [] then p else { p with ledger := p.ledger.edit p.line.text }

/-- Draws the row; also the session then. -/
def redraw (p : Prompt) : Prompt × Text :=
  let p := p.previewing
  (p, Terminal.goTo 1 p.row ++ Terminal.emptyLine ++ label ++ p.line.text ++ Terminal.dim ++
    p.previewText ++ Terminal.undim ++ Terminal.goTo p.cursorColumn p.row)

/-- Opens a prompt with an empty line. -/
def opened (p : Prompt) : Prompt × Text :=
  let r := { p with line := .empty }.redraw
  (r.1, Terminal.emptyLine ++ label ++ Terminal.askPosition ++ r.2)

/-- **The start of a session** on a row of the terminal. -/
def start (s : Settings) (row : Nat) : Prompt × Text :=
  let r := opened
    { settings := s
      ledger := Ledger.blank s.pages s.defaultRate
      history := []
      recalled := 0
      line := .empty
      row := row
      ended := false }
  (r.1, (banner s).flatMap (· ++ Terminal.newLine) ++ r.2)

/-! ### Recalling lines -/

/-- The session with a line of the history recalled. -/
def recallAt (index : Nat) (p : Prompt) : Prompt :=
  match p.history[index]? with
  | some t => { p with recalled := index, line := .ofText t }
  | none => p

/-- Recalls the line before. -/
def recallOlder (p : Prompt) : Prompt :=
  if 0 < p.recalled then p.recallAt (p.recalled - 1) else p

/-- Recalls the line after, behind the last one an empty line. -/
def recallNewer (p : Prompt) : Prompt :=
  if p.recalled < p.history.length - 1 then p.recallAt (p.recalled + 1)
  else { p with recalled := p.history.length, line := .empty }

/-! ### Carrying lines out -/

/-- Carries the typed line out, if it is not blank, and opens the next prompt. -/
def submit (p : Prompt) : Prompt × Text :=
  let l := p.ledger.edit []
  let t := Text.trim p.line.text
  if t = [] then
    let r := { p with ledger := l }.opened
    (r.1, Terminal.newLine ++ r.2)
  else
    let done := submitLine p.settings l t
    let history := p.history ++ [t]
    let p := { p with ledger := done.1, history := history, recalled := history.length }
    let printed := Terminal.newLine ++
      done.2.flatMap (fun line => "  ".toList ++ line ++ Terminal.newLine) ++ Terminal.newLine
    if isQuitWord (Text.lower t) then ({ p with ended := true }, printed)
    else
      let r := p.opened
      (r.1, printed ++ r.2)

/-! ### Keys -/

/-- Whether a key carries the line out. -/
def isEnter (k : Key) : Bool :=
  k.code == .enter || k.code == .char '\n' || k.code == .char '\r'

/-- Whether a key ends the session. -/
def isInterrupt (k : Key) : Bool :=
  k.ctrl && (k.code == .char 'c' || k.code == .char 'd')

/-- The session after a key that neither carries the line out nor ends the session. -/
def edited (k : Key) (p : Prompt) : Prompt :=
  if k.ctrl || k.alt then p
  else
    match k.code with
    | .up => p.recallOlder
    | .down => p.recallNewer
    | .tab => { p with line := p.line.press (.char '\t') }
    | code => { p with line := p.line.press code }

/-- **The session after a key, and what is written for it.** -/
def press (k : Key) (p : Prompt) : Prompt × Text :=
  if p.ended then (p, [])
  else if isInterrupt k then
    ({ p with ended := true }, Terminal.newLine ++ "Goodbye!".toList ++ Terminal.newLine)
  else if isEnter k then p.submit
  else (p.edited k).redraw

end Prompt

end RunningTab
