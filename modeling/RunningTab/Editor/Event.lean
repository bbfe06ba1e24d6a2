import RunningTab.Editor.Help
import RunningTab.Screen.Key

/-!
# Keys, mouse and paste

What the events of a terminal do to the editor. While the help is shown, keys scroll it or close it
and do nothing else. `RunningTab.Editor.press` is what a key does by itself;
`RunningTab.Editor.handle` is the whole of an event, where a key press also ends the status message
and one key copies the total.
-/

namespace RunningTab

/-- What a mouse does. -/
inductive MouseAction where
  | wheelUp
  | wheelDown
  | other
  deriving DecidableEq, Repr

namespace Editor

/-! ### Keys -/

/-- What a key does while the help is shown. -/
def pressInHelp (code : KeyCode) (e : Editor) : Editor :=
  let lines := e.helpPage.length
  match code with
  | .down => e.scrollHelpDown 1 lines
  | .up => e.scrollHelpUp 1 lines
  | .pageDown => e.scrollHelpDown 10 lines
  | .pageUp => e.scrollHelpUp 10 lines
  | .escape | .function 1 => { e with helpShown := false, helpScroll := 0 }
  | _ => e

/-- What a character does with the control key held. -/
def pressControl (c : Char) (e : Editor) : Editor :=
  if c = 'c' ∨ c = 'q' then { e with quitting := true }
  else if c = 'u' ∨ c = 'U' then e.retract
  else if c = 'l' then e.wipe
  else if c = 'z' then e.undo
  else if c = 'g' then { e with ledger := e.ledger.turnGst (!e.ledger.gstMode) }
  else if c = 'd' then { e with stepsShown := !e.stepsShown }
  else if c = 'p' then e.typeParen
  else e

/-- What a function key does. -/
def pressFunction (n : Nat) (shift : Bool) (e : Editor) : Editor :=
  if 5 ≤ n ∧ n ≤ 7 then e.commitTaxed (n - 5) (if shift then .remove else .add)
  else if 8 ≤ n ∧ n ≤ 10 then e.commitTaxed (n - 8) .remove
  else if n = 1 then { e with helpShown := true, helpScroll := 0 }
  else e

/-- What a key does while the help is not shown. -/
def pressInEditor (k : Key) (e : Editor) : Editor :=
  match k.code with
  | .char c =>
    if k.ctrl then e.pressControl c
    else if k.alt then e
    else e.insertText [c]
  | .function n => e.pressFunction n k.shift
  | .enter => e.submit
  | .backspace => e.backspace
  | .delete => e.delete
  | .insert => e
  | .left => if k.ctrl then e.cursorTermLeft else e.cursorLeft
  | .right => if k.ctrl then e.cursorTermRight else e.cursorRight
  | .up => e.lineUp
  | .down => e.lineDown
  | .home => e.cursorHome
  | .toEnd => e.cursorToEnd
  | .pageUp => { e with listScroll := e.listScroll - (e.listHeight - 1) }
  | .pageDown => { e with listScroll := e.listScroll + (e.listHeight - 1) }
  | .tab => e.nextPage
  | .backTab => e.previousPage
  | .escape => e.release

/-- **What a key does.** -/
def press (k : Key) (e : Editor) : Editor :=
  if e.helpShown then e.pressInHelp k.code else e.pressInEditor k

/-! ### The mouse -/

/-- How many rows the wheel scrolls. -/
def wheelRows : Nat := 3

/-- **What the mouse does.** -/
def wheel (action : MouseAction) (e : Editor) : Editor :=
  match action, e.helpShown with
  | .wheelDown, true => { e with helpScroll := e.helpScroll + wheelRows }
  | .wheelUp, true => { e with helpScroll := e.helpScroll - wheelRows }
  | .wheelDown, false => { e with listScroll := e.listScroll + wheelRows }
  | .wheelUp, false => { e with listScroll := e.listScroll - wheelRows }
  | .other, _ => e

end Editor

/-! ### Events -/

/-- What a terminal reports. -/
inductive Event where
  /-- A key is pressed. What the clipboard would do with a text at that time comes with it; only the
  key that copies the total asks for it. -/
  | key (k : Key) (clipboard : Clipboard := .refuses)
  | paste (t : Text)
  | mouse (action : MouseAction)
  deriving DecidableEq, Repr

/-- **What an event does.** -/
def Editor.handle (e : Editor) : Event → Editor
  | .key k clipboard =>
    if k.code = .char 'y' ∧ k.ctrl ∧ ¬ e.helpShown then e.copyTotal clipboard
    else { e with status := none }.press k
  | .paste t => if e.helpShown then e else e.paste t
  | .mouse action => e.wheel action

/-- A key copies the total, and then nothing but the status changes whatever becomes of the copy, or
it does what it does by itself. -/
theorem Editor.handle_key (e : Editor) (k : Key) (clipboard : Clipboard) :
    (∃ said, e.handle (.key k clipboard) = { e with status := some said }) ∨
      e.handle (.key k clipboard) = { e with status := none }.press k := by
  rw [handle]
  split
  · cases clipboard with
    | takes => exact Or.inl ⟨_, rfl⟩
    | refuses => exact Or.inl ⟨_, rfl⟩
  · exact Or.inr rfl

end RunningTab
