import RunningTab.Ledger.Basic
import RunningTab.Ledger.Typing
import RunningTab.Settings.Basic
import RunningTab.Text.Lowercase

/-!
# The full-screen editor

A ledger with a cursor in its input, a committed line that may be picked for editing, and what a
screen needs to remember between frames. The actions below are what keys are bound to; the ledger
does the work, the editor keeps the cursor and the picked line in step with it.
-/

namespace RunningTab

/-- What becomes of a text that is put on the clipboard. -/
inductive Clipboard where
  | takes
  /-- There is no clipboard, or it does not take the text. -/
  | refuses
  deriving DecidableEq, Repr

/-- **The full-screen editor.** -/
structure Editor where
  ledger : Ledger
  settings : Settings
  /-- The cursor, in characters of the input. -/
  cursor : Nat
  /-- The first character of the input in sight. -/
  inputScroll : Nat
  /-- The index on its page of the line that is edited. -/
  picked : Option Nat
  quitting : Bool
  helpShown : Bool
  /-- The first row of the help in sight. -/
  helpScroll : Nat
  stepsShown : Bool
  /-- The height of the list of lines in the last frame. -/
  listHeight : Nat
  /-- The first row of each line in the last frame. -/
  lineStarts : List Nat
  /-- The first row of the list in sight. -/
  listScroll : Nat
  /-- Whether the next frame shows the end of the list. -/
  toBottom : Bool
  tooSmall : Bool
  /-- What is said instead of the key hints. -/
  status : Option Text

namespace Editor

/-- The editor at the start. -/
def ofSettings (s : Settings) : Editor where
  ledger := (Ledger.blank s.pages s.defaultRate).turnGst s.gstMode
  settings := s
  cursor := 0
  inputScroll := 0
  picked := none
  quitting := false
  helpShown := false
  helpScroll := 0
  stepsShown := false
  listHeight := 5
  lineStarts := []
  listScroll := 0
  toBottom := false
  tooSmall := false
  status := none

/-! ### Views -/

/-- The input of the ledger. -/
def input (e : Editor) : Text := e.ledger.input

/-- The total as it is copied: a bare number. -/
def copyText (e : Editor) : Text :=
  showPlain e.ledger.grandTotal

/-- The steps of the work on the input, none if it fails. -/
def steps (e : Editor) : List Expr.Step :=
  let run := Expr.work e.input
  match run.outcome with
  | .ok _ => run.steps
  | .error _ => []

/-! ### The cursor -/

/-- The cursor at the start of the input. -/
def cursorHome (e : Editor) : Editor :=
  { e with cursor := 0, inputScroll := 0 }

/-- The cursor behind the last character. -/
def cursorToEnd (e : Editor) : Editor :=
  { e with cursor := e.input.length }

/-- The cursor one character to the left. -/
def cursorLeft (e : Editor) : Editor :=
  { e with cursor := e.cursor - 1 }

/-- The cursor one character to the right. -/
def cursorRight (e : Editor) : Editor :=
  { e with cursor := min (e.cursor + 1) e.input.length }

/-- The characters between terms: blanks and operators. -/
def isTermBreak (c : Char) : Bool :=
  Text.isBlank c || "+-*/x÷".toList.contains c

/-- The cursor before the term to its left. -/
def cursorTermLeft (e : Editor) : Editor :=
  let before := (e.input.take e.cursor).reverse
  let rest := (before.dropWhile isTermBreak).dropWhile (!isTermBreak ·)
  { e with cursor := rest.length }

/-- The cursor before the next term to its right. -/
def cursorTermRight (e : Editor) : Editor :=
  let behind := e.input.drop e.cursor
  let rest := (behind.dropWhile (!isTermBreak ·)).dropWhile isTermBreak
  { e with cursor := e.input.length - rest.length }

/-- Scrolls the input so that the cursor is in sight in a given width, without leaving room at the
end that the text could fill. -/
def scrollInput (width : Nat) (e : Editor) : Editor :=
  let wanted :=
    if e.cursor < e.inputScroll then e.cursor
    else if e.inputScroll + width ≤ e.cursor then e.cursor - width + 1
    else e.inputScroll
  { e with inputScroll := min wanted (e.input.length - width) }

/-! ### Typing -/

/-- The editor with a text inserted at the cursor. -/
def insertText (t : Text) (e : Editor) : Editor :=
  let r := e.ledger.insert e.cursor t
  { e with ledger := r.1, cursor := r.2 }

/-- The editor with the character before a position deleted. -/
def erase (position : Nat) (e : Editor) : Editor :=
  let r := e.ledger.erase position
  { e with ledger := r.1, cursor := r.2 }

/-- Deletes the character before the cursor. -/
def backspace (e : Editor) : Editor :=
  e.erase e.cursor

/-- Deletes the character behind the cursor. -/
def delete (e : Editor) : Editor :=
  if e.cursor < e.input.length then e.erase (e.cursor + 1) else e

/-- Inserts the parenthesis that fits. -/
def typeParen (e : Editor) : Editor :=
  e.insertText (parenFor e.input)

/-- Inserts the digits and operators of a pasted text. -/
def paste (t : Text) (e : Editor) : Editor :=
  if sanitize t = [] then e else e.insertText (sanitize t)

/-! ### Committing -/

/-- The editor after a commit that gave an identifier or none. -/
def afterCommit (r : Ledger × Option Nat) (e : Editor) : Editor :=
  match r.2 with
  | none => { e with ledger := r.1 }
  | some _ => { e with ledger := r.1, picked := none, toBottom := true }.cursorHome

/-- Commits the input or ends the editing of a line, unless the input is a command word. -/
def submit (e : Editor) : Editor :=
  let word := Text.lower (Text.trim e.input)
  if isQuitWord word then { e with quitting := true }
  else if word = "help".toList then
    { e with helpShown := true, ledger := e.ledger.edit [] }.cursorHome
  else e.afterCommit e.ledger.commit

/-- The rate on a tax key: with the tax mode on one of the rates, otherwise the default rate on the
first key. The inner option is the rate that the ledger is given. -/
def rateOn (slot : Nat) (e : Editor) : Option (Option Float) :=
  if e.ledger.gstMode then e.settings.rates[slot]?.map some
  else if slot = 0 then some none
  else none

/-- Commits the input with the tax on a key. -/
def commitTaxed (slot : Nat) (direction : TaxDirection) (e : Editor) : Editor :=
  match e.rateOn slot with
  | some rate => e.afterCommit (e.ledger.commitTaxed direction rate)
  | none => e

/-! ### Picking lines -/

/-- Ends the editing of a line. -/
def release (e : Editor) : Editor :=
  { e with
    ledger := if e.ledger.selected.isSome then e.ledger.deselect else e.ledger
    picked := none }.cursorHome

/-- Picks the line with an index for editing. -/
def pick (index : Nat) (e : Editor) : Editor :=
  match e.ledger.page[index]? with
  | some line =>
    { e with ledger := (e.ledger.select line.id).1, picked := some index }.cursorToEnd
  | none => e

/-- The index of the line above, from below the list that of the last one. -/
def indexAbove (e : Editor) : Nat :=
  match e.picked with
  | none => e.ledger.page.length - 1
  | some i => i - 1

/-- The index of the line below, if there is one. -/
def indexBelow? (e : Editor) : Option Nat :=
  match e.picked with
  | some i => if i + 1 < e.ledger.page.length then some (i + 1) else none
  | none => none

/-- Picks the line above. -/
def lineUp (e : Editor) : Editor :=
  if e.ledger.page = [] then e else { e.pick e.indexAbove with toBottom := false }

/-- Picks the line below; below the last one ends the editing. -/
def lineDown (e : Editor) : Editor :=
  if e.ledger.page = [] then e
  else
    match e.indexBelow? with
    | some i => { e.pick i with toBottom := false }
    | none => { e.release with toBottom := false }

/-! ### Pages -/

/-- Turns to the page with an index. -/
def turnTo (index : Nat) (e : Editor) : Editor :=
  { e with ledger := (e.ledger.turnTo index).1, picked := none, toBottom := true }.cursorHome

/-- Turns to the next page, from the last one to the first. -/
def nextPage (e : Editor) : Editor :=
  e.turnTo ((e.ledger.current + 1) % e.ledger.pages.length)

/-- Turns to the previous page, from the first one to the last. -/
def previousPage (e : Editor) : Editor :=
  let count := e.ledger.pages.length
  e.turnTo ((e.ledger.current + count - 1) % count)

/-! ### Clearing and undoing -/

/-- Clears the input, or drops the last line if it is empty. -/
def retract (e : Editor) : Editor :=
  let l := e.ledger.retract
  { e with ledger := l, picked := if l.selected.isSome then e.picked else none }.cursorHome

/-- Drops all lines of the page. -/
def wipe (e : Editor) : Editor :=
  { e with ledger := e.ledger.wipe, picked := none, listScroll := 0 }.cursorHome

/-- Restores the latest snapshot and ends all editing, if there is one. -/
def undo (e : Editor) : Editor :=
  let r := e.ledger.undo
  if r.2 then { e with ledger := r.1.deselect, picked := none }.cursorHome else e

/-! ### Scrolling the help -/

/-- Scrolls the help down, at most to the last of its lines. -/
def scrollHelpDown (count lines : Nat) (e : Editor) : Editor :=
  { e with helpScroll := min (e.helpScroll + count) (lines - 1) }

/-- Scrolls the help up, at most to the last of its lines. -/
def scrollHelpUp (count lines : Nat) (e : Editor) : Editor :=
  { e with helpScroll := min (e.helpScroll - count) (lines - 1) }

/-! ### Copying -/

/-- Says that the total cannot be copied: there is no clipboard. -/
def refuseCopy (e : Editor) : Editor :=
  { e with status := some "Clipboard unavailable".toList }

/-- Puts the total on the clipboard and says what became of it. -/
def copyTotal (clipboard : Clipboard) (e : Editor) : Editor :=
  match clipboard with
  | .takes => { e with status := some ("Copied ".toList ++ e.copyText) }
  | .refuses => e.refuseCopy

end Editor

end RunningTab
