import RunningTab.Screen.Key
import RunningTab.Text.Bytes

/-!
# The editor of one line

A text and a cursor, counted in characters. The text is changed at byte offsets of its UTF-8 form,
each of which is the start of a character or the end, because it comes from a position in characters
(`RunningTab.Text.byteOffset`).
-/

namespace RunningTab

/-- A line that is being typed. -/
structure LineEditor where
  text : Text
  /-- The cursor, in characters. -/
  cursor : Nat
  deriving DecidableEq, Repr

namespace LineEditor

/-- The empty line. -/
def empty : LineEditor := ⟨[], 0⟩

/-- The line with the given text and the cursor at its end. -/
def ofText (t : Text) : LineEditor := ⟨t, t.length⟩

/-- The text with a character inserted at a byte offset. -/
def insertAtByte (offset : Nat) (c : Char) (t : Text) : Text :=
  match Text.splitAtByte? offset t with
  | some (before, behind) => before ++ c :: behind
  | none => t

/-- The text without the character at a byte offset. -/
def removeAtByte (offset : Nat) (t : Text) : Text :=
  match Text.splitAtByte? offset t with
  | some (before, _ :: behind) => before ++ behind
  | _ => t

/-- Inserts a character at the cursor. -/
def insert (c : Char) (l : LineEditor) : LineEditor :=
  ⟨insertAtByte (Text.byteOffset l.text l.cursor) c l.text, l.cursor + 1⟩

/-- Removes the character at the cursor. -/
def removeAtCursor (l : LineEditor) : LineEditor :=
  { l with text := removeAtByte (Text.byteOffset l.text l.cursor) l.text }

/-- **What a key does to the line**; other keys do nothing. -/
def press (code : KeyCode) (l : LineEditor) : LineEditor :=
  match code with
  | .char c => l.insert c
  | .backspace => if 0 < l.cursor then { l with cursor := l.cursor - 1 }.removeAtCursor else l
  | .delete => if l.cursor < l.text.length then l.removeAtCursor else l
  | .left => { l with cursor := l.cursor - 1 }
  | .right => if l.cursor < l.text.length then { l with cursor := l.cursor + 1 } else l
  | .home => { l with cursor := 0 }
  | .toEnd => { l with cursor := l.text.length }
  | _ => l

/-- The text before the cursor. -/
def beforeCursor (l : LineEditor) : Text :=
  ((Text.splitAtByte? (Text.byteOffset l.text l.cursor) l.text).map Prod.fst).getD l.text

end LineEditor

end RunningTab
