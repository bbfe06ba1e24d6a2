import RunningTab.Decimal.Digits

/-!
# Control sequences of a terminal

What is written to a terminal to move its cursor, colour its text and switch its modes.
-/

namespace RunningTab.Terminal

/-- A control sequence: the escape character, an opening bracket and the given parts. -/
def sequence (t : Text) : Text :=
  '\x1b' :: '[' :: t

/-- Empties the line of the cursor. -/
def emptyLine : Text := sequence "2K".toList

/-- Moves the cursor; columns and rows count from one. -/
def goTo (column row : Nat) : Text :=
  sequence (Decimal.digits row ++ [';'] ++ Decimal.digits column ++ ['H'])

/-- Asks where the cursor is. -/
def askPosition : Text := sequence "6n".toList

/-- Writes dimly from here on. -/
def dim : Text := sequence "38;5;8m".toList

/-- Writes in the terminal's own colour from here on. -/
def undim : Text := sequence "39m".toList

/-- Ends a line on a terminal that does not return to the left margin by itself. -/
def newLine : Text := "\r\n".toList

/-! ### Modes -/

/-- The modes of a full screen, in the order in which they are switched on: the second screen,
bracketed paste, and the five that report the mouse. -/
def mouseModes : List String := ["1000", "1002", "1003", "1015", "1006"]

/-- Switches a mode on. -/
def switchOn (mode : String) : Text := sequence ('?' :: mode.toList ++ ['h'])

/-- Switches a mode off. -/
def switchOff (mode : String) : Text := sequence ('?' :: mode.toList ++ ['l'])

/-- Shows the cursor. -/
def showCursor : Text := switchOn "25"

/-- Takes the whole screen: another screen, paste and mouse reported, a blinking bar as cursor. -/
def enterFullScreen : Text :=
  switchOn "1049" ++ switchOn "2004" ++ mouseModes.flatMap switchOn ++ sequence "5 q".toList

/-- Gives the screen back. A cursor that the last frame hid is shown once more at the end. -/
def leaveFullScreen (cursorHidden : Bool) : Text :=
  mouseModes.reverse.flatMap switchOff ++ switchOff "2004" ++ switchOff "1049" ++ showCursor ++
    sequence "0 q".toList ++ if cursorHidden then showCursor else []

end RunningTab.Terminal
