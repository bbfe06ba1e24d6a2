/-!
# Keys

The keys of a keyboard, with the modifiers held.
-/

namespace RunningTab

/-- The keys of a keyboard. -/
inductive KeyCode where
  | char (c : Char)
  | function (n : Nat)
  | enter
  | backspace
  | delete
  | insert
  | left
  | right
  | up
  | down
  | home
  | toEnd
  | pageUp
  | pageDown
  | tab
  | backTab
  | escape
  deriving DecidableEq, Repr

/-- A key and the modifiers held with it. -/
structure Key where
  code : KeyCode
  ctrl : Bool := false
  shift : Bool := false
  alt : Bool := false
  deriving DecidableEq, Repr

namespace Key

/-- A character without modifiers. -/
def plain (c : Char) : Key := { code := .char c }

/-- What a terminal reports for a letter with the control key held. It cannot tell two of these from
the tab key and the enter key. -/
def control (c : Char) : Key :=
  if c = 'i' then { code := .tab }
  else if c = 'm' then { code := .enter }
  else { code := .char c, ctrl := true }

end Key

end RunningTab
