import RunningTab.Text.Blank

/-!
# Styles

Colours and emphasis. A style names only what it changes, so styles lie over one another: what the
upper one names wins, emphasis adds up (`RunningTab.Screen.Style.atop`).
-/

namespace RunningTab.Screen

/-- The colours of a terminal; `reset` is the terminal's own. -/
inductive Color where
  | reset
  | black
  | red
  | green
  | yellow
  | magenta
  | cyan
  | gray
  | darkGray
  | lightGreen
  | lightBlue
  | lightMagenta
  deriving DecidableEq, Repr

/-- What a style changes. -/
structure Style where
  foreground : Option Color := none
  background : Option Color := none
  bold : Bool := false
  underlined : Bool := false
  deriving DecidableEq, Repr

namespace Style

/-- The style that changes nothing. -/
def plain : Style := {}

/-- The style of a foreground colour. -/
def colored (c : Color) : Style := { foreground := some c }

/-- The style with bold letters. -/
def strong (s : Style) : Style := { s with bold := true }

/-- A style laid over another. -/
def atop (upper lower : Style) : Style where
  foreground := upper.foreground <|> lower.foreground
  background := upper.background <|> lower.background
  bold := lower.bold || upper.bold
  underlined := lower.underlined || upper.underlined

end Style

/-- A text in one style. -/
structure Span where
  text : Text
  style : Style := .plain
  deriving DecidableEq, Repr

/-- The text of spans. -/
def plainText (spans : List Span) : Text :=
  spans.flatMap Span.text

end RunningTab.Screen
