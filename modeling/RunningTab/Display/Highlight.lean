import RunningTab.Display.Spacing
import RunningTab.Expr.Piece
import RunningTab.Screen.Style

/-!
# Coloured expressions

Numerals, operators and percent signs have colours of their own; everything else, parentheses among
it, has the style that is asked for, and spaces have none.
-/

namespace RunningTab.Display

open Screen (Span Style)

/-- The span of a character outside numerals. -/
def markSpan (base : Style) (c : Char) : Span :=
  if c = '%' then ⟨[c], (Style.colored .lightBlue).strong⟩
  else if c = ' ' then ⟨[c], .plain⟩
  else if isOperatorChar c then ⟨[c], (Style.colored .yellow).strong⟩
  else ⟨[c], base⟩

/-- The span of a piece of an expression. -/
def pieceSpan (base : Style) : Expr.Piece → Span
  | .run r => ⟨r, .colored .lightGreen⟩
  | .mark c => markSpan base c

/-- **The spans of an expression.** -/
def highlight (base : Style) (t : Text) : List Span :=
  (Expr.pieces t).map (pieceSpan base)

end RunningTab.Display
