import RunningTab.Screen.Panel
import RunningTab.Screen.Reflow

/-!
# Paragraphs

Lines of text in an area, each in one row and cut at the edge, or broken into as many rows as it
takes (`RunningTab.Screen.Paragraph.rows`). The first rows may be scrolled out of sight.
-/

namespace RunningTab.Screen

/-- Lines of text and how they are laid out. -/
structure Paragraph where
  lines : List (List Span)
  alignment : Alignment := .left
  /-- The style under that of the spans. -/
  ground : Style := .plain
  /-- Whether lines too wide are broken. -/
  wraps : Bool := false
  /-- The number of rows out of sight. -/
  scroll : Nat := 0

namespace Paragraph

open Glyph (totalColumns)

/-- The glyphs of a line that fit in a width; one wider than the whole width is passed over. -/
def cut (width : Nat) : (taken : Nat) → List Glyph → List Glyph
  | _, [] => []
  | taken, g :: gs =>
    if width < g.columns then cut width taken gs
    else if width < taken + g.columns then []
    else g :: cut width (taken + g.columns) gs

/-- **The rows of a paragraph in a given width.** -/
def rows (p : Paragraph) (width : Nat) : List (List Glyph) :=
  let lines := p.lines.map (glyphs p.ground)
  if p.wraps then lines.flatMap (reflow width)
  else if width = 0 then [] else lines.map (cut width 0)

/-- The column offset of a row. -/
def offset (alignment : Alignment) (width : Nat) (row : List Glyph) : Nat :=
  match alignment with
  | .left => 0
  | .center => width / 2 - totalColumns row / 2
  | .right => width - totalColumns row

/-- Draws the glyphs of a row from `x` on; those without a column are passed over. -/
def drawRow (y : Nat) : (x : Nat) → List Glyph → Canvas → Canvas
  | _, [], v => v
  | x, g :: gs, v =>
    if g.columns = 0 then drawRow y x gs v
    else drawRow y (x + g.columns) gs (v.change x y (Cell.marked g.symbol g.style))

/-- The rows in sight. -/
def visible (p : Paragraph) (a : Area) : List (List Glyph) :=
  ((p.rows a.width).drop p.scroll).take a.height

/-- Draws the rows in sight. -/
def drawRows (p : Paragraph) (a : Area) (v : Canvas) : Canvas :=
  (p.visible a).zipIdx.foldl
    (fun v (row, i) => drawRow (a.y + i) (a.x + offset p.alignment a.width row) row v) v

/-- **Draws a paragraph.** -/
def draw (p : Paragraph) (a : Area) (v : Canvas) : Canvas :=
  p.drawRows a (v.restyle a p.ground)

/-- Draws a paragraph in a panel. -/
def drawIn (p : Paragraph) (panel : Panel) (a : Area) (v : Canvas) : Canvas :=
  p.drawRows a.inner (panel.draw a (v.restyle a p.ground))

end Paragraph

end RunningTab.Screen
