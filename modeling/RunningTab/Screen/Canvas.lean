import RunningTab.Screen.Style
import RunningTab.Text.Cluster
import RunningTab.Text.Width

/-!
# Cells on a canvas

A canvas is a rectangle of cells, each with a symbol and its look. Everything drawn is one of two
changes, made cell by cell: laying a style over an area (`RunningTab.Screen.Canvas.restyle`) and
writing spans along a row (`RunningTab.Screen.Canvas.writeSpans`). Nothing is ever drawn outside: a
change of a cell that the canvas does not have changes nothing.
-/

namespace RunningTab.Screen

/-! ### Cells -/

/-- A cell: one grapheme cluster, its colours and its emphasis. -/
structure Cell where
  symbol : Text
  foreground : Color
  background : Color
  bold : Bool
  underlined : Bool
  deriving DecidableEq, Repr

namespace Cell

/-- The empty cell. -/
def blank : Cell := ⟨[' '], .reset, .reset, false, false⟩

/-- The cell with a style laid over it. -/
def restyled (s : Style) (c : Cell) : Cell where
  symbol := c.symbol
  foreground := s.foreground.getD c.foreground
  background := s.background.getD c.background
  bold := c.bold || s.bold
  underlined := c.underlined || s.underlined

/-- The cell with another symbol, and a style laid over it. -/
def marked (symbol : Text) (s : Style) (c : Cell) : Cell :=
  { c.restyled s with symbol := symbol }

end Cell

/-- A rectangle of cells. -/
structure Area where
  x : Nat
  y : Nat
  width : Nat
  height : Nat
  deriving DecidableEq, Repr

namespace Area

/-- The area inside a border of one cell. -/
def inner (a : Area) : Area :=
  ⟨a.x + min 1 a.width, a.y + min 1 a.height, a.width - 2, a.height - 2⟩

/-- The column behind the last one. -/
def right (a : Area) : Nat := a.x + a.width

/-- The row behind the last one. -/
def bottom (a : Area) : Nat := a.y + a.height

end Area

/-! ### Canvases -/

/-- **A canvas**: its cells, row by row. -/
structure Canvas where
  width : Nat
  height : Nat
  cells : Array Cell

namespace Canvas

/-- The empty canvas. -/
def blank (width height : Nat) : Canvas :=
  ⟨width, height, Array.replicate (width * height) Cell.blank⟩

/-- The whole of a canvas. -/
def area (v : Canvas) : Area := ⟨0, 0, v.width, v.height⟩

/-- The cells of a row. -/
def row (v : Canvas) (y : Nat) : List Cell :=
  (v.cells.toList.drop (y * v.width)).take v.width

/-- Changes one cell. -/
def change (x y : Nat) (f : Cell → Cell) (v : Canvas) : Canvas :=
  if x < v.width then { v with cells := v.cells.modify (y * v.width + x) f } else v

/-- Changes the cells of a row from `x` on, `count` of them. -/
def changeRow (x y count : Nat) (f : Cell → Cell) (v : Canvas) : Canvas :=
  (List.range count).foldl (fun v i => v.change (x + i) y f) v

/-- Changes the cells of a column from `y` on, `count` of them. -/
def changeColumn (x y count : Nat) (f : Cell → Cell) (v : Canvas) : Canvas :=
  (List.range count).foldl (fun v i => v.change x (y + i) f) v

/-- Lays a style over an area. -/
def restyle (a : Area) (s : Style) (v : Canvas) : Canvas :=
  (List.range a.height).foldl (fun v i => v.changeRow a.x (a.y + i) a.width (Cell.restyled s)) v

/-! ### Writing -/

/-- Writes one symbol of the given width; the other cells of a wide one are emptied. -/
def putSymbol (x y columns : Nat) (symbol : Text) (s : Style) (v : Canvas) : Canvas :=
  (v.change x y (Cell.marked symbol s)).changeRow (x + 1) y (columns - 1) fun _ => .blank

/-- Writes clusters from `x` on until one does not fit before `stop`; those without a column are
passed over. Also the column behind them. -/
def writeClusters (y stop : Nat) (s : Style) : (x : Nat) → List Text → Canvas → Canvas × Nat
  | x, [], v => (v, x)
  | x, g :: gs, v =>
    let columns := Text.width g
    if columns = 0 then writeClusters y stop s x gs v
    else if stop < x + columns then (v, x)
    else writeClusters y stop s (x + columns) gs (v.putSymbol x y columns g s)

/-- Writes spans one after the other between the columns `x` and `stop`, each as far as it fits.
Also the column behind them. -/
def writeSpans (y stop : Nat) : (x : Nat) → List Span → Canvas → Canvas × Nat
  | x, [], v => (v, x)
  | x, span :: spans, v =>
    if stop ≤ x then (v, x)
    else
      let r := writeClusters y stop span.style x (Text.clusters span.text) v
      writeSpans y stop r.2 spans r.1

/-- Writes spans from `x` on, at most `limit` columns. -/
def write (x y limit : Nat) (spans : List Span) (v : Canvas) : Canvas × Nat :=
  writeSpans y (min v.width (x + limit)) x spans v

end Canvas

end RunningTab.Screen
