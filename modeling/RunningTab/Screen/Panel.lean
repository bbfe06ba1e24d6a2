import RunningTab.Screen.Canvas

/-!
# Panels

A panel is a bordered area with titles on its upper edge. Right-hand titles are written first, then
centred ones, then left-hand ones, so on a narrow panel a left-hand title covers the others. A title
keeps the look of the border where it does not set its own.
-/

namespace RunningTab.Screen

/-- The characters of a border. -/
structure BorderSet where
  horizontal : Char
  vertical : Char
  topLeft : Char
  topRight : Char
  bottomLeft : Char
  bottomRight : Char

namespace BorderSet

/-- Single lines. -/
def single : BorderSet := ⟨'─', '│', '┌', '┐', '└', '┘'⟩

/-- Double lines. -/
def double : BorderSet := ⟨'═', '║', '╔', '╗', '╚', '╝'⟩

end BorderSet

/-- Where a title stands. -/
inductive Alignment where
  | left
  | center
  | right
  deriving DecidableEq, Repr

/-- The columns of spans. -/
def spansWidth (spans : List Span) : Nat :=
  spans.foldr (fun s n => Text.width s.text + n) 0

/-- A title. -/
structure Title where
  spans : List Span
  alignment : Alignment

/-- A bordered area; it has at most one title of each alignment. -/
structure Panel where
  border : BorderSet := .single
  borderStyle : Style
  /-- The look of the whole area under everything else. -/
  ground : Style := .plain
  titles : List Title

namespace Panel

/-- The column where a title begins. -/
def titleStart (a : Area) (t : Title) : Nat :=
  match t.alignment with
  | .left => a.x + 1
  | .center => a.x + (a.width - spansWidth t.spans) / 2
  | .right => a.x + (a.width - (spansWidth t.spans + 1))

/-- Draws the titles of an alignment. -/
def drawTitles (p : Panel) (a : Area) (alignment : Alignment) (v : Canvas) : Canvas :=
  (p.titles.filter (·.alignment = alignment)).foldl
    (fun v t => (v.write (titleStart a t) a.y (a.width - 2) t.spans).1) v

/-- Draws the border. -/
def drawBorder (p : Panel) (a : Area) (v : Canvas) : Canvas :=
  let put (c : Char) := Cell.marked [c] p.borderStyle
  let v := v.restyle a p.ground
  let v := v.changeColumn a.x a.y a.height (put p.border.vertical)
  let v := v.changeRow a.x a.y a.width (put p.border.horizontal)
  let v := v.changeColumn (a.right - 1) a.y a.height (put p.border.vertical)
  let v := v.changeRow a.x (a.bottom - 1) a.width (put p.border.horizontal)
  let v := v.change (a.right - 1) (a.bottom - 1) (put p.border.bottomRight)
  let v := v.change (a.right - 1) a.y (put p.border.topRight)
  let v := v.change a.x (a.bottom - 1) (put p.border.bottomLeft)
  v.change a.x a.y (put p.border.topLeft)

/-- **Draws a panel**; an empty area shows nothing of it. -/
def draw (p : Panel) (a : Area) (v : Canvas) : Canvas :=
  if a.width = 0 ∨ a.height = 0 then v
  else
    let v := p.drawBorder a v
    let v := p.drawTitles a .right v
    let v := p.drawTitles a .center v
    p.drawTitles a .left v

end Panel

end RunningTab.Screen
