import RunningTab.Screen.Canvas

/-!
# Reflowing lines

A line too wide for its area is broken between words, as late as possible; a word too wide for a
whole row is broken anywhere. The blanks at a break are dropped, and so are the ones at the head of
every row. The line is read cluster by cluster: blanks and letters wait, in `blanks` and `word`,
until it is known whether they still fit on the row begun in `row`
(`RunningTab.Screen.Reflow.step`).
-/

namespace RunningTab.Screen

/-- A grapheme cluster in its style. -/
structure Glyph where
  symbol : Text
  style : Style
  deriving DecidableEq, Repr

namespace Glyph

/-- The columns of a glyph. -/
def columns (g : Glyph) : Nat := Text.width g.symbol

/-- Whether a glyph is blank; a no-break space is not. -/
def isBlank (g : Glyph) : Bool :=
  g.symbol.all Text.isBlank && g.symbol != ['\u00A0']

/-- The columns of glyphs. -/
def totalColumns (gs : List Glyph) : Nat := gs.foldr (fun g n => g.columns + n) 0

end Glyph

/-- The glyphs of spans over a ground style; line feeds are dropped. -/
def glyphs (ground : Style) (spans : List Span) : List Glyph :=
  spans.flatMap fun s =>
    ((Text.clusters s.text).filter (· != ['\n'])).map (⟨·, s.style.atop ground⟩)

/-- A line while it is being broken into rows. -/
structure Reflow where
  /-- The finished rows. -/
  rows : List (List Glyph)
  /-- The row begun. -/
  row : List Glyph
  /-- The blanks behind it. -/
  blanks : List Glyph
  /-- The letters behind the blanks. -/
  word : List Glyph
  /-- Whether the last glyph was a letter. -/
  inWord : Bool

namespace Reflow

open Glyph (totalColumns)

/-- Nothing read yet. -/
def start : Reflow := ⟨[], [], [], [], false⟩

/-- The waiting word put on the row, with the blanks before it unless the row is empty. -/
def settled (r : Reflow) : Reflow :=
  { r with
    row := (if r.row = [] then r.word else r.row ++ r.blanks ++ r.word)
    blanks := []
    word := [] }

/-- Whether the waiting word must be put on the row before a glyph is read. -/
def mustSettle (width : Nat) (r : Reflow) (g : Glyph) : Bool :=
  (r.inWord && g.isBlank) ||
    (r.row.isEmpty && width < totalColumns r.word + g.columns) ||
    (r.row.isEmpty && width < totalColumns r.blanks + g.columns)

/-- Whether the row is full before a glyph is read. -/
def isFull (width : Nat) (r : Reflow) (g : Glyph) : Bool :=
  width ≤ totalColumns r.row ||
    (width ≤ totalColumns r.row + totalColumns r.blanks + totalColumns r.word && 0 < g.columns)

/-- The blanks left of those that filled up a finished row with `room` columns left, and whether
there were too many of them. The first that does not fit is dropped with the others. -/
def dropBlanks : (room : Nat) → List Glyph → List Glyph × Bool
  | _, [] => ([], false)
  | room, b :: bs => if room < b.columns then (bs, true) else dropBlanks (room - b.columns) bs

/-- A glyph added to what waits. -/
def waiting (r : Reflow) (g : Glyph) : Reflow :=
  if g.isBlank then { r with blanks := r.blanks ++ [g], inWord := false }
  else { r with word := r.word ++ [g], inWord := true }

/-- Reads one glyph; one wider than a row is passed over. -/
def step (width : Nat) (r : Reflow) (g : Glyph) : Reflow :=
  if width < g.columns then r
  else
    let r := if r.mustSettle width g then r.settled else r
    if r.isFull width g then
      let dropped := dropBlanks (width - totalColumns r.row) r.blanks
      let r := { r with rows := r.rows ++ [r.row], row := [], blanks := dropped.1 }
      if g.isBlank && !dropped.2 then r else r.waiting g
    else r.waiting g

/-- The rows of a line that has been read to its end. -/
def finished (r : Reflow) : List (List Glyph) :=
  let empty := if r.row = [] ∧ r.word = [] ∧ r.blanks ≠ [] then [[]] else []
  let last := if r.row = [] then r.word else r.row ++ r.blanks ++ r.word
  let rows := r.rows ++ empty ++ if last = [] then [] else [last]
  if rows = [] then [[]] else rows

end Reflow

/-- **The rows of a line in a given width.** -/
def reflow (width : Nat) (line : List Glyph) : List (List Glyph) :=
  if width = 0 then [] else (line.foldl (Reflow.step width) .start).finished

end RunningTab.Screen
