import RunningTab.Expr.Piece

/-!
# Percents

Percents are arithmetic written shorter, and one pass over the pieces of the text writes
them out. `A+B%` and `A-B%` with nothing between the numerals and the signs mean a share
of `A` added or taken off, so they become `A+(A*(B/100))` and `A-(A*(B/100))`; any other
run with a percent sign behind it becomes `(N/100)`. A percent sign with no run before
it stays, for the reader of tokens to refuse.

The two glyphs of the keypad are replaced first (`RunningTab.Expr.plainGlyphs`).
-/

namespace RunningTab.Expr

open Decimal (isPlainNumeral)

/-! ### Keypad glyphs -/

/-- The operator that a keypad glyph stands for; other characters stand for themselves. -/
def plainGlyph (c : Char) : Char :=
  if c = 'x' then '*' else if c = '÷' then '/' else c

/-- The text with its keypad glyphs replaced. -/
def plainGlyphs (t : Text) : Text :=
  t.map plainGlyph

/-! ### Writing percents out -/

/-- The pieces of `(n/100)`. -/
def hundredth (n : Text) : List Piece :=
  [.mark '(', .run n, .mark '/', .run "100".toList, .mark ')']

/-- The pieces of `a±(a*(b/100))`. -/
def shareOf (a : Text) (sign : Char) (b : Text) : List Piece :=
  [.run a, .mark sign, .mark '(', .run a, .mark '*'] ++ hundredth b ++ [.mark ')']

/-- Whether `a`, a sign, `b` and a last character add a percentage of `a` to it or take
it off. -/
def isShare (a : Text) (sign : Char) (b : Text) (last : Char) : Bool :=
  last == '%' && (sign == '+' || sign == '-') && isPlainNumeral a && isPlainNumeral b

/-- The pieces with their percents written out, left to right; what is written out is not
looked at again. -/
def writeOutPercents : List Piece → List Piece
  | [] => []
  | .mark c :: ps => .mark c :: writeOutPercents ps
  | .run a :: .mark s :: .run b :: .mark l :: ps =>
    if isShare a s b l then shareOf a s b ++ writeOutPercents ps
    else if s = '%' then hundredth a ++ writeOutPercents (.run b :: .mark l :: ps)
    else .run a :: .mark s :: writeOutPercents (.run b :: .mark l :: ps)
  | .run a :: .mark s :: ps =>
    if s = '%' then hundredth a ++ writeOutPercents ps
    else .run a :: .mark s :: writeOutPercents ps
  | .run a :: ps => .run a :: writeOutPercents ps

/-- **The text with its percents written out.** -/
def expandPercents (t : Text) : Text :=
  join (writeOutPercents (pieces t))

end RunningTab.Expr
