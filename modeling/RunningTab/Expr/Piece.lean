import RunningTab.Decimal.Numeral

/-!
# Pieces of an expression's text

A text falls apart, in one way only, into maximal runs of digits and dots and single
other characters (`RunningTab.Expr.pieces`). Percents and tokens are both read off the
pieces, so a rule that speaks of a numeral and of what follows it is a pattern on a
list. Joining the pieces gives the text back (`RunningTab.Expr.join_pieces`).
-/

namespace RunningTab.Expr

open Decimal (isFigure)

/-- A piece of a text. -/
inductive Piece where
  /-- A run of digits and dots. -/
  | run (chars : Text)
  /-- Any other character. -/
  | mark (c : Char)
  deriving DecidableEq, Repr

/-- The characters of a piece. -/
def Piece.text : Piece → Text
  | run chars => chars
  | mark c => [c]

/-- The text that the pieces make up. -/
def join (ps : List Piece) : Text :=
  ps.flatMap Piece.text

/-- The pieces of a text: a run never stands next to a run. -/
def pieces : Text → List Piece
  | [] => []
  | c :: cs =>
    if isFigure c then
      match pieces cs with
      | .run r :: ps => .run (c :: r) :: ps
      | ps => .run [c] :: ps
    else .mark c :: pieces cs

/-- Joining the pieces of a text gives the text back. -/
theorem join_pieces (t : Text) : join (pieces t) = t := by
  induction t with
  | nil => rfl
  | cons c cs ih =>
    unfold pieces
    split
    · split <;> simp_all [join, Piece.text]
    · simp_all [join, Piece.text]

end RunningTab.Expr
