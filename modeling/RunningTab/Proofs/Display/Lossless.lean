import RunningTab.Display.Highlight
import RunningTab.Display.Wrap
import RunningTab.Proofs.Display.Spacing
import RunningTab.Proofs.Text.Clusters

/-!
# The characters of an expression on the screen

On its way to the screen an expression goes through three passes: it is spaced out, wrapped to the
width of the list and coloured. Each of them has buffers of its own – the words of a line, the
clusters of a word that is too wide, the figures of a numeral – and none of them loses a character.
Colouring keeps the text as it is (`RunningTab.Display.plainText_highlight`), wrapping keeps all of
it but blanks (`RunningTab.Display.solid_wrap`), and so does spacing out.
-/

namespace RunningTab

namespace Text

variable {t : Text}

/-! ### Texts with spaces between them -/

theorem solid_spaced (ws : List Text) : solid (spaced ws) = solid ws.flatten := by
  induction ws with
  | nil => rfl
  | cons w ws ih =>
    by_cases hws : ws = []
    · rw [hws, spaced, List.intercalate_singleton, List.flatten_singleton]
    · rw [spaced_cons w hws, solid_append, solid_cons_of_blank (by decide), ih, ← solid_append,
        List.flatten_cons]

theorem solid_flatten_words (t : Text) : solid (words t).flatten = solid t := by
  rw [← solid_spaced, solid_spaced_words]

end Text

namespace Display

open Text (solid spaced words)

variable {width : Nat}

/-! ### Wrapping -/

theorem cutAfter_append (width taken : Nat) (gs : List Text) :
    (cutAfter width taken gs).1 ++ (cutAfter width taken gs).2.flatten = gs.flatten := by
  induction gs generalizing taken with
  | nil => rfl
  | cons g gs ih =>
    rw [cutAfter]
    split
    · rw [List.nil_append, List.flatten_cons, List.append_assoc, ih, List.flatten_cons]
    · rw [List.append_assoc, ih, List.flatten_cons]

/-- **The pieces of a word make it up.** -/
theorem flatten_cutWord (width : Nat) (word : Text) : (cutWord width word).flatten = word := by
  have happend := cutAfter_append width 0 (Text.clusters word)
  rw [Text.flatten_clusters] at happend
  rw [cutWord]
  split
  · next hnone => rw [← happend, hnone.1, hnone.2]; rfl
  · rw [List.flatten_cons, happend]

/-- The words of the line that is being filled come first, and then the words that are left. -/
theorem solid_wrapAfter (width : Nat) (line : List Text) (taken : Nat) (ws : List Text) :
    solid (wrapAfter width line taken ws).flatten = solid line.flatten ++ solid ws.flatten := by
  fun_induction wrapAfter width line taken ws with
  | case1 => rfl
  | case2 line taken hline =>
    rw [List.flatten_singleton, Text.solid_spaced, List.flatten_nil]
    exact (List.append_nil _).symm
  | case3 line taken word rest columns hwide ih =>
    have hline : solid (if line = [] then [] else [spaced line]).flatten = solid line.flatten := by
      split
      · next hnil => rw [hnil]
      · rw [List.flatten_singleton, Text.solid_spaced]
    rw [List.flatten_append, List.flatten_append, Text.solid_append, Text.solid_append, ih, hline,
      flatten_cutWord, List.flatten_cons, Text.solid_append word, List.append_assoc]
    rfl
  | case4 taken word rest columns hwide ih =>
    rw [ih, List.flatten_singleton, List.flatten_cons, Text.solid_append]
    rfl
  | case5 line taken word rest columns hwide hline hfull ih =>
    rw [List.flatten_cons, Text.solid_append, ih, Text.solid_spaced, List.flatten_singleton,
      List.flatten_cons, Text.solid_append word]
  | case6 line taken word rest columns hwide hline hroom ih =>
    rw [ih, List.flatten_append, List.flatten_singleton, Text.solid_append, List.flatten_cons,
      Text.solid_append word, List.append_assoc]

/-- **Wrapping keeps all characters but blanks**, whatever is too wide for a line. -/
theorem solid_wrap (hwidth : 0 < width) (t : Text) : solid (wrap width t).flatten = solid t := by
  rw [wrap, if_neg (Nat.ne_of_gt hwidth), solid_wrapAfter, Text.solid_flatten_words]
  rfl

/-! ### Colouring -/

theorem text_pieceSpan (base : Screen.Style) (p : Expr.Piece) :
    (pieceSpan base p).text = p.text := by
  cases p with
  | run r => rfl
  | mark c =>
    rw [pieceSpan, markSpan]
    split_ifs <;> rfl

/-- **Colouring keeps the text.** -/
theorem plainText_highlight (base : Screen.Style) (t : Text) :
    Screen.plainText (highlight base t) = t := by
  rw [Screen.plainText, highlight, List.flatMap_map,
    List.flatMap_congr fun p _ => text_pieceSpan base p]
  exact Expr.join_pieces t

/-! ### The three passes -/

/-- **All characters but blanks reach the screen**, each of them once and in their order. -/
theorem solid_rows (hwidth : 0 < width) (base : Screen.Style) (t : Text) :
    solid ((wrap width (spaceOut t)).flatMap fun row => Screen.plainText (highlight base row)) =
      solid t := by
  rw [List.flatMap_congr fun row _ => plainText_highlight base row, List.flatMap_id',
    solid_wrap hwidth, solid_spaceOut]

/-- **Spacing out once more changes nothing**: the blanks of the text play no part in it. -/
theorem spaceOut_spaceOut (t : Text) : spaceOut (spaceOut t) = spaceOut t :=
  congrArg (fun u => spaced (words (spreadOperators none u))) (solid_spaceOut t)

end Display

end RunningTab
