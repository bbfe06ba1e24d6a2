import RunningTab.Proofs.Display.Lossless
import RunningTab.Proofs.Expr.WrittenOut

/-!
# Minus signs on the screen and in the tokens

A minus sign has two readings, and two passes decide between them, each for itself. Spacing out
looks at the character before the sign, blanks left out, and sets it apart if that is neither an
opening parenthesis nor an operator. The reader of tokens looks at the token before it – of a text
that has other operators where the keypad has glyphs, numerals in one piece, and parentheses and
further numerals where there were percents.

Between the two stand the pieces of the text. Of what stands before a sign nothing counts but
whether an operand is due, and that a run and all that is written out for a percent leave behind
them alike: it is not (`RunningTab.Expr.minusSigns_sweep`). So the tokens and the characters tell
the same of every minus sign (`RunningTab.Display.expression_shown`).
-/

namespace RunningTab

open Decimal (isFigure)
open Display (operandDue)
open Text (isBlank solid)

namespace Expr

variable {due : Bool} {c : Char} {ps : List Piece} {ts : List Token}

/-- Whether a token is a binary minus sign; nothing is told of tokens that are no minus signs. -/
def Token.binaryMinus? : Token → Option Bool
  | .operator .sub => some true
  | .operator .neg => some false
  | _ => none

/-! ### The minus signs of pieces -/

/-- The minus signs among pieces, each by whether it is a binary one; `due` tells whether an operand
is due before the first of them. -/
def minusSigns : (due : Bool) → List Piece → List Bool
  | _, [] => []
  | _, .run _ :: ps => minusSigns false ps
  | due, .mark c :: ps =>
    if isBlank c then minusSigns due ps
    else (if c = '-' then [!due] else []) ++ minusSigns (operandDue (some c)) ps

/-- What a character is read as tells the same as the character itself. -/
theorem markToken?_eq_some {t : Token} (h : markToken? due c = some t) :
    t.beforeOperand = operandDue (some c) ∧
      t.binaryMinus? = if c = '-' then some !due else none := by
  unfold markToken? at h
  split_ifs at h with hopening hclosing hadd hmul hdiv hsub hdue <;> cases h
  · subst hopening; exact ⟨rfl, rfl⟩
  · subst hclosing; exact ⟨rfl, rfl⟩
  · subst hadd; exact ⟨rfl, rfl⟩
  · subst hmul; exact ⟨rfl, rfl⟩
  · subst hdiv; exact ⟨rfl, rfl⟩
  · subst hsub hdue; exact ⟨rfl, rfl⟩
  · subst hsub; rw [Bool.eq_false_iff.2 hdue]; exact ⟨rfl, rfl⟩

/-- **The tokens have the minus signs of the pieces** that they are read off. -/
theorem binaryMinus_of_readTokens (h : readTokens due ps = .ok ts) :
    ts.filterMap Token.binaryMinus? = minusSigns due ps := by
  induction ps generalizing due ts with
  | nil => cases h; rfl
  | cons p ps ih =>
    cases p with
    | run r =>
      rw [readTokens] at h
      split at h
      · cases h
      · obtain ⟨us, hus⟩ := exists_ok_of_map h
        rw [hus] at h
        cases h
        rw [minusSigns, ← ih hus]
        rfl
    | mark c =>
      rw [readTokens] at h
      rw [minusSigns]
      split at h
      · next hblank => rw [if_pos hblank, ih h]
      · next hblank =>
        rw [if_neg hblank]
        split at h
        · cases h
        · next t htoken =>
          obtain ⟨hdue, hminus⟩ := markToken?_eq_some htoken
          obtain ⟨us, hus⟩ := exists_ok_of_map h
          rw [hus] at h
          cases h
          by_cases hsign : c = '-'
          · rw [if_pos hsign] at hminus ⊢
            rw [List.filterMap_cons_some hminus, ih hus, hdue]
            rfl
          · rw [if_neg hsign] at hminus ⊢
            rw [List.filterMap_cons_none hminus, ih hus, hdue]
            rfl

/-! ### Percents written out -/

/-- No operand is due behind what is written out for a percent, and there are no minus signs in
it. -/
theorem minusSigns_percent (due : Bool) (k : Behind) (b : Text) (ps : List Piece) :
    minusSigns due (k.percent b ++ ps) = minusSigns false ps := by
  have hhundredth (due : Bool) : minusSigns due (hundredth b ++ ps) = minusSigns false ps := rfl
  cases k with
  | sign a =>
    rw [Behind.percent]
    split
    · rfl
    · exact hhundredth due
  | other => exact hhundredth due
  | run a => exact hhundredth due

/-- **Writing percents out leaves the minus signs as they are.** -/
theorem minusSigns_sweep (due : Bool) (k : Behind) (ps : List Piece) :
    minusSigns due (sweep k ps) = minusSigns due ps := by
  fun_induction sweep k ps generalizing due with
  | case1 => rfl
  | case2 k c ps ih => rw [minusSigns, minusSigns, ih, ih]
  | case3 k b ps ih => rw [minusSigns_percent, ih]; rfl
  | case4 k b c ps hc ih => rw [minusSigns, minusSigns, minusSigns, minusSigns, ih, ih]
  | case5 k b ps hmark ih => rw [minusSigns, minusSigns, ih]

/-! ### The pieces of a text -/

theorem minusSigns_pieces_of_figure (hc : isFigure c = true) (due : Bool) (t : Text) :
    minusSigns due (pieces (c :: t)) = minusSigns false (pieces t) := by
  cases hrun : startsWithRun (pieces t) with
  | false => rw [pieces_cons_of_figure hc hrun]; rfl
  | true =>
    rcases hpieces : pieces t with _ | ⟨⟨r⟩ | ⟨d⟩, ps⟩
    · rw [hpieces] at hrun; cases hrun
    · rw [pieces_cons_of_run hc hpieces]; rfl
    · rw [hpieces] at hrun; cases hrun

/-- A keypad glyph is an operator, and so is what it stands for. -/
theorem operandDue_plainGlyph (c : Char) :
    operandDue (some (plainGlyph c)) = operandDue (some c) := by
  unfold plainGlyph
  split
  · next hx => rw [hx]; rfl
  · split
    · next hdiv => rw [hdiv]; rfl
    · rfl

end Expr

namespace Display

open RunningTab.Expr (Token minusSigns pieces plainGlyph plainGlyphs plainText tokensOf)
open Text (spaced words)

variable {width : Nat} {t : Text} {ts : List Token}

/-! ### The minus signs of a text -/

/-- **The layout of a text without blanks**: its characters, each with whether it is set apart as a
binary operator. -/
def layout : (before : Option Char) → Text → List (Char × Bool)
  | _, [] => []
  | before, c :: t => (c, isBinary before c) :: layout (some c) t

/-- A character as it is laid out. -/
def laidOut : Char × Bool → Text
  | (c, true) => [' ', c, ' ']
  | (c, false) => [c]

/-- Whether a character of a layout is a minus sign that is set apart; nothing is told of other
characters. -/
def minusApart? : Char × Bool → Option Bool
  | (c, apart) => if c = '-' then some apart else none

theorem map_fst_layout (before : Option Char) (t : Text) :
    (layout before t).map Prod.fst = t := by
  induction t generalizing before with
  | nil => rfl
  | cons c t ih => rw [layout, List.map_cons, ih]

theorem spreadOperators_eq (before : Option Char) (t : Text) :
    spreadOperators before t = (layout before t).flatMap laidOut := by
  induction t generalizing before with
  | nil => rfl
  | cons c t ih =>
    rw [spreadOperators, layout, List.flatMap_cons, ih]
    cases isBinary before c <;> rfl

/-- **The layout has the minus signs of the pieces**, with the keypad glyphs replaced and wherever
blanks are. -/
theorem minusApart_layout (before : Option Char) (t : Text) :
    (layout before (solid t)).filterMap minusApart? =
      minusSigns (operandDue before) (pieces (plainGlyphs t)) := by
  induction t generalizing before with
  | nil => rfl
  | cons c t ih =>
    change _ = minusSigns _ (pieces (plainGlyph c :: plainGlyphs t))
    cases hblank : isBlank c with
    | true =>
      have hfigure : isFigure (plainGlyph c) = false := by
        rw [Expr.isFigure_plainGlyph, Expr.isFigure_of_isBlank hblank]
      rw [Text.solid_cons_of_blank hblank, Expr.pieces_cons_of_mark hfigure, minusSigns,
        Expr.isBlank_plainGlyph, if_pos hblank, ih]
    | false =>
      rw [Text.solid_cons_of_not_blank hblank, layout, List.filterMap_cons, ih]
      cases hfigure : isFigure c with
      | true =>
        have hminus : c ≠ '-' := by rintro rfl; exact absurd hfigure (by decide)
        rw [Expr.minusSigns_pieces_of_figure (by rw [Expr.isFigure_plainGlyph, hfigure]),
          minusApart?, if_neg hminus, operandDue_of_isFigure hfigure]
      | false =>
        rw [Expr.pieces_cons_of_mark (by rw [Expr.isFigure_plainGlyph, hfigure]), minusSigns,
          Expr.isBlank_plainGlyph, hblank, Expr.operandDue_plainGlyph, minusApart?]
        simp only [Expr.plainGlyph_eq_iff c (d := '-') (by decide)]
        by_cases hminus : c = '-'
        · rw [if_pos hminus, if_pos hminus, hminus]
          rfl
        · rw [if_neg hminus, if_neg hminus]
          rfl

/-- **An expression is shown with all its characters, and with its minus signs as they are read.**
In whatever width and style it is shown, the rows have the characters of the expression in their
order, blanks left out; spacing out once more changes nothing. What the spaces are put around is
told by the layout of the characters, and if the expression has tokens, a minus sign is set apart in
it exactly if the token of the sign is the binary operator. -/
theorem expression_shown (hwidth : 0 < width) (base : Screen.Style) (t : Text) :
    solid ((wrap width (spaceOut t)).flatMap fun row => Screen.plainText (highlight base row)) =
        solid t ∧
      spaceOut (spaceOut t) = spaceOut t ∧
      (layout none (solid t)).map Prod.fst = solid t ∧
      spaceOut t = spaced (words ((layout none (solid t)).flatMap laidOut)) ∧
      ∀ ts, tokensOf (plainText t) = .ok ts →
        (layout none (solid t)).filterMap minusApart? = ts.filterMap Token.binaryMinus? := by
  refine ⟨solid_rows hwidth base t, spaceOut_spaceOut t, map_fst_layout none _,
    congrArg (fun u => spaced (words u)) (spreadOperators_eq none (solid t)), fun ts hts => ?_⟩
  rw [Expr.tokensOf_plainText] at hts
  rw [Expr.binaryMinus_of_readTokens hts, Expr.minusSigns_sweep]
  exact minusApart_layout none t

/-- In three columns, with keypad glyphs, a share and four minus signs: the words that are too wide
are cut, and only the sign of the share is set apart. -/
theorem expression_shown_narrow :
    let t := "1000 x-(-5-3%)÷ - 4".toList
    let rows := wrap 3 (spaceOut t)
    rows = ["100", "0", "x", "-(-", "5", "-", "3%)", "÷", "-4"].map String.toList ∧
      solid (rows.flatMap fun row => Screen.plainText (highlight .plain row)) =
        "1000x-(-5-3%)÷-4".toList ∧
      ∃ ts, tokensOf (plainText t) = .ok ts ∧
        ts.filterMap Token.binaryMinus? = [false, false, true, false] := by
  intro t rows
  obtain ⟨hrows, -, -, -, hsigns⟩ := expression_shown (by decide : 0 < 3) .plain t
  obtain ⟨ts, hts⟩ : ∃ ts, tokensOf (plainText t) = .ok ts := ⟨_, by rfl⟩
  refine ⟨by decide +kernel, hrows, ts, hts, ?_⟩
  rw [← hsigns ts hts]
  decide

end Display

end RunningTab
