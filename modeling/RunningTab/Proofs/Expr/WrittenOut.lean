import RunningTab.Proofs.Expr.Refusal

/-!
# Percents written out for good

Writing percents out leaves none over that it could have written out, and makes no new ones: the
text that it gives is a text on which it does nothing (`RunningTab.Expr.expandPercents_stable`).
Neither goes without saying. The pass looks ahead over two numerals and falls back to copying the
first of them alone, and what it has written is never looked at again, so that what stands at the
seam of written and copied text might have become a percent.

The texts on which the pass does nothing are those in which no run has a percent sign behind it
(`RunningTab.Expr.Spent`). What is written for a percent ends with a parenthesis, so a percent sign
behind it, as in `5%%`, stays without a run; and the sign of a percent that is written out is gone.
The percent signs that are left are therefore just those of the text that had no figure before them
(`RunningTab.Expr.loosePercents`), and none of them has got one.
-/

namespace RunningTab.Expr

open Decimal (isFigure)

/-! ### The percent signs that are left -/

/-- **The loose percent signs of a text**: those with no digit and no dot directly before them. The
first argument tells whether one stands directly before the text. -/
def loosePercents : Bool → Text → Nat
  | _, [] => 0
  | afterFigure, c :: t =>
    (if c = '%' ∧ afterFigure = false then 1 else 0) + loosePercents (isFigure c) t

/-- Behind a run a percent sign is not loose. -/
theorem loosePercents_run (afterFigure : Bool) {r : Text} (hne : r ≠ [])
    (hr : ∀ c ∈ r, isFigure c = true) (t : Text) :
    loosePercents afterFigure (r ++ t) = loosePercents true t := by
  induction r generalizing afterFigure with
  | nil => exact absurd rfl hne
  | cons c r ih =>
    have hc : isFigure c = true := hr c List.mem_cons_self
    have hpercent : c ≠ '%' := by rintro rfl; exact absurd hc (by decide)
    rw [List.cons_append, loosePercents, if_neg fun h => hpercent h.1, hc, Nat.zero_add]
    cases r with
    | nil => rfl
    | cons d r => exact ih true (by simp) fun e he => hr e (List.mem_cons_of_mem c he)

theorem loosePercents_join_run {r : Text} (hne : r ≠ []) (hr : ∀ c ∈ r, isFigure c = true)
    (ps : List Piece) :
    loosePercents false (join (.run r :: ps)) = loosePercents true (join ps) :=
  loosePercents_run false hne hr (join ps)

theorem loosePercents_join_mark (afterRun : Bool) {c : Char} (hc : isFigure c = false)
    (ps : List Piece) :
    loosePercents afterRun (join (.mark c :: ps)) =
      (if c = '%' ∧ afterRun = false then 1 else 0) + loosePercents false (join ps) := by
  change _ + loosePercents (isFigure c) (join ps) = _
  rw [hc]

/-- Figures are no percent signs. -/
theorem count_percent_of_isFigure {r : Text} (hr : ∀ c ∈ r, isFigure c = true) :
    r.count '%' = 0 :=
  List.count_eq_zero.2 fun h => absurd (hr _ h) (by decide)

theorem count_join_run {r : Text} (hr : ∀ c ∈ r, isFigure c = true) (ps : List Piece) :
    (join (.run r :: ps)).count '%' = (join ps).count '%' := by
  change (r ++ join ps).count '%' = _
  rw [List.count_append, count_percent_of_isFigure hr, Nat.zero_add]

theorem count_join_mark (c : Char) (ps : List Piece) :
    (join (.mark c :: ps)).count '%' = (if c = '%' then 1 else 0) + (join ps).count '%' := by
  change (c :: join ps).count '%' = _
  rw [List.count_cons, Nat.add_comm]
  simp

/-- What stands behind is made of figures. -/
def Behind.OfFigures : Behind → Prop
  | .other => True
  | .run a | .sign a => ∀ c ∈ a, isFigure c = true

theorem Behind.OfFigures.past {k : Behind} (h : k.OfFigures) (c : Char) : (k.past c).OfFigures := by
  cases k with
  | other => trivial
  | sign a => trivial
  | run a =>
    rw [Behind.past]
    split
    · exact h
    · trivial

/-- What is written for a percent has no percent sign. -/
theorem count_join_percent {k : Behind} {b : Text} (hk : k.OfFigures)
    (hb : ∀ c ∈ b, isFigure c = true) (ps : List Piece) :
    (join (k.percent b ++ ps)).count '%' = (join ps).count '%' := by
  have hhundredth : (join (hundredth b ++ ps)).count '%' = (join ps).count '%' := by
    simp [hundredth, join, Piece.text, count_percent_of_isFigure hb]
  cases k with
  | other => exact hhundredth
  | run a => exact hhundredth
  | sign a =>
    rw [Behind.percent]
    split
    · simp [share, hundredth, join, Piece.text, count_percent_of_isFigure hb,
        count_percent_of_isFigure hk]
    · exact hhundredth

/-- **The percent signs that are left are the loose ones.** -/
theorem count_join_sweep {k : Behind} (hk : k.OfFigures) {ps : List Piece} (h : Apart ps) :
    (join (sweep k ps)).count '%' = loosePercents false (join ps) := by
  fun_induction sweep k ps with
  | case1 => rfl
  | case2 k c ps ih =>
    rw [count_join_mark, ih (hk.past c) h.2, loosePercents_join_mark false h.1]
    simp
  | case3 k b ps ih =>
    obtain ⟨hb, hbf, -, -, hps⟩ := h
    rw [count_join_percent hk hbf, ih trivial hps, loosePercents_join_run hb hbf,
      loosePercents_join_mark true (by decide)]
    simp
  | case4 k b c ps hc ih =>
    obtain ⟨hb, hbf, -, hcf, hps⟩ := h
    have hpast : (Behind.past (.run b) c).OfFigures := Behind.OfFigures.past (k := .run b) hbf c
    rw [count_join_run hbf, count_join_mark, ih hpast hps, loosePercents_join_run hb hbf,
      loosePercents_join_mark true hcf, if_neg hc, if_neg fun hand => hc hand.1]
  | case5 k b ps hmark ih =>
    obtain rfl := h.eq_nil_of_run hmark
    obtain ⟨hb, hbf, -, -⟩ := h
    rw [count_join_run hbf, loosePercents_join_run hb hbf]
    rfl

/-- One character more does not make up for percent signs that are not loose. -/
theorem loosePercents_cons_le (afterFigure : Bool) (c : Char) {t : Text} (n : Nat)
    (h : loosePercents (isFigure c) t + n ≤ t.count '%') :
    loosePercents afterFigure (c :: t) + n ≤ (c :: t).count '%' := by
  rw [loosePercents, List.count_cons]
  by_cases hc : c = '%'
  · rw [if_pos (beq_iff_eq.2 hc)]
    split <;> omega
  · rw [if_neg fun hand => hc hand.1]
    omega

theorem loosePercents_le_count (afterFigure : Bool) (t : Text) :
    loosePercents afterFigure t ≤ t.count '%' := by
  induction t generalizing afterFigure with
  | nil => exact Nat.le_refl 0
  | cons c t ih => exact loosePercents_cons_le afterFigure c 0 (ih _)

/-- A percent sign behind a figure is not loose. -/
theorem loosePercents_lt_count (afterFigure : Bool) {c : Char} (hc : isFigure c = true)
    (before behind : Text) :
    loosePercents afterFigure (before ++ c :: '%' :: behind) <
      (before ++ c :: '%' :: behind).count '%' := by
  rw [Nat.lt_iff_add_one_le]
  induction before generalizing afterFigure with
  | nil =>
    refine loosePercents_cons_le afterFigure c 1 ?_
    have hpercent : loosePercents true ('%' :: behind) = loosePercents false behind :=
      Nat.zero_add _
    rw [hc, hpercent, List.count_cons_self]
    exact Nat.add_le_add_right (loosePercents_le_count false behind) 1
  | cons d before ih => exact loosePercents_cons_le afterFigure d 1 (ih (isFigure d))

/-! ### Keypad glyphs -/

/-- A character that no keypad glyph stands for, and that is none itself, stays what it is. -/
theorem plainGlyph_eq_iff (c : Char) {d : Char} (hd : d ∉ "*/x÷".toList) :
    plainGlyph c = d ↔ c = d := by
  have hne : ∀ e ∈ "*/x÷".toList, e ≠ d := fun e he hed => hd (hed ▸ he)
  unfold plainGlyph
  split
  · next hx => exact iff_of_false (hne '*' (by decide)) (hx ▸ hne 'x' (by decide))
  · split
    · next hdiv => exact iff_of_false (hne '/' (by decide)) (hdiv ▸ hne '÷' (by decide))
    · exact Iff.rfl

theorem Behind.past_plainGlyph (k : Behind) (c : Char) : k.past (plainGlyph c) = k.past c := by
  cases k with
  | run a => simp only [Behind.past, plainGlyph_eq_iff c (d := '+') (by decide),
      plainGlyph_eq_iff c (d := '-') (by decide)]
  | _ => rfl

/-- What is written for a percent has no keypad glyphs. -/
theorem map_plain_percent (k : Behind) (b : Text) :
    (k.percent b).map Piece.plain = k.percent b := by
  cases k with
  | sign a =>
    rw [Behind.percent]
    split <;> rfl
  | _ => rfl

/-- **Replacing keypad glyphs and writing percents out do not disturb each other.** -/
theorem sweep_map_plain (k : Behind) (ps : List Piece) :
    sweep k (ps.map Piece.plain) = (sweep k ps).map Piece.plain := by
  fun_induction sweep k ps with
  | case1 => rfl
  | case2 k c ps ih =>
    rw [List.map_cons, List.map_cons, Piece.plain, sweep_mark, k.past_plainGlyph, ih]
  | case3 k b ps ih =>
    have hpercent : plainGlyph '%' = '%' := by decide
    rw [List.map_cons, List.map_cons, Piece.plain, Piece.plain, hpercent, sweep_percent, ih,
      List.map_append, map_plain_percent]
  | case4 k b c ps hc ih =>
    have hnext : ∀ qs, .mark (plainGlyph c) :: ps.map Piece.plain ≠ .mark '%' :: qs := by
      intro qs hqs
      have hglyph : plainGlyph c = '%' := by simpa using (List.cons.inj hqs).1
      exact hc ((plainGlyph_eq_iff c (by decide)).1 hglyph)
    simp only [List.map_cons, Piece.plain]
    rw [sweep_run k b hnext, sweep_mark, Behind.past_plainGlyph, ih]
  | case5 k b ps hmark ih =>
    have hnext : ∀ qs, ps.map Piece.plain ≠ .mark '%' :: qs := by
      intro qs hqs
      obtain ⟨p, rest, rfl, hp, -⟩ := List.map_eq_cons_iff.1 hqs
      cases p with
      | run r => exact absurd hp (by simp [Piece.plain])
      | mark c => exact hmark c rest rfl
    rw [List.map_cons, List.map_cons, Piece.plain, sweep_run k b hnext, ih]

/-- Figures are no keypad glyphs, so the glyphs of a text are those of its marks. -/
theorem join_map_plain {ps : List Piece} (h : Apart ps) :
    join (ps.map Piece.plain) = plainGlyphs (join ps) := by
  induction ps with
  | nil => rfl
  | cons p ps ih =>
    cases p with
    | mark c =>
      change plainGlyph c :: join (ps.map Piece.plain) = plainGlyphs (c :: join ps)
      rw [ih h.2, plainGlyphs_cons]
    | run r =>
      change r ++ join (ps.map Piece.plain) = plainGlyphs (r ++ join ps)
      rw [ih h.2.2.2, plainGlyphs_append, plainGlyphs_of_isFigure h.2.1]

/-! ### The text with its percents written out -/

theorem expandPercents_eq (t : Text) : expandPercents t = join (sweep .other (pieces t)) := by
  rw [expandPercents, writeOutPercents_eq_sweep]

/-- **Percents are written out for good.** In the text with its percents written out no percent sign
stands directly behind a digit or a dot; there are just as many as the text has that do not stand
there; writing percents out once more changes nothing; and keypad glyphs may be replaced before or
after. -/
theorem expandPercents_stable (t : Text) :
    (∀ before c behind, expandPercents t = before ++ c :: '%' :: behind → isFigure c = false) ∧
      (expandPercents t).count '%' = loosePercents false t ∧
      expandPercents (expandPercents t) = expandPercents t ∧
      expandPercents (plainGlyphs t) = plainGlyphs (expandPercents t) := by
  have hcount : ∀ u, (expandPercents u).count '%' = loosePercents false u := by
    intro u
    rw [expandPercents_eq, count_join_sweep (k := .other) trivial (apart_pieces u), join_pieces]
  have hagain : expandPercents (expandPercents t) = expandPercents t := by
    have hspent : Spent false (sweep .other (pieces t)) := spent_sweep .other (apart_pieces t)
    rw [expandPercents_eq (expandPercents t), pieces_expandPercents, writeOutPercents_eq_sweep,
      sweep_of_spent .other hspent, expandPercents_eq]
  refine ⟨fun before c behind hsplit => ?_, hcount t, hagain, ?_⟩
  · -- all percent signs are loose, for the second time none is taken away
    have hloose := hcount (expandPercents t)
    rw [hagain, hsplit] at hloose
    refine Bool.eq_false_iff.2 fun hc => ?_
    exact absurd hloose.symm (Nat.ne_of_lt (loosePercents_lt_count false hc before behind))
  · have hapart : Apart (sweep .other (pieces t)) := by
      rw [← writeOutPercents_eq_sweep]
      exact apart_writeOutPercents (apart_pieces t)
    rw [expandPercents_eq, expandPercents_eq, pieces_plainGlyphs, sweep_map_plain,
      join_map_plain hapart]

-- the second percent sign has no figure before it, and there is nothing to write out behind it
example : expandPercents "2x5%%".toList = "2x(5/100)%".toList := rfl

end RunningTab.Expr
