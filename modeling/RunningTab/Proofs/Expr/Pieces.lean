import RunningTab.Expr.Percent

/-!
# Lists of pieces that come from a text

Which lists of pieces a text falls apart into: those where runs are made of figures, marks are no
figures and a run never stands next to a run (`RunningTab.Expr.Apart`). On them joining and cutting
are inverse to each other (`RunningTab.Expr.pieces_join`), and writing percents out does not lead
out of them (`RunningTab.Expr.apart_writeOutPercents`), so that the text with its percents written
out falls apart into just the pieces that were written (`RunningTab.Expr.pieces_expandPercents`).
-/

namespace RunningTab.Expr

open Decimal (isFigure isPlainNumeral)

/-! ### Cutting a text at its front -/

/-- Whether the first piece is a run. -/
def startsWithRun : List Piece → Bool
  | .run _ :: _ => true
  | _ => false

theorem pieces_cons_of_figure {c : Char} {t : Text} (hc : isFigure c = true)
    (ht : startsWithRun (pieces t) = false) : pieces (c :: t) = .run [c] :: pieces t := by
  rw [pieces, if_pos hc]
  split
  · next h =>
    rw [h] at ht
    exact absurd ht (by simp [startsWithRun])
  · rfl

theorem pieces_cons_of_run {c : Char} {t r : Text} {ps : List Piece} (hc : isFigure c = true)
    (ht : pieces t = .run r :: ps) : pieces (c :: t) = .run (c :: r) :: ps := by
  rw [pieces, if_pos hc, ht]

@[simp] theorem pieces_cons_of_mark {c : Char} {t : Text} (hc : isFigure c = false) :
    pieces (c :: t) = .mark c :: pieces t := by
  rw [pieces, hc]
  rfl

/-- A run of figures is cut off in one piece if no figure follows. -/
theorem pieces_run_append {r t : Text} (hne : r ≠ []) (hr : ∀ c ∈ r, isFigure c = true)
    (ht : startsWithRun (pieces t) = false) : pieces (r ++ t) = .run r :: pieces t := by
  induction r with
  | nil => exact absurd rfl hne
  | cons c r ih =>
    have hc : isFigure c = true := hr c (by simp)
    rcases r with _ | ⟨d, r⟩
    · exact pieces_cons_of_figure hc ht
    · have hrest := ih (by simp) fun e he => hr e (List.mem_cons_of_mem c he)
      exact pieces_cons_of_run hc hrest

/-- Two texts are cut apart where no run goes on from the one to the other. -/
theorem pieces_append {t u : Text} (hu : startsWithRun (pieces u) = false) :
    pieces (t ++ u) = pieces t ++ pieces u := by
  induction t with
  | nil => rfl
  | cons c t ih =>
    rw [List.cons_append]
    cases hc : isFigure c with
    | false => rw [pieces_cons_of_mark hc, ih, pieces_cons_of_mark hc, List.cons_append]
    | true =>
      -- what the figure does depends on the first piece behind it, in one text or in both
      rcases hp : pieces t with _ | ⟨⟨r⟩ | ⟨d⟩, ps⟩
      · rw [hp, List.nil_append] at ih
        rw [pieces_cons_of_figure hc (by rw [ih]; exact hu), ih,
          pieces_cons_of_figure hc (by rw [hp]; rfl), hp, List.singleton_append]
      · rw [hp, List.cons_append] at ih
        rw [pieces_cons_of_run hc ih, pieces_cons_of_run hc hp, List.cons_append]
      · rw [hp, List.cons_append] at ih
        rw [pieces_cons_of_figure hc (by rw [ih]; rfl), ih,
          pieces_cons_of_figure hc (by rw [hp]; rfl), hp, List.cons_append, List.cons_append]

/-! ### Pieces that stand apart -/

/-- **The lists of pieces that come from a text**: runs are not empty and made of figures, marks are
no figures, and no run stands next to a run. -/
def Apart : List Piece → Prop
  | [] => True
  | .mark c :: ps => isFigure c = false ∧ Apart ps
  | .run r :: ps => r ≠ [] ∧ (∀ c ∈ r, isFigure c = true) ∧ startsWithRun ps = false ∧ Apart ps

/-- **Cutting undoes joining.** -/
theorem pieces_join {ps : List Piece} (h : Apart ps) : pieces (join ps) = ps := by
  induction ps with
  | nil => rfl
  | cons p ps ih =>
    cases p with
    | mark c =>
      obtain ⟨hc, hps⟩ := h
      change pieces (c :: join ps) = _
      rw [pieces_cons_of_mark hc, ih hps]
    | run r =>
      obtain ⟨hne, hr, hstart, hps⟩ := h
      change pieces (r ++ join ps) = _
      rw [pieces_run_append hne hr (by rw [ih hps]; exact hstart), ih hps]

/-- The pieces of a text stand apart. -/
theorem apart_pieces (t : Text) : Apart (pieces t) := by
  induction t with
  | nil => trivial
  | cons c t ih =>
    cases hc : isFigure c with
    | false =>
      rw [pieces_cons_of_mark hc]
      exact ⟨hc, ih⟩
    | true =>
      -- a figure starts a run, or is the new start of the run that comes next
      rcases hp : pieces t with _ | ⟨⟨r⟩ | ⟨d⟩, ps⟩
      · rw [pieces_cons_of_figure hc (by rw [hp]; rfl), hp]
        exact ⟨by simp, by simpa using hc, rfl, trivial⟩
      · rw [hp] at ih
        obtain ⟨-, hr, hstart, hps⟩ := ih
        rw [pieces_cons_of_run hc hp]
        exact ⟨by simp, List.forall_mem_cons.2 ⟨hc, hr⟩, hstart, hps⟩
      · rw [hp] at ih
        rw [pieces_cons_of_figure hc (by rw [hp]; rfl), hp]
        exact ⟨by simp, by simpa using hc, rfl, ih⟩

/-! ### Writing percents out -/

/-- Pieces that start with a mark still do so when their percents are written out. -/
theorem startsWithRun_writeOutPercents {ps : List Piece} (h : startsWithRun ps = false) :
    startsWithRun (writeOutPercents ps) = false := by
  rcases ps with _ | ⟨⟨r⟩ | ⟨c⟩, ps⟩
  · rfl
  · exact absurd h (by simp [startsWithRun])
  · rfl

/-- What is written for a percent stands apart from what follows. -/
theorem apart_hundredth {n : Text} {ps : List Piece} (hne : n ≠ [])
    (hn : ∀ c ∈ n, isFigure c = true) (hps : Apart ps) : Apart (hundredth n ++ ps) :=
  ⟨rfl, hne, hn, rfl, rfl, by decide, List.all_eq_true.1 rfl, rfl, rfl, hps⟩

/-- Writing percents out keeps pieces apart. -/
theorem apart_writeOutPercents {ps : List Piece} (h : Apart ps) :
    Apart (writeOutPercents ps) := by
  fun_induction writeOutPercents ps with
  | case1 => trivial
  | case2 c ps ih => exact ⟨h.1, ih h.2⟩
  | case3 a s b l ps hshare ih =>
    obtain ⟨ha, haf, -, hs, hb, hbf, -, -, hps⟩ := h
    -- a share writes the numeral before the sign once more, behind a mark of its own
    have hrest : Apart (hundredth b ++ (.mark ')' :: writeOutPercents ps)) :=
      apart_hundredth hb hbf ⟨by decide, ih hps⟩
    have hpieces : shareOf a s b ++ writeOutPercents ps = .run a :: .mark s :: .mark '(' ::
        .run a :: .mark '*' :: (hundredth b ++ (.mark ')' :: writeOutPercents ps)) := by
      simp [shareOf]
    rw [hpieces]
    exact ⟨ha, haf, rfl, hs, by decide, ha, haf, rfl, by decide, hrest⟩
  | case4 a b l ps hshare ih => exact apart_hundredth h.1 h.2.1 (ih h.2.2.2.2)
  | case5 a s b l ps hshare hs ih => exact ⟨h.1, h.2.1, rfl, h.2.2.2.1, ih h.2.2.2.2⟩
  | case6 a ps hform ih => exact apart_hundredth h.1 h.2.1 (ih h.2.2.2.2)
  | case7 a s ps hform hs ih => exact ⟨h.1, h.2.1, rfl, h.2.2.2.1, ih h.2.2.2.2⟩
  | case8 a ps _ _ ih =>
    obtain ⟨ha, haf, hstart, hps⟩ := h
    exact ⟨ha, haf, startsWithRun_writeOutPercents hstart, ih hps⟩

/-- **The pieces of the text with its percents written out** are the pieces that were written. -/
theorem pieces_expandPercents (t : Text) :
    pieces (expandPercents t) = writeOutPercents (pieces t) :=
  pieces_join (apart_writeOutPercents (apart_pieces t))

end RunningTab.Expr
