import RunningTab.Proofs.Text.Clusters
import RunningTab.Proofs.Text.Columns
import RunningTab.Screen.Reflow

/-!
# The rows of a line

Whatever a line is made of, it has a row (`RunningTab.Screen.reflow_ne_nil`). How many it has is
told by what waits to be put on one. Until the width is reached nothing is broken, so a line that
fits has a single row (`RunningTab.Screen.length_reflow_of_fits`). Where it is reached the row is
finished before the glyph that would go over the edge, so no row is wider if every glyph takes one
column (`RunningTab.Screen.of_mem_reflow`); a glyph of two columns can still be put on a row that
has room for one.
-/

namespace RunningTab

namespace Screen

open Glyph (totalColumns)

variable {width : Nat} {g : Glyph} {gs line : List Glyph}

namespace Glyph

theorem totalColumns_append (gs hs : List Glyph) :
    totalColumns (gs ++ hs) = totalColumns gs + totalColumns hs := by
  induction gs with
  | nil => exact (Nat.zero_add _).symm
  | cons g gs ih => exact (congrArg (g.columns + ·) ih).trans (Nat.add_assoc ..).symm

theorem totalColumns_singleton (g : Glyph) : totalColumns [g] = g.columns := rfl

theorem totalColumns_cons (g : Glyph) (gs : List Glyph) :
    totalColumns (g :: gs) = g.columns + totalColumns gs := rfl

/-- **Glyphs of one column each.** -/
def OneColumn (gs : List Glyph) : Prop :=
  ∀ g ∈ gs, g.columns = 1

namespace OneColumn

theorem nil : OneColumn [] :=
  fun _ hg => absurd hg List.not_mem_nil

theorem singleton (hg : g.columns = 1) : OneColumn [g] :=
  fun _ hg' => List.mem_singleton.1 hg' ▸ hg

theorem append {hs : List Glyph} (hgs : OneColumn gs) (hhs : OneColumn hs) :
    OneColumn (gs ++ hs) :=
  fun g hg => (List.mem_append.1 hg).elim (hgs g) (hhs g)

theorem sublist {hs : List Glyph} (hgs : OneColumn gs) (h : hs.Sublist gs) : OneColumn hs :=
  fun g hg => hgs g (h.subset hg)

theorem columns_pos (hgs : OneColumn gs) : ∀ g ∈ gs, 0 < g.columns :=
  fun g hg => Nat.lt_of_lt_of_eq Nat.zero_lt_one (hgs g hg).symm

/-- They take as many columns as they are. -/
theorem totalColumns_eq (hgs : OneColumn gs) : totalColumns gs = gs.length := by
  induction gs with
  | nil => rfl
  | cons g gs ih =>
    rw [totalColumns_cons, hgs g List.mem_cons_self, List.length_cons,
      ih (hgs.sublist (List.sublist_cons_self g gs)), Nat.add_comm]

end OneColumn

instance (gs : List Glyph) : Decidable (OneColumn gs) :=
  List.decidableBAll _ gs

end Glyph

/-- Printable spans have glyphs of one column each. -/
theorem oneColumn_glyphs {spans : List Span} (h : ∀ s ∈ spans, Text.Printable s.text)
    (ground : Style) : Glyph.OneColumn (glyphs ground spans) := by
  intro g hg
  obtain ⟨s, hs, hg⟩ := List.mem_flatMap.1 hg
  rw [Text.clusters_of_printable (h s hs)] at hg
  obtain ⟨symbol, hsymbol, rfl⟩ := List.mem_map.1 hg
  obtain ⟨c, hc, rfl⟩ := List.mem_map.1 (List.mem_filter.1 hsymbol).1
  obtain ⟨hlow, hhigh⟩ := h s hs c hc
  refine Text.width_eq_length (t := [c]) (fun d hd => ?_) fun hreturn => ?_
  · rw [List.mem_singleton.1 hd]
    omega
  · rw [← List.mem_singleton.1 hreturn] at hlow
    exact absurd hlow (by decide)

namespace Reflow

variable {r : Reflow}

/-! ### What waits -/

/-- The columns of all glyphs that are not on a finished row. -/
def pending (r : Reflow) : Nat :=
  totalColumns r.row + totalColumns r.blanks + totalColumns r.word

theorem pending_settled_le (r : Reflow) : r.settled.pending ≤ r.pending := by
  rw [pending, pending, settled]
  split
  · exact Nat.le_add_left ..
  · simp only [Glyph.totalColumns_append]
    exact Nat.le_refl _

theorem pending_waiting (r : Reflow) (g : Glyph) :
    (r.waiting g).pending = r.pending + g.columns := by
  rw [pending, pending, waiting]
  split <;> simp only [Glyph.totalColumns_append, Glyph.totalColumns_singleton] <;> omega

/-- The state that a glyph is read in, with the waiting word put on the row if it must be. -/
theorem exists_step_eq (hwide : g.columns ≤ width) (r : Reflow) :
    ∃ r' : Reflow, (r' = r ∧ r.mustSettle width g = false ∨ r' = r.settled) ∧
      step width r g =
        if r'.isFull width g then
          let dropped := dropBlanks (width - totalColumns r'.row) r'.blanks
          let next := { r' with rows := r'.rows ++ [r'.row], row := [], blanks := dropped.1 }
          if g.isBlank && !dropped.2 then next else next.waiting g
        else r'.waiting g := by
  rw [step, if_neg (Nat.not_lt.2 hwide)]
  cases hsettle : r.mustSettle width g with
  | false => exact ⟨r, Or.inl ⟨rfl, rfl⟩, rfl⟩
  | true => exact ⟨r.settled, Or.inr rfl, rfl⟩

/-! ### Lines that fit -/

/-- A glyph that fits behind all that waits finishes no row. -/
theorem step_of_fits (hpositive : 0 < g.columns) (h : r.pending + g.columns ≤ width) :
    (step width r g).rows = r.rows ∧ (step width r g).pending ≤ r.pending + g.columns := by
  obtain ⟨r', hr', hstep⟩ :=
    exists_step_eq (Nat.le_trans (Nat.le_add_left ..) h : g.columns ≤ width) r
  have hkept : r'.rows = r.rows ∧ r'.pending ≤ r.pending := by
    rcases hr' with ⟨rfl, -⟩ | rfl
    · exact ⟨rfl, Nat.le_refl _⟩
    · exact ⟨rfl, pending_settled_le r⟩
  have hroom : r'.isFull width g = false := by
    have hpending : r'.pending < width := by omega
    rw [pending] at hpending
    simp only [isFull, Bool.or_eq_false_iff, Bool.and_eq_false_iff, decide_eq_false_iff_not]
    exact ⟨by omega, Or.inl (by omega)⟩
  rw [hstep, hroom, if_neg Bool.false_ne_true, pending_waiting]
  refine ⟨?_, Nat.add_le_add_right hkept.2 _⟩
  rw [← hkept.1, waiting]
  split <;> rfl

theorem foldl_step_of_fits (hpositive : ∀ g ∈ gs, 0 < g.columns)
    (h : r.pending + totalColumns gs ≤ width) : (gs.foldl (step width) r).rows = r.rows := by
  induction gs generalizing r with
  | nil => rfl
  | cons g gs ih =>
    rw [Glyph.totalColumns_cons] at h
    obtain ⟨hrows, hpending⟩ :=
      step_of_fits (r := r) (hpositive g List.mem_cons_self) (by omega : _ ≤ width)
    rw [List.foldl_cons, ih (fun g' hg' => hpositive g' (List.mem_cons_of_mem g hg')) (by omega),
      hrows]

/-- The row that is left over at the end. -/
def lastRow (r : Reflow) : List Glyph :=
  if r.row = [] then r.word else r.row ++ r.blanks ++ r.word

theorem finished_ne_nil (r : Reflow) : r.finished ≠ [] := by
  have hrows (rows : List (List Glyph)) : (if rows = [] then [[]] else rows) ≠ [] := by
    split
    · exact List.cons_ne_nil _ _
    · assumption
  exact hrows _

theorem mem_finished {row : List Glyph} (h : row ∈ r.finished) :
    row ∈ r.rows ∨ row = [] ∨ row = r.lastRow := by
  have hrows (rows : List (List Glyph)) (h : row ∈ if rows = [] then [[]] else rows) :
      row = [] ∨ row ∈ rows := by
    split at h
    · exact Or.inl (List.mem_singleton.1 h)
    · exact Or.inr h
  have hone (p : Prop) [Decidable p] (last : List Glyph) (h : row ∈ if p then [last] else []) :
      row = last := by
    split at h
    · exact List.mem_singleton.1 h
    · cases h
  rcases hrows _ h with hempty | hrow
  · exact Or.inr (Or.inl hempty)
  · rcases List.mem_append.1 hrow with hrow | hlast
    · rcases List.mem_append.1 hrow with hrow | hempty
      · exact Or.inl hrow
      · exact Or.inr (Or.inl (hone _ [] hempty))
    · change row ∈ if r.lastRow = [] then [] else [r.lastRow] at hlast
      rw [← ite_not] at hlast
      exact Or.inr (Or.inr (hone _ _ hlast))

/-- Without finished rows what waits makes up a single one. -/
theorem length_finished (h : r.rows = []) : r.finished.length = 1 := by
  rw [finished, h]
  by_cases hempty : r.row = [] ∧ r.word = [] ∧ r.blanks ≠ []
  · simp [hempty]
  · by_cases hlast : (if r.row = [] then r.word else r.row ++ r.blanks ++ r.word) = [] <;>
      simp only [if_neg hempty, hlast, if_true, if_false, List.nil_append, List.append_nil] <;> rfl

/-! ### Rows in a width -/

/-- **What is read so far is within a width**, and made of glyphs of one column. -/
structure Within (width : Nat) (r : Reflow) : Prop where
  rows : ∀ row ∈ r.rows, totalColumns row ≤ width ∧ Glyph.OneColumn row
  pending : r.pending ≤ width
  row : Glyph.OneColumn r.row
  blanks : Glyph.OneColumn r.blanks
  word : Glyph.OneColumn r.word

theorem Within.lastRow (h : r.Within width) :
    totalColumns r.lastRow ≤ width ∧ Glyph.OneColumn r.lastRow := by
  have hpending := h.pending
  rw [Reflow.pending] at hpending
  rw [Reflow.lastRow]
  split
  · exact ⟨by omega, h.word⟩
  · rw [Glyph.totalColumns_append, Glyph.totalColumns_append]
    exact ⟨hpending, (h.row.append h.blanks).append h.word⟩

theorem Within.settled (h : r.Within width) : r.settled.Within width where
  rows := h.rows
  pending := Nat.le_trans (pending_settled_le r) h.pending
  row := h.lastRow.2
  blanks := .nil
  word := .nil

theorem Within.waiting (hg : g.columns = 1) (h : r.Within width)
    (hroom : r.pending + g.columns ≤ width) : (r.waiting g).Within width := by
  have hpending : (r.waiting g).pending ≤ width := by rwa [pending_waiting]
  rw [Reflow.waiting] at hpending ⊢
  split at hpending
  · next hblank =>
    rw [if_pos hblank]
    exact ⟨h.rows, hpending, h.row, h.blanks.append (.singleton hg), h.word⟩
  · next hblank =>
    rw [if_neg hblank]
    exact ⟨h.rows, hpending, h.row, h.blanks, h.word.append (.singleton hg)⟩

theorem dropBlanks_sublist (room : Nat) (bs : List Glyph) : (dropBlanks room bs).1.Sublist bs := by
  induction bs generalizing room with
  | nil => exact List.Sublist.refl _
  | cons b bs ih =>
    rw [dropBlanks]
    split
    · exact List.sublist_cons_self b bs
    · exact (ih _).cons b

/-- Blanks for which there is room fill up the row and are gone. -/
theorem dropBlanks_of_le {room : Nat} {bs : List Glyph} (h : totalColumns bs ≤ room) :
    dropBlanks room bs = ([], false) := by
  induction bs generalizing room with
  | nil => rfl
  | cons b bs ih =>
    rw [Glyph.totalColumns_cons] at h
    rw [dropBlanks, if_neg (by omega), ih (by omega)]

/-- What waits when a row is empty is less than a row. -/
theorem lt_of_row_eq_nil {r' : Reflow} (hwidth : 0 < width) (hg : g.columns = 1)
    (hr' : r' = r ∧ r.mustSettle width g = false ∨ r' = r.settled) (hrow : r'.row = []) :
    totalColumns r'.blanks < width ∧ totalColumns r'.word < width := by
  rcases hr' with ⟨rfl, hstays⟩ | rfl
  · simp only [mustSettle, hrow, List.isEmpty_nil, Bool.true_and, Bool.or_eq_false_iff,
      decide_eq_false_iff_not, hg] at hstays
    omega
  · exact ⟨hwidth, hwidth⟩

/-- **Reading a glyph of one column** leaves everything within the width. -/
theorem Within.step (hwidth : 0 < width) (hg : g.columns = 1) (h : r.Within width) :
    (step width r g).Within width := by
  obtain ⟨r', hr', hstep⟩ := exists_step_eq (by omega : g.columns ≤ width) r
  have hwithin : r'.Within width := by
    rcases hr' with ⟨rfl, -⟩ | rfl
    · exact h
    · exact h.settled
  have hpending := hwithin.pending
  rw [Reflow.pending] at hpending
  rw [hstep]
  cases hfull : r'.isFull width g with
  | false =>
    simp only [isFull, hg, Bool.or_eq_false_iff, Bool.and_eq_false_iff,
      decide_eq_false_iff_not] at hfull
    refine hwithin.waiting hg ?_
    rw [Reflow.pending]
    omega
  | true =>
    have hdropped := dropBlanks_sublist (width - totalColumns r'.row) r'.blanks
    -- the row is finished, and what waits behind it is less than another one
    have hrest : totalColumns (dropBlanks (width - totalColumns r'.row) r'.blanks).1 +
        totalColumns r'.word < width := by
      by_cases hrow : r'.row = []
      · obtain ⟨hblanks, hword⟩ := lt_of_row_eq_nil hwidth hg hr' hrow
        have hnone : totalColumns r'.row = 0 := by rw [hrow]; rfl
        rw [hnone, dropBlanks_of_le (by omega)]
        exact (Nat.zero_add _).symm ▸ hword
      · have hpositive : 0 < totalColumns r'.row := by
          rw [hwithin.row.totalColumns_eq]
          exact List.length_pos_iff.2 hrow
        have hblanks : totalColumns (dropBlanks (width - totalColumns r'.row) r'.blanks).1 ≤
            totalColumns r'.blanks := by
          rw [hwithin.blanks.totalColumns_eq, (hwithin.blanks.sublist hdropped).totalColumns_eq]
          exact hdropped.length_le
        omega
    have hnext : Within width
        { r' with
          rows := r'.rows ++ [r'.row]
          row := []
          blanks := (dropBlanks (width - totalColumns r'.row) r'.blanks).1 } := by
      refine ⟨fun row hrow => ?_, ?_, .nil, hwithin.blanks.sublist hdropped, hwithin.word⟩
      · rcases List.mem_append.1 hrow with hrow | hrow
        · exact hwithin.rows row hrow
        · rw [List.mem_singleton.1 hrow]
          exact ⟨by omega, hwithin.row⟩
      · change 0 + totalColumns (dropBlanks _ r'.blanks).1 + totalColumns r'.word ≤ width
        omega
    rw [if_pos rfl]
    dsimp only
    split
    · exact hnext
    · refine hnext.waiting hg ?_
      change 0 + totalColumns (dropBlanks _ r'.blanks).1 + totalColumns r'.word + g.columns ≤ width
      omega

theorem Within.finished (h : r.Within width) :
    ∀ row ∈ r.finished, totalColumns row ≤ width ∧ Glyph.OneColumn row := by
  intro row hrow
  rcases mem_finished hrow with hrow | rfl | rfl
  · exact h.rows row hrow
  · exact ⟨Nat.zero_le _, .nil⟩
  · exact h.lastRow

end Reflow

/-- **A line has a row**, whatever it is made of. -/
theorem reflow_ne_nil (hwidth : 0 < width) (line : List Glyph) : reflow width line ≠ [] := by
  rw [reflow, if_neg (Nat.ne_of_gt hwidth)]
  exact Reflow.finished_ne_nil _

/-- **A line that fits has one row.** -/
theorem length_reflow_of_fits (hwidth : 0 < width) (hpositive : ∀ g ∈ line, 0 < g.columns)
    (h : totalColumns line ≤ width) : (reflow width line).length = 1 := by
  have hpending : Reflow.start.pending + totalColumns line ≤ width := by
    rwa [show Reflow.start.pending = 0 from rfl, Nat.zero_add]
  rw [reflow, if_neg (Nat.ne_of_gt hwidth),
    Reflow.length_finished (Reflow.foldl_step_of_fits hpositive hpending)]

/-- **No row is wider than the width** if every glyph takes one column, as those of the rows do
then. -/
theorem of_mem_reflow (hline : Glyph.OneColumn line) :
    ∀ row ∈ reflow width line, totalColumns row ≤ width ∧ Glyph.OneColumn row := by
  rw [reflow]
  split
  · exact fun row hrow => absurd hrow List.not_mem_nil
  · next hwidth =>
    have hwithin : (line.foldl (Reflow.step width) .start).Within width :=
      List.foldlRecOn line (Reflow.step width) ⟨nofun, Nat.zero_le _, .nil, .nil, .nil⟩
        fun r h g hg => h.step (Nat.pos_of_ne_zero hwidth) (hline g hg)
    exact hwithin.finished

end Screen

end RunningTab
