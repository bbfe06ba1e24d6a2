import RunningTab.Proofs.Screen.Reflow
import RunningTab.Screen.Paragraph

/-!
# What is drawn where

All drawing is changing cells, and no change makes the canvas larger or smaller
(`RunningTab.Screen.Canvas.SameSize`). A paragraph is drawn last in its panel, one row below the
other and each glyph to the right of those before it, so that no glyph is drawn over: on the canvas
stands, glyph by glyph, what is in sight of the paragraph
(`RunningTab.Screen.Paragraph.symbolAt_drawIn`).
-/

namespace RunningTab.Screen

open Glyph (totalColumns)

namespace Canvas

variable {v v' v'' : Canvas} {x y x' y' : Nat}

/-- The symbol of a cell, if the canvas has the cell. -/
def symbolAt (x y : Nat) (v : Canvas) : Option Text :=
  if x < v.width then v.cells[y * v.width + x]?.map Cell.symbol else none

/-! ### The size of a canvas -/

/-- **The size is kept**, by its numbers and in the cells. -/
structure SameSize (v v' : Canvas) : Prop where
  width : v'.width = v.width
  height : v'.height = v.height
  cells : v'.cells.size = v.cells.size

theorem SameSize.refl (v : Canvas) : SameSize v v :=
  ⟨rfl, rfl, rfl⟩

theorem SameSize.trans (h : SameSize v v') (h' : SameSize v' v'') : SameSize v v'' :=
  ⟨h'.width.trans h.width, h'.height.trans h.height, h'.cells.trans h.cells⟩

/-- So it is by one change after the other. -/
theorem SameSize.foldl {α : Type} {f : Canvas → α → Canvas} (as : List α)
    (h : ∀ v, ∀ a, SameSize v (f v a)) (v : Canvas) : SameSize v (as.foldl f v) := by
  induction as generalizing v with
  | nil => exact refl v
  | cons a as ih => exact (h v a).trans (ih (f v a))

theorem sameSize_change (x y : Nat) (f : Cell → Cell) (v : Canvas) :
    SameSize v (v.change x y f) := by
  rw [change]
  split
  · exact ⟨rfl, rfl, Array.size_modify⟩
  · exact .refl v

theorem sameSize_changeRow (x y count : Nat) (f : Cell → Cell) (v : Canvas) :
    SameSize v (v.changeRow x y count f) :=
  .foldl _ (fun v i => sameSize_change (x + i) y f v) v

theorem sameSize_changeColumn (x y count : Nat) (f : Cell → Cell) (v : Canvas) :
    SameSize v (v.changeColumn x y count f) :=
  .foldl _ (fun v i => sameSize_change x (y + i) f v) v

theorem sameSize_restyle (a : Area) (s : Style) (v : Canvas) : SameSize v (v.restyle a s) :=
  .foldl _ (fun v i => sameSize_changeRow a.x (a.y + i) a.width _ v) v

theorem sameSize_writeClusters (y stop : Nat) (s : Style) (x : Nat) (gs : List Text) (v : Canvas) :
    SameSize v (v.writeClusters y stop s x gs).1 := by
  induction gs generalizing x v with
  | nil => exact .refl v
  | cons g gs ih =>
    rw [writeClusters]
    split
    · exact ih x v
    · split
      · exact .refl v
      · exact ((sameSize_change ..).trans (sameSize_changeRow ..)).trans (ih _ _)

theorem sameSize_writeSpans (y stop x : Nat) (spans : List Span) (v : Canvas) :
    SameSize v (v.writeSpans y stop x spans).1 := by
  induction spans generalizing x v with
  | nil => exact .refl v
  | cons span spans ih =>
    rw [writeSpans]
    split
    · exact .refl v
    · exact (sameSize_writeClusters ..).trans (ih _ _)

end Canvas

open Canvas (SameSize)

theorem Panel.sameSize_drawTitles (p : Panel) (a : Area) (alignment : Alignment) (v : Canvas) :
    SameSize v (p.drawTitles a alignment v) :=
  .foldl _ (fun v t => Canvas.sameSize_writeSpans a.y _ (titleStart a t) t.spans v) v

theorem Panel.sameSize_drawBorder (p : Panel) (a : Area) (v : Canvas) :
    SameSize v (p.drawBorder a v) := by
  unfold drawBorder
  -- the corners were drawn last, before them the edges
  refine .trans (.trans (.trans (.trans ?_ (Canvas.sameSize_change ..)) (Canvas.sameSize_change ..))
    (Canvas.sameSize_change ..)) (Canvas.sameSize_change ..)
  refine .trans (.trans (.trans (.trans ?_ (Canvas.sameSize_changeColumn ..))
    (Canvas.sameSize_changeRow ..)) (Canvas.sameSize_changeColumn ..))
    (Canvas.sameSize_changeRow ..)
  exact Canvas.sameSize_restyle a p.ground v

theorem Panel.sameSize_draw (p : Panel) (a : Area) (v : Canvas) : SameSize v (p.draw a v) := by
  rw [draw]
  split
  · exact .refl v
  · exact ((p.sameSize_drawBorder a v).trans (p.sameSize_drawTitles a .right _)).trans
      ((p.sameSize_drawTitles a .center _).trans (p.sameSize_drawTitles a .left _))

namespace Canvas

variable {v : Canvas} {x y x' y' : Nat}

/-! ### Cells that are changed -/

theorem symbolAt_change_of_ne (f : Cell → Cell) (v : Canvas) (h : x' ≠ x ∨ y' ≠ y) :
    (v.change x y f).symbolAt x' y' = v.symbolAt x' y' := by
  rw [change]
  split
  · next hx =>
    rw [symbolAt, symbolAt]
    split
    · next hx' =>
      have hindex : y * v.width + x ≠ y' * v.width + x' := by
        intro heq
        -- the columns are the remainders of the indices, and the rows the quotients
        have hcolumn := congrArg (· % v.width) heq
        have hrow := congrArg (· / v.width) heq
        simp only [Nat.mul_comm _ v.width, Nat.mul_add_mod, Nat.mod_eq_of_lt hx,
          Nat.mod_eq_of_lt hx', Nat.mul_add_div (Nat.zero_lt_of_lt hx), Nat.div_eq_of_lt hx,
          Nat.div_eq_of_lt hx', Nat.add_zero] at hcolumn hrow
        exact h.elim (· hcolumn.symm) (· hrow.symm)
      rw [Array.getElem?_modify, if_neg hindex]
    · rfl
  · rfl

/-- A cell of the canvas that is marked has the symbol. -/
theorem symbolAt_change_marked (hx : x < v.width) (hy : y * v.width + x < v.cells.size)
    (symbol : Text) (s : Style) :
    (v.change x y (Cell.marked symbol s)).symbolAt x y = some symbol := by
  rw [change, if_pos hx, symbolAt, if_pos hx, Array.getElem?_modify, if_pos rfl,
    Array.getElem?_eq_getElem hy]
  rfl

end Canvas

namespace Paragraph

variable {v : Canvas} {x y x' y' : Nat} {row : List Glyph}

/-! ### A row -/

theorem sameSize_drawRow (y x : Nat) (row : List Glyph) (v : Canvas) :
    SameSize v (drawRow y x row v) := by
  induction row generalizing x v with
  | nil => exact .refl v
  | cons g row ih =>
    rw [drawRow]
    split
    · exact ih x v
    · exact (Canvas.sameSize_change ..).trans (ih _ _)

/-- A row leaves alone the other rows, and what is to the left of it. -/
theorem symbolAt_drawRow_of_not (v : Canvas) (row : List Glyph) (h : x' < x ∨ y' ≠ y) :
    (drawRow y x row v).symbolAt x' y' = v.symbolAt x' y' := by
  induction row generalizing x v with
  | nil => rfl
  | cons g row ih =>
    rw [drawRow]
    split
    · exact ih v h
    · rw [ih _ (h.imp_left fun hlt => Nat.lt_of_lt_of_le hlt (Nat.le_add_right ..)),
        Canvas.symbolAt_change_of_ne _ _ (h.imp_left Nat.ne_of_lt)]

/-- **A row that fits stands on the canvas**, each glyph behind those before it. -/
theorem symbolAt_drawRow (hsize : v.cells.size = v.width * v.height) (hy : y < v.height)
    (hx : x + totalColumns row ≤ v.width) (hpositive : ∀ g ∈ row, 0 < g.columns) {j : Nat}
    {g : Glyph} (hg : row[j]? = some g) :
    (drawRow y x row v).symbolAt (x + totalColumns (row.take j)) y = some g.symbol := by
  induction row generalizing x v j with
  | nil => cases hg
  | cons g' row ih =>
    have hcolumns : 0 < g'.columns := hpositive g' List.mem_cons_self
    rw [Glyph.totalColumns_cons] at hx
    rw [drawRow, if_neg (Nat.ne_of_gt hcolumns)]
    have hkept := Canvas.sameSize_change x y (Cell.marked g'.symbol g'.style) v
    cases j with
    | zero =>
      cases hg
      have hindex : y * v.width + x < v.cells.size := by
        have hrows : (y + 1) * v.width ≤ v.height * v.width := Nat.mul_le_mul_right _ hy
        rw [hsize, Nat.mul_comm v.width]
        rw [Nat.add_mul] at hrows
        omega
      change (drawRow y (x + g.columns) row _).symbolAt x y = _
      rw [symbolAt_drawRow_of_not _ _ (Or.inl (Nat.lt_add_of_pos_right hcolumns))]
      exact Canvas.symbolAt_change_marked (by omega) hindex _ _
    | succ j =>
      rw [List.take_succ_cons, Glyph.totalColumns_cons, ← Nat.add_assoc]
      exact ih (by rw [hkept.cells, hkept.width, hkept.height, hsize])
        (by rw [hkept.height]; exact hy) (by rw [hkept.width]; omega)
        (fun g hg => hpositive g (List.mem_cons_of_mem g' hg)) hg

/-! ### Rows one below the other -/

section

variable {rows : List (List Glyph)} {left : List Glyph → Nat} {top k : Nat}

/-- The rows from the one with the number `k` on, drawn one below the other. -/
def drawFrom (left : List Glyph → Nat) (top k : Nat) (rows : List (List Glyph)) (v : Canvas) :
    Canvas :=
  (rows.zipIdx k).foldl (fun v (row, i) => drawRow (top + i) (left row) row v) v

theorem drawFrom_cons (left : List Glyph → Nat) (top k : Nat) (row : List Glyph)
    (rows : List (List Glyph)) (v : Canvas) :
    drawFrom left top k (row :: rows) v =
      drawFrom left top (k + 1) rows (drawRow (top + k) (left row) row v) := rfl

/-- Rows leave alone what is above them. -/
theorem symbolAt_drawFrom_of_lt (v : Canvas) (h : y' < top + k) :
    (drawFrom left top k rows v).symbolAt x' y' = v.symbolAt x' y' := by
  induction rows generalizing k v with
  | nil => rfl
  | cons row rows ih =>
    rw [drawFrom_cons, ih _ (Nat.lt_succ_of_lt h),
      symbolAt_drawRow_of_not _ _ (Or.inr (Nat.ne_of_lt h))]

/-- **Rows that fit stand one below the other.** -/
theorem symbolAt_drawFrom (left : List Glyph → Nat) (top k : Nat)
    (hsize : v.cells.size = v.width * v.height) {i j : Nat} {g : Glyph}
    (hrow : rows[i]? = some row) (hy : top + k + i < v.height)
    (hx : left row + totalColumns row ≤ v.width) (hpositive : ∀ g ∈ row, 0 < g.columns)
    (hg : row[j]? = some g) :
    (drawFrom left top k rows v).symbolAt (left row + totalColumns (row.take j)) (top + k + i) =
      some g.symbol := by
  induction rows generalizing k i v with
  | nil => cases hrow
  | cons first rows ih =>
    rw [drawFrom_cons]
    cases i with
    | zero =>
      cases hrow
      rw [symbolAt_drawFrom_of_lt _ (Nat.lt_succ_self _)]
      exact symbolAt_drawRow hsize hy hx hpositive hg
    | succ i =>
      have hkept := sameSize_drawRow (top + k) (left first) first v
      have hnext : top + k + (i + 1) = top + (k + 1) + i := by omega
      rw [hnext] at hy ⊢
      exact ih (k + 1) (by rw [hkept.cells, hkept.width, hkept.height, hsize]) hrow
        (by rw [hkept.height]; exact hy) (by rw [hkept.width]; exact hx)

end

/-- **What is in sight of a paragraph stands on the canvas**: the rows one below the other, and in
each the glyphs one behind the other. -/
theorem symbolAt_drawIn (p : Paragraph) (panel : Panel) {a : Area}
    (hsize : v.cells.size = v.width * v.height) (hright : a.x + a.width ≤ v.width)
    (hbottom : a.y + a.height ≤ v.height) (hleft : p.alignment = .left) {i j : Nat} {g : Glyph}
    (hrow : (p.visible a.inner)[i]? = some row) (hwide : totalColumns row ≤ a.inner.width)
    (hpositive : ∀ g ∈ row, 0 < g.columns) (hg : row[j]? = some g) :
    (p.drawIn panel a v).symbolAt (a.inner.x + totalColumns (row.take j)) (a.inner.y + i) =
      some g.symbol := by
  have hkept := (Canvas.sameSize_restyle a p.ground v).trans
    (panel.sameSize_draw a (v.restyle a p.ground))
  have hi : i < a.inner.height := by
    obtain ⟨hi, -⟩ := List.getElem?_eq_some_iff.1 hrow
    exact Nat.lt_of_lt_of_le hi (List.length_take_le ..)
  have hoffset : offset p.alignment a.inner.width row = 0 := by rw [hleft]; rfl
  have hdrawn := symbolAt_drawFrom
    (fun row => a.inner.x + offset p.alignment a.inner.width row) a.inner.y 0
    (by rw [hkept.cells, hkept.width, hkept.height, hsize]) hrow
    (by rw [hkept.height]; simp only [Area.inner] at hi ⊢; omega)
    (by rw [hkept.width, hoffset]; simp only [Area.inner] at hi hwide ⊢; omega) hpositive hg
  rw [hoffset] at hdrawn
  exact hdrawn

end Paragraph

end RunningTab.Screen
