import RunningTab.Proofs.Editor.InStep
import RunningTab.Proofs.Editor.Redraw
import RunningTab.Proofs.Text.Columns

/-!
# The cursor in the window

The input is shown through a window of so many columns, and for every frame it is scrolled until the
cursor is in the window. Three rules do this one after the other: a cursor before the window becomes
its first column, a cursor behind it its last column, and then the text is scrolled back so that no
column behind its end is shown. The last rule can undo the second. Behind the last character of a
text that fills the window the cursor stands on no character and needs a column of its own; the
second rule scrolls the text by one to make room for it, and the third one scrolls it back
(`RunningTab.Editor.AtFullEnd`).

This is the only place at which the cursor is not in the window, whatever has been typed, removed
and drawn before, and there it is in the column behind it
(`RunningTab.Editor.cursor_in_view_iff`). On the screen that column belongs to the border of the
input.
-/

namespace RunningTab.Editor

open Screen (Area)
open Text (Ascii)

/-- **The cursor is at the full end** of a window: behind the last character of a text that has one
for every column. -/
def AtFullEnd (columns : Nat) (e : Editor) : Prop :=
  e.cursor = e.input.length ∧ columns ≤ e.input.length

instance (columns : Nat) (e : Editor) : Decidable (e.AtFullEnd columns) :=
  inferInstanceAs (Decidable (_ ∧ _))

variable {e : Editor} {columns : Nat}

/-! ### Scrolling -/

/-- A scrolled text begins at the cursor or before it. -/
theorem inputScroll_le_cursor (hcolumns : 0 < columns) (h : e.cursor ≤ e.input.length) :
    (e.scrollInput columns).inputScroll ≤ e.cursor := by
  rw [inputScroll_scrollInput]
  split_ifs <;> omega

/-- **At the full end the cursor is in the column behind the window.** -/
theorem cursor_of_atFullEnd (hcolumns : 0 < columns) (h : e.AtFullEnd columns) :
    e.cursor = (e.scrollInput columns).inputScroll + columns := by
  obtain ⟨hend, hfull⟩ := h
  rw [inputScroll_scrollInput]
  split_ifs <;> omega

/-- **Anywhere else it is in the window.** -/
theorem cursor_lt_of_not_atFullEnd (hcolumns : 0 < columns) (h : e.cursor ≤ e.input.length)
    (hend : ¬ e.AtFullEnd columns) :
    e.cursor < (e.scrollInput columns).inputScroll + columns := by
  rw [AtFullEnd] at hend
  rw [inputScroll_scrollInput]
  -- scrolled back, the window ends with the text, and only a cursor behind that is outside
  split_ifs <;> omega

/-! ### The columns before the cursor -/

/-- The characters of the window before the cursor are characters of the input. -/
theorem beforeCursor_subset (columns : Nat) (e : Editor) :
    (e.visibleInput columns).take (e.cursor - e.inputScroll) ⊆ e.input :=
  fun _ hc => List.mem_of_mem_drop (List.mem_of_mem_take (List.mem_of_mem_take hc))

theorem cursorColumns_le (h : Ascii e.input) :
    e.cursorColumns columns ≤ e.cursor - e.inputScroll :=
  Nat.le_trans (Text.width_le_length (h.of_subset (beforeCursor_subset columns e)).narrow)
    (List.length_take_le ..)

/-- The cursor is never further than in the column behind the window. -/
theorem cursorColumns_scrollInput_le (hcolumns : 0 < columns) (h : e.cursor ≤ e.input.length)
    (hascii : Ascii e.input) : (e.scrollInput columns).cursorColumns columns ≤ columns := by
  have hle : (e.scrollInput columns).cursorColumns columns ≤
      e.cursor - (e.scrollInput columns).inputScroll := cursorColumns_le hascii
  by_cases hend : e.AtFullEnd columns
  · have hbehind := cursor_of_atFullEnd hcolumns hend
    omega
  · have hwindow := cursor_lt_of_not_atFullEnd hcolumns h hend
    omega

/-- **Anywhere but at the full end there is a column of the window left for the cursor.** -/
theorem cursorColumns_lt (hcolumns : 0 < columns) (h : e.cursor ≤ e.input.length)
    (hascii : Ascii e.input) (hend : ¬ e.AtFullEnd columns) :
    (e.scrollInput columns).cursorColumns columns < columns := by
  have hle : (e.scrollInput columns).cursorColumns columns ≤
      e.cursor - (e.scrollInput columns).inputScroll := cursorColumns_le hascii
  have hwindow := cursor_lt_of_not_atFullEnd hcolumns h hend
  omega

/-- **At the full end there is none**, if every character takes a column. -/
theorem cursorColumns_of_atFullEnd (hcolumns : 0 < columns) (hascii : Ascii e.input)
    (hreturn : '\r' ∉ e.input) (hend : e.AtFullEnd columns) :
    (e.scrollInput columns).cursorColumns columns = columns := by
  have hbefore := beforeCursor_subset columns (e.scrollInput columns)
  have hwindow : e.cursor = (e.scrollInput columns).inputScroll + columns :=
    cursor_of_atFullEnd hcolumns hend
  have hlength : (e.scrollInput columns).inputScroll + columns ≤ e.input.length := by
    rw [← hwindow]
    exact Nat.le_of_eq hend.1
  rw [cursorColumns, Text.width_eq_length (hascii.of_subset hbefore) fun hc =>
    hreturn (hbefore hc), visibleInput, List.length_take, List.length_take, List.length_drop]
  change min (e.cursor - (e.scrollInput columns).inputScroll)
    (min columns (e.input.length - (e.scrollInput columns).inputScroll)) = columns
  omega

/-! ### The cursor on the screen -/

variable {d : Division} {width height : Nat}

/-- The list has no part in the scrolling of the input. -/
theorem inputScroll_settledIn (a : Areas) (e : Editor) :
    (e.settledIn a).inputScroll = (e.scrollInput (inputColumns a)).inputScroll := by
  rw [settledIn, inputScroll_scrollInput, inputScroll_scrollInput, settleList]
  split <;> rfl

/-- **Where the cursor is drawn**, if the editor is. -/
theorem cursor_drawBy (hhelp : e.helpShown = false) (hwidth : minWidth ≤ width)
    (hheight : minHeight ≤ height) :
    (e.drawBy d width height).2.cursor =
      some ((d.areas width height e).input.inner.x + 2 +
        (e.scrollInput (inputColumns (d.areas width height e))).cursorColumns
          (inputColumns (d.areas width height e)),
        (d.areas width height e).input.inner.y) := by
  let a := d.areas width height e
  have hsettled : e.settledBy d width height = e.settledIn a := by
    rw [settledBy, hhelp, if_neg Bool.false_ne_true, if_neg (by omega)]
  have hkeeps := keepsData_settledIn a e
  have hareas : d.areas width height (e.settledIn a) = a :=
    d.congr width height hkeeps.stepsHeight
  have hcolumns : (e.settledIn a).cursorColumns (inputColumns a) =
      (e.scrollInput (inputColumns a)).cursorColumns (inputColumns a) := by
    rw [cursorColumns, cursorColumns, visibleInput, visibleInput, inputScroll_settledIn, input,
      hkeeps.ledger, hkeeps.cursor]
    rfl
  rw [drawBy, hsettled, paintBy, hkeeps.helpShown, hhelp, if_neg Bool.false_ne_true,
    tooSmall_settledIn, if_neg Bool.false_ne_true, hareas, paintIn, hcolumns]

/-- The window ends where the border begins. -/
theorem inner_x_add_inputColumns {a : Areas} (h : 4 ≤ a.input.width) :
    a.input.inner.x + 2 + inputColumns a + 1 = a.input.right := by
  rw [inputColumns, Area.inner, Area.right]
  dsimp only
  omega

/-- **In every reachable editor the scrolled input has the cursor in its window, unless the cursor
is at the full end**; there it is in the column behind the window. So an ASCII input is drawn, on
every screen that is large enough and however that is divided, with the cursor inside the border of
the input, and at the full end on the right border. -/
theorem cursor_in_view_iff (h : e.Reachable) :
    (∀ columns, 0 < columns →
      (e.scrollInput columns).inputScroll ≤ e.cursor ∧
      (e.cursor < (e.scrollInput columns).inputScroll + columns ↔ ¬ e.AtFullEnd columns) ∧
      (e.AtFullEnd columns → e.cursor = (e.scrollInput columns).inputScroll + columns)) ∧
    ∀ (d : Division) (width height : Nat), e.helpShown = false → minWidth ≤ width →
      minHeight ≤ height → Ascii e.input →
      let box := (d.areas width height e).input
      let columns := inputColumns (d.areas width height e)
      ∃ x y, (e.drawBy d width height).2.cursor = some (x, y) ∧ box.x < x ∧ x < box.right ∧
        (¬ e.AtFullEnd columns → x + 1 < box.right) ∧
        (e.AtFullEnd columns → '\r' ∉ e.input → x + 1 = box.right) ∧
        (3 ≤ box.height → box.y < y ∧ y + 1 < box.bottom) := by
  have hcursor : e.cursor ≤ e.input.length := (inStep_of_reachable h).cursor_le
  constructor
  · intro columns hcolumns
    refine ⟨inputScroll_le_cursor hcolumns hcursor, ⟨fun hlt hend => ?_,
      cursor_lt_of_not_atFullEnd hcolumns hcursor⟩, cursor_of_atFullEnd hcolumns⟩
    exact Nat.ne_of_lt hlt (cursor_of_atFullEnd hcolumns hend)
  · intro d width height hhelp hwidth hheight hascii box columns
    have hwide : minWidth ≤ box.width :=
      Nat.le_trans hwidth (Nat.le_of_eq (d.input_width width height e).symm)
    have hcolumns : 0 < columns := by
      change 0 < box.width - 2 - 2
      rw [minWidth] at hwide
      omega
    have hright : box.inner.x + 2 + columns + 1 = box.right :=
      inner_x_add_inputColumns (a := d.areas width height e) (Nat.le_trans (by decide) hwide)
    have hleft : box.x ≤ box.inner.x := Nat.le_add_right ..
    refine ⟨box.inner.x + 2 + (e.scrollInput columns).cursorColumns columns, box.inner.y,
      cursor_drawBy hhelp hwidth hheight, by omega, ?_, fun hend => ?_, fun hend hreturn => ?_,
      fun hthree => ?_⟩
    · have hdrawn := cursorColumns_scrollInput_le hcolumns hcursor hascii
      omega
    · have hdrawn := cursorColumns_lt hcolumns hcursor hascii hend
      omega
    · rw [cursorColumns_of_atFullEnd hcolumns hascii hreturn hend, hright]
    · rw [Area.inner, Area.bottom]
      dsimp only
      omega

/-- Sixty figures are pasted, which is more than a screen of the least size shows, and the cursor is
moved off their end: it is in the last column of a window, and inside the border on the screen. -/
theorem cursor_in_view_off_the_end :
    let e := (ofSettings .standard).afterAll
      [.event (.paste (List.replicate 60 '7')), .event (.key { code := .left })]
    e.cursor < (e.scrollInput 46).inputScroll + 46 ∧
      ∃ x y, (e.draw 50 16).2.cursor = some (x, y) ∧ 0 < x ∧ x + 1 < 50 ∧ 9 < y ∧ y + 1 < 12 := by
  intro e
  have hreachable : e.Reachable := ⟨.standard, _, rfl⟩
  have hinput : e.input = List.replicate 60 '7' := by decide +kernel
  have hend : ¬ e.AtFullEnd 46 := by decide +kernel
  obtain ⟨hscroll, hdrawn⟩ := cursor_in_view_iff hreachable
  refine ⟨(hscroll 46 (by decide)).2.1.2 hend, ?_⟩
  obtain ⟨x, y, hcursor, hleft, -, hright, -, hrows⟩ := hdrawn .standard 50 16 (by decide +kernel)
    (by decide) (by decide) (hinput ▸ Text.ascii_replicate 60 (by decide))
  exact ⟨x, y, hcursor, hleft, hright hend, hrows (by decide)⟩

/-- **The cursor leaves the window**: forty-six figures fill the window of a screen of the least
size. Behind them the cursor is in no column of the window, and is drawn in the last column of the
screen, which is the border of the input. -/
theorem cursor_on_border_behind_full_window :
    let e := (ofSettings .standard).afterAll [.event (.paste (List.replicate 46 '7'))]
    e.Reachable ∧ Ascii e.input ∧ ¬ e.cursor < (e.scrollInput 46).inputScroll + 46 ∧
      (e.draw 50 16).2.cursor = some (49, 10) ∧ (e.areas 50 16).input = ⟨0, 9, 50, 3⟩ := by
  intro e
  have hinput : e.input = List.replicate 46 '7' := by decide +kernel
  exact ⟨⟨.standard, _, rfl⟩, hinput ▸ Text.ascii_replicate 46 (by decide), by decide +kernel,
    by decide +kernel, by decide +kernel⟩

end RunningTab.Editor
