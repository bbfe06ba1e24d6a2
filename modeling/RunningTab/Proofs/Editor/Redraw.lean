import Mathlib.Data.List.Basic
import RunningTab.Editor.Course

/-!
# Drawing a frame twice

A session draws a frame over and over, whether or not anything has happened. Drawing changes the
editor: the list is scrolled to its end if that is pending and never beyond its last row, the rows
of the lines are measured, and the input is scrolled until the cursor is in sight. Were one of these
changes not done once and for all, the screen would move by itself. Here each of them is shown to
change nothing the second time (`RunningTab.Editor.settleList_settleList`,
`RunningTab.Editor.scrollInput_scrollInput`), so that a second frame of the same size is the first
one and leaves the editor as it is, and neither of them touches the data
(`RunningTab.Editor.draw_draw`).

Nothing of this depends on how the screen is divided among the parts of the editor, except that the
input takes a whole row. It is therefore shown for every division
(`RunningTab.Editor.Division`), whatever it does with a screen on which the parts have no room.
-/

namespace RunningTab.Editor

open Screen (Area Canvas)

/-- **The data stays as it is**: everything but the measures and the places that frames keep. -/
structure KeepsData (e e' : Editor) : Prop where
  ledger : e'.ledger = e.ledger
  settings : e'.settings = e.settings
  cursor : e'.cursor = e.cursor
  picked : e'.picked = e.picked
  status : e'.status = e.status
  helpShown : e'.helpShown = e.helpShown
  helpScroll : e'.helpScroll = e.helpScroll
  stepsShown : e'.stepsShown = e.stepsShown
  quitting : e'.quitting = e.quitting

/-! ### Divisions of the screen -/

/-- **A division of the screen** among the parts of the editor, which takes account of nothing but
the height of the steps and gives the input a whole row. -/
structure Division where
  areas : (width height : Nat) → Editor → Areas
  congr : ∀ width height {e e' : Editor}, e.stepsHeight = e'.stepsHeight →
    areas width height e = areas width height e'
  input_width : ∀ width height e, (areas width height e).input.width = width

/-- The division that the editor uses. -/
def Division.standard : Division where
  areas := Editor.areas
  congr width height e e' h := by rw [Editor.areas, Editor.areas, h]
  input_width _ _ _ := rfl

/-- The editor settled for the areas of a screen that is large enough. -/
def settledIn (a : Areas) (e : Editor) : Editor :=
  { ({ e with tooSmall := false }.settleList a.list.inner).scrollInput (inputColumns a) with
    listHeight := a.list.height }

/-- The editor settled for a frame, on a screen divided in a given way. -/
def settledBy (d : Division) (width height : Nat) (e : Editor) : Editor :=
  if e.helpShown then e
  else if width < minWidth ∨ height < minHeight then { e with tooSmall := true }
  else e.settledIn (d.areas width height e)

/-- The screen of a settled editor, with its parts in given areas. -/
def paintIn (a : Areas) (width height : Nat) (e : Editor) : Frame :=
  let v := e.drawLines a.list (e.drawPages a.tabs (Canvas.blank width height))
  let v := if e.stepsShown then e.drawSteps a.steps v else v
  let v := e.drawTotal a.total (e.drawInput a.input (inputColumns a) v)
  ⟨e.drawStatus a.status v,
    some (a.input.inner.x + 2 + e.cursorColumns (inputColumns a), a.input.inner.y)⟩

/-- The screen of a settled editor, divided in a given way. -/
def paintBy (d : Division) (width height : Nat) (e : Editor) : Frame :=
  if e.helpShown then e.paintHelp width height
  else if e.tooSmall then paintTooSmall width height
  else e.paintIn (d.areas width height e) width height

/-- **Draws a frame** on a screen divided in a given way. -/
def drawBy (d : Division) (width height : Nat) (e : Editor) : Editor × Frame :=
  (e.settledBy d width height, (e.settledBy d width height).paintBy d width height)

/-- With the editor's own division this is how frames are drawn. -/
theorem drawBy_standard (width height : Nat) (e : Editor) :
    e.drawBy .standard width height = e.draw width height :=
  rfl

variable {e : Editor}

/-! ### The data -/

theorem KeepsData.stepsHeight {e' : Editor} (h : e.KeepsData e') :
    e'.stepsHeight = e.stepsHeight := by
  rw [Editor.stepsHeight, Editor.stepsHeight, steps, steps, input, input, h.stepsShown, h.ledger]

/-- The list is measured and scrolled, and that is all. -/
theorem keepsData_settleList (a : Area) (e : Editor) : e.KeepsData (e.settleList a) := by
  rw [settleList]
  split <;> exact ⟨rfl, rfl, rfl, rfl, rfl, rfl, rfl, rfl, rfl⟩

theorem keepsData_settledIn (a : Areas) (e : Editor) : e.KeepsData (e.settledIn a) := by
  have hlist := keepsData_settleList a.list.inner { e with tooSmall := false }
  exact ⟨hlist.ledger, hlist.settings, hlist.cursor, hlist.picked, hlist.status, hlist.helpShown,
    hlist.helpScroll, hlist.stepsShown, hlist.quitting⟩

/-- **Settling for a frame leaves the data as it is.** -/
theorem keepsData_settledBy (d : Division) (width height : Nat) (e : Editor) :
    e.KeepsData (e.settledBy d width height) := by
  rw [settledBy]
  split
  · exact ⟨rfl, rfl, rfl, rfl, rfl, rfl, rfl, rfl, rfl⟩
  · split
    · exact ⟨rfl, rfl, rfl, rfl, rfl, rfl, rfl, rfl, rfl⟩
    · exact keepsData_settledIn _ e

theorem keepsData_settled (width height : Nat) (e : Editor) :
    e.KeepsData (e.settled width height) :=
  keepsData_settledBy .standard width height e

/-! ### Settling twice -/

/-- The editor with its lines measured, and its list scrolled to a given row. -/
def measured (width scroll : Nat) (e : Editor) : Editor :=
  { e with
    lineStarts := startsFrom 0 (e.rowsByLine width)
    toBottom := false
    listScroll := scroll }

theorem settleList_of_nil (a : Area) (h : e.ledger.page = []) : e.settleList a = e := by
  rw [settleList, if_pos h]

theorem settleList_of_ne (a : Area) (h : e.ledger.page ≠ []) :
    e.settleList a = e.measured a.width
      (min (if e.toBottom then (e.listRows a.width).length - a.height else e.listScroll)
        ((e.listRows a.width).length - 1)) := by
  rw [settleList, if_neg h, measured]

/-- **A settled list stays where it is**: the scrolling to its end is no longer pending, and its
first row in sight is one of its rows. -/
theorem settleList_settleList (a : Area) (e : Editor) :
    (e.settleList a).settleList a = e.settleList a := by
  by_cases hpage : e.ledger.page = []
  · rw [settleList_of_nil a hpage, settleList_of_nil a hpage]
  · have hmeasured : ∀ scroll ≤ (e.listRows a.width).length - 1,
        (e.measured a.width scroll).settleList a = e.measured a.width scroll := by
      intro scroll hscroll
      have hagain : (e.measured a.width scroll).settleList a =
          e.measured a.width (min scroll ((e.listRows a.width).length - 1)) :=
        settleList_of_ne (e := e.measured a.width scroll) a hpage
      rw [hagain, Nat.min_eq_left hscroll]
    rw [settleList_of_ne a hpage]
    exact hmeasured _ (Nat.min_le_right ..)

/-- Where the input is scrolled to does not matter to the list. -/
theorem settleList_scrolled (a : Area) (e : Editor) (scroll height : Nat) :
    { e with inputScroll := scroll, listHeight := height }.settleList a =
      { e.settleList a with inputScroll := scroll, listHeight := height } := by
  rw [settleList, settleList]
  split <;> rfl

/-- The first character of the input in sight, for a cursor, a text and a width. -/
theorem inputScroll_scrollInput (columns : Nat) (e : Editor) :
    (e.scrollInput columns).inputScroll =
      min (if e.cursor < e.inputScroll then e.cursor
        else if e.inputScroll + columns ≤ e.cursor then e.cursor - columns + 1
        else e.inputScroll) (e.input.length - columns) :=
  rfl

/-- **A scrolled input stays where it is**, if there is a column for the cursor. After the first
time the cursor is in sight, or it is behind the last character and the end of the input is
shown. -/
theorem scrollInput_scrollInput {columns : Nat} (hcolumns : 0 < columns) (e : Editor) :
    (e.scrollInput columns).scrollInput columns = e.scrollInput columns := by
  have hscroll : ((e.scrollInput columns).scrollInput columns).inputScroll =
      (e.scrollInput columns).inputScroll := by
    rw [inputScroll_scrollInput, show (e.scrollInput columns).cursor = e.cursor from rfl,
      show (e.scrollInput columns).input = e.input from rfl, inputScroll_scrollInput]
    split_ifs <;> omega
  exact congrArg (fun scroll => ({ e with inputScroll := scroll } : Editor)) hscroll

theorem tooSmall_settledIn (a : Areas) (e : Editor) : (e.settledIn a).tooSmall = false := by
  change ({ e with tooSmall := false }.settleList a.list.inner).tooSmall = false
  rw [settleList]
  split <;> rfl

theorem settledIn_settledIn {a : Areas} (ha : 0 < inputColumns a) (e : Editor) :
    (e.settledIn a).settledIn a = e.settledIn a := by
  let list := { e with tooSmall := false }.settleList a.list.inner
  have hlarge : list.tooSmall = false := tooSmall_settledIn a e
  -- the list is settled again below the scrolled input
  have hlist : ({ e.settledIn a with tooSmall := false } : Editor).settleList a.list.inner =
      e.settledIn a := by
    change ({ list with
      tooSmall := false
      inputScroll := (list.scrollInput (inputColumns a)).inputScroll
      listHeight := a.list.height } : Editor).settleList a.list.inner = _
    rw [← hlarge, settleList_scrolled, settleList_settleList]
    rfl
  rw [settledIn, hlist]
  exact congrArg (fun e : Editor => { e with listHeight := a.list.height })
    (scrollInput_scrollInput ha list)

/-- **Settling for a second frame of the same size changes nothing.** -/
theorem settledBy_settledBy (d : Division) (width height : Nat) (e : Editor) :
    (e.settledBy d width height).settledBy d width height = e.settledBy d width height := by
  have hkeeps := keepsData_settledBy d width height e
  rw [settledBy, hkeeps.helpShown, d.congr width height hkeeps.stepsHeight]
  rw [settledBy]
  split
  · rfl
  · split
    · rfl
    · next hsmall =>
      refine settledIn_settledIn ?_ e
      have hwide : minWidth ≤ width := by omega
      rw [inputColumns, Area.inner, d.input_width]
      exact Nat.lt_of_lt_of_le (by decide) (Nat.sub_le_sub_right hwide 4)

/-! ### Drawing twice -/

theorem drawBy_drawBy (d : Division) (width height : Nat) (e : Editor) :
    (e.drawBy d width height).1.drawBy d width height = e.drawBy d width height := by
  rw [drawBy, drawBy, settledBy_settledBy]

/-- **A frame leaves the data as it is, and a second frame of the same size changes nothing**: the
editor, every cell of the screen and the cursor are the ones after the first. This is so however the
screen is divided. -/
theorem draw_draw (width height : Nat) (e : Editor) :
    e.KeepsData (e.draw width height).1 ∧
      (e.draw width height).1.draw width height = e.draw width height ∧
      ∀ d : Division, e.KeepsData (e.drawBy d width height).1 ∧
        (e.drawBy d width height).1.drawBy d width height = e.drawBy d width height := by
  refine ⟨keepsData_settled width height e, ?_, fun d =>
    ⟨keepsData_settledBy d width height e, drawBy_drawBy d width height e⟩⟩
  rw [← drawBy_standard, ← drawBy_standard, drawBy_drawBy]

/-- However often a frame of one size is drawn, the editor is the one after the first frame. -/
theorem afterAll_frames (width height n : Nat) (e : Editor) :
    e.afterAll (List.replicate (n + 1) (.frame width height)) = e.after (.frame width height) := by
  induction n with
  | zero => rfl
  | succ n ih =>
    rw [List.replicate_succ', afterAll_concat, ih]
    exact settledBy_settledBy .standard width height e

end RunningTab.Editor
