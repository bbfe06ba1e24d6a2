import RunningTab.Editor.Help
import RunningTab.Editor.Layout
import RunningTab.Screen.Choice
import RunningTab.Screen.Paragraph

/-!
# Frames

What the settled editor looks like: a canvas and where the terminal's cursor is
(`RunningTab.Editor.paint`). `RunningTab.Editor.draw` settles and paints.
-/

namespace RunningTab

open Screen (Span Style Area Canvas Panel Paragraph Title)

/-- A drawn screen. -/
structure Frame where
  canvas : Canvas
  /-- Where the cursor is, if it is anywhere. -/
  cursor : Option (Nat × Nat)

namespace Editor

/-! ### The parts of the screen -/

/-- A title in one style. -/
def title (t : Text) (alignment : Screen.Alignment) (style : Style) : Title :=
  ⟨[⟨t, style⟩], alignment⟩

/-- A panel with a dim border. -/
def dimPanel (titles : List Title) : Panel :=
  { borderStyle := .colored .darkGray, titles := titles }

/-- Draws the pages as tabs. -/
def drawPages (a : Area) (e : Editor) (v : Canvas) : Canvas :=
  let titles := e.ledger.pages.zipIdx.map fun (page, i) =>
    [(⟨" ".toList ++ Decimal.digits (i + 1) ++ " · ".toList ++ e.settings.amount page.total ++
      " ".toList, .plain⟩ : Span)]
  let mode := if e.ledger.gstMode then " GST MODE " else " BASIC MODE "
  let panel := dimPanel [title " Pages ".toList .left .plain,
    title mode.toList .right (.colored .lightBlue)]
  let highlight : Style :=
    { foreground := some .black, background := some .lightMagenta, bold := true }
  let v := panel.draw a (v.restyle a (.colored .gray))
  Screen.drawTabs titles e.ledger.current highlight a.inner v

/-- Draws the lines of the page. -/
def drawLines (a : Area) (e : Editor) (v : Canvas) : Canvas :=
  let name := " Page ".toList ++ Decimal.digits (e.ledger.current + 1) ++ " ".toList
  let v := (dimPanel [title name .center .plain]).draw a v
  if e.ledger.page = [] then
    let note : Paragraph :=
      { lines := [[⟨"No lines yet. Type an expression and press Enter.".toList, .plain⟩]]
        alignment := .center
        ground := .colored .darkGray }
    note.draw a.inner v
  else
    let chosen := e.picked.bind fun i => e.lineStarts[i]?
    Screen.drawList (e.listRows a.inner.width) chosen e.listScroll
      { background := some .darkGray, bold := true } a.inner v

/-- How many rows of steps are out of sight when `count` rows are wanted there: a paragraph counts
them in sixteen bits, so that the count starts over. -/
def stepsScroll (count : Nat) : Nat :=
  count % 0x10000

/-- Draws the steps of the work on the input, the last ones if there are too many. -/
def drawSteps (a : Area) (e : Editor) (v : Canvas) : Canvas :=
  let lines : List (List Span) :=
    if e.steps = [] then [[⟨"No steps to show".toList, .colored .darkGray⟩]]
    else e.steps.zipIdx.map fun (step, i) =>
      [⟨step.listed (i + 1) (e.settings.amount step.result), .colored .magenta⟩]
  let text : Paragraph := { lines := lines, scroll := stepsScroll (lines.length - (a.height - 2)) }
  text.drawIn (dimPanel [title " Steps ".toList .center .plain]) a v

/-- The part of the input in sight. -/
def visibleInput (columns : Nat) (e : Editor) : Text :=
  (e.input.drop e.inputScroll).take columns

/-- The columns between the left end of the input in sight and the cursor. -/
def cursorColumns (columns : Nat) (e : Editor) : Nat :=
  Text.width ((e.visibleInput columns).take (e.cursor - e.inputScroll))

/-- A sign that there is more input than is in sight. -/
def drawMore (c : Char) (x y : Nat) (v : Canvas) : Canvas :=
  v.change x y (Screen.Cell.marked [c] (.colored .darkGray))

/-- Draws the input and its value. -/
def drawInput (a : Area) (columns : Nat) (e : Editor) (v : Canvas) : Canvas :=
  let name := match e.picked with
    | some i => " Editing line ".toList ++ Decimal.digits (i + 1) ++ " ".toList
    | none => " Expression ".toList
  let preview := if e.input = [] then []
    else " = ".toList ++ e.settings.amount e.ledger.preview ++ " ".toList
  let panel : Panel :=
    { borderStyle := .colored (if e.picked.isSome then .yellow else .darkGray)
      titles := [title name .left .plain, title preview .right (.colored .lightMagenta)] }
  let text : Paragraph :=
    { lines := [⟨"> ".toList, .plain⟩ :: Display.highlight .plain (e.visibleInput columns)] }
  let inner := a.inner
  let v := text.draw inner (panel.draw a v)
  let v := if 0 < e.inputScroll then drawMore '<' inner.x inner.y v else v
  if e.inputScroll + columns < e.input.length then drawMore '>' (inner.right - 1) inner.y v else v

/-- The keys of the tax rates, as the total's panel shows them. -/
def rateSpans (e : Editor) : List Span :=
  if e.ledger.gstMode then
    e.settings.rates.zipIdx.flatMap fun (rate, i) =>
      [⟨['F'] ++ Decimal.digits (i + 5), .colored .yellow⟩,
       ⟨" ±".toList ++ showPlain rate ++ "%  ".toList, .colored .darkGray⟩]
  else
    [⟨"F5".toList, .colored .yellow⟩,
     ⟨" ±".toList ++ showPlain e.ledger.defaultRate ++ "%".toList, .colored .darkGray⟩]

/-- Draws the grand total. -/
def drawTotal (a : Area) (e : Editor) (v : Canvas) : Canvas :=
  let text : Paragraph :=
    { lines := [[⟨e.settings.amount e.ledger.grandTotal, (Style.colored .lightGreen).strong⟩]]
      alignment := .right }
  text.drawIn (dimPanel [title " Total ".toList .left .plain, ⟨e.rateSpans, .right⟩]) a v

/-- The key hints. -/
def keyHints : List Span :=
  [("Enter", " Commit "), ("Tab", " Page "), ("Up/Down", " Edit line "), ("F5-F7", " Tax "),
    ("Ctrl+G", " GST "), ("Ctrl+Y", " Copy "), ("F1", " Help ")].flatMap fun (key, meaning) =>
    [⟨key.toList, (Style.colored .yellow).strong⟩, ⟨meaning.toList, .colored .darkGray⟩]

/-- Draws the status message or the key hints. -/
def drawStatus (a : Area) (e : Editor) (v : Canvas) : Canvas :=
  let spans := match e.status with
    | some t => [⟨t, .colored .green⟩]
    | none => keyHints
  { lines := [spans] : Paragraph }.draw a v

/-! ### Whole screens -/

/-- The screen of the settled editor. -/
def paintEditor (width height : Nat) (e : Editor) : Frame :=
  let a := e.areas width height
  let columns := inputColumns a
  let v := Canvas.blank width height
  let v := e.drawPages a.tabs v
  let v := e.drawLines a.list v
  let v := if e.stepsShown then e.drawSteps a.steps v else v
  let v := e.drawInput a.input columns v
  let v := e.drawTotal a.total v
  let v := e.drawStatus a.status v
  ⟨v, some (a.input.inner.x + 2 + e.cursorColumns columns, a.input.inner.y)⟩

/-- The screen of an editor that does not fit on it. -/
def paintTooSmall (width height : Nat) : Frame :=
  let size (w h : Nat) : Text := Decimal.digits w ++ ['x'] ++ Decimal.digits h
  let message := "Terminal too small! Min size: ".toList ++ size minWidth minHeight ++
    ". Current: ".toList ++ size width height
  let text : Paragraph :=
    { lines := [[⟨message, (Style.colored .red).strong⟩], [],
        [⟨"Please resize your terminal window".toList, .colored .yellow⟩]]
      alignment := .center
      wraps := true }
  let panel : Panel :=
    { borderStyle := .colored .red
      titles := [title " Resize Required ".toList .center .plain] }
  let v := Canvas.blank width height
  ⟨text.drawIn panel v.area v, none⟩

/-- The rows that the help is scrolled by at most. -/
def maxHelpScroll : Nat := 0xffff

/-- The help as a paragraph. -/
def helpParagraph (e : Editor) : Paragraph :=
  { lines := e.helpPage, wraps := true, scroll := min e.helpScroll maxHelpScroll }

/-- The screen of the help. -/
def paintHelp (width height : Nat) (e : Editor) : Frame :=
  let panel : Panel :=
    { border := .double
      borderStyle := .colored .yellow
      ground := { background := some .black }
      titles := [title " tabcalc Help ".toList .center .plain] }
  let v := Canvas.blank width height
  ⟨e.helpParagraph.drawIn panel v.area v, none⟩

/-- **The screen of a settled editor.** -/
def paint (width height : Nat) (e : Editor) : Frame :=
  if e.helpShown then e.paintHelp width height
  else if e.tooSmall then paintTooSmall width height
  else e.paintEditor width height

/-- **Draws a frame**: the settled editor and its screen. -/
def draw (width height : Nat) (e : Editor) : Editor × Frame :=
  let e := e.settled width height
  (e, e.paint width height)

end Editor

/-! ### What can be seen -/

/-- The cells of a row without those hidden behind a wide symbol; the first `hidden` of them are. -/
def visibleCells : (hidden : Nat) → List Screen.Cell → List Screen.Cell
  | _, [] => []
  | k + 1, _ :: cs => visibleCells k cs
  | 0, c :: cs => c :: visibleCells (Text.width c.symbol - 1) cs

/-- The cells that can be seen, row by row. -/
def Frame.rows (f : Frame) : List (List Screen.Cell) :=
  (List.range f.canvas.height).map fun y => visibleCells 0 (f.canvas.row y)

/-- **The text of a frame**, row by row. -/
def Frame.text (f : Frame) : List Text :=
  f.rows.map fun row => row.flatMap Screen.Cell.symbol

end RunningTab
