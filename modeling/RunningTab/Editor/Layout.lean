import RunningTab.Display.Highlight
import RunningTab.Display.Wrap
import RunningTab.Editor.Basic
import RunningTab.Screen.Canvas

/-!
# What a frame decides

Before a frame is painted, the editor settles what depends on the size of the screen
(`RunningTab.Editor.settled`): whether the screen is large enough, where each line begins in the
list, and how far the list and the input are scrolled. Painting then only reads the settled editor,
so a second frame of the same size looks like the first.
-/

namespace RunningTab.Editor

open Screen (Span Style Area)

/-! ### The areas of the screen -/

/-- The least width of a screen that the editor is drawn on. -/
def minWidth : Nat := 50

/-- The least height of a screen that the editor is drawn on. -/
def minHeight : Nat := 16

/-- The most steps that are in sight. -/
def maxStepRows : Nat := 8

/-- The height of the panel of steps, if it is shown. -/
def stepsHeight (e : Editor) : Nat :=
  if e.stepsShown then max 1 (min e.steps.length maxStepRows) + 2 else 0

/-- The areas of a screen, from top to bottom. -/
structure Areas where
  tabs : Area
  list : Area
  steps : Area
  input : Area
  total : Area
  status : Area

/-- The areas of a screen: the list gets what the others leave. This is meant for screens on which
the parts have room, three rows for the list among them: `13 + e.stepsHeight ≤ height`. Every screen
that is large enough has it as long as no steps are shown. On a lower screen the parts are placed as
if it had more rows, the last of them below its end, and nothing is said of how they would share the
rows there are. -/
def areas (width height : Nat) (e : Editor) : Areas :=
  let list := height - (10 + e.stepsHeight)
  let below := 3 + list + e.stepsHeight
  { tabs := ⟨0, 0, width, 3⟩
    list := ⟨0, 3, width, list⟩
    steps := ⟨0, 3 + list, width, e.stepsHeight⟩
    input := ⟨0, below, width, 3⟩
    total := ⟨0, below + 3, width, 3⟩
    status := ⟨0, below + 6, width, 1⟩ }

/-! ### The rows of the list -/

/-- The rows of the tax of a line: the two shares, the whole tax, and the total. -/
def breakdownRows (s : Settings) (line : Line) (tax : LineTax) : List (List Span) :=
  let row (label value : Text) (style : Style) : List Span :=
    [⟨"    ".toList ++ label ++ ": ".toList, style⟩, ⟨value, style⟩]
  let percent (x : Float) : Text := " (".toList ++ showPlain x ++ "%)".toList
  let share := tax.centralShare
  let whole := match tax.direction with
    | .add => "GST".toList
    | .remove => "GST incl.".toList
  [row ("CGST".toList ++ percent share.1) (s.amount share.2) (.colored .darkGray),
   row ("SGST".toList ++ percent share.1) (s.amount share.2) (.colored .darkGray),
   row (whole ++ percent tax.breakdown.rate) (s.amount tax.breakdown.amount)
     (.colored .lightBlue),
   row "Item Total".toList (s.amount line.result) Style.plain.strong]

/-- The amount in the first row of a line: its base, if it is taxed. -/
def shownAmount (line : Line) : Float :=
  match line.tax with
  | some tax => tax.breakdown.base
  | none => line.result

/-- The rows of the expression of a line, the amount in the first of them. -/
def expressionRows (s : Settings) (width : Nat) (isPicked : Bool) (line : Line) :
    List (List Span) :=
  let base := Style.colored (if isPicked then .yellow else .cyan)
  (Display.wrap width (Display.spaceOut line.expression)).zipIdx.map fun (t, i) =>
    let spans := Display.highlight base t
    if i = 0 then
      ⟨"> ".toList, .colored .green⟩ :: spans ++
        [⟨" = ".toList, .colored .gray⟩,
         ⟨s.amount (shownAmount line), (Style.colored .lightMagenta).strong⟩]
    else ⟨"  ".toList, .plain⟩ :: spans

/-- The rows of a line. -/
def lineRows (s : Settings) (width : Nat) (isPicked : Bool) (line : Line) : List (List Span) :=
  expressionRows s width isPicked line ++
    match line.tax with
    | some tax => breakdownRows s line tax
    | none => []

/-- The rows of each line of the page, in an area of the given width. -/
def rowsByLine (width : Nat) (e : Editor) : List (List (List Span)) :=
  e.ledger.page.zipIdx.map fun (line, i) =>
    lineRows e.settings (width - 4) (e.picked == some i) line

/-- The rows of the list. -/
def listRows (width : Nat) (e : Editor) : List (List Span) :=
  (e.rowsByLine width).flatten

/-- The index of the first row of each line, the first of them having the index `first`. -/
def startsFrom (first : Nat) : List (List (List Span)) → List Nat
  | [] => []
  | rows :: rest => first :: startsFrom (first + rows.length) rest

/-! ### Settling -/

/-- Settles the list in an area inside its border. -/
def settleList (a : Area) (e : Editor) : Editor :=
  if e.ledger.page = [] then e
  else
    let count := (e.listRows a.width).length
    let scroll := if e.toBottom then count - a.height else e.listScroll
    { e with
      lineStarts := startsFrom 0 (e.rowsByLine a.width)
      toBottom := false
      listScroll := min scroll (count - 1) }

/-- The columns of the input in sight. -/
def inputColumns (a : Areas) : Nat :=
  a.input.inner.width - 2

/-- **The editor settled for a frame** of the given size. -/
def settled (width height : Nat) (e : Editor) : Editor :=
  if e.helpShown then e
  else if width < minWidth ∨ height < minHeight then { e with tooSmall := true }
  else
    let a := e.areas width height
    let e := { e with tooSmall := false }.settleList a.list.inner
    { e.scrollInput (inputColumns a) with listHeight := a.list.height }

end RunningTab.Editor
