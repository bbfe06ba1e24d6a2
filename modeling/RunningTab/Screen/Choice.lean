import RunningTab.Screen.Canvas

/-!
# Rows and tabs to choose from

A list shows a window of its rows that contains the chosen one, the first one if none is chosen
(`RunningTab.Screen.windowStart`). A row of tabs shows its titles side by side.
-/

namespace RunningTab.Screen

/-! ### Lists -/

/-- The first row of the window: the wanted one, moved just as far as the chosen row needs to be in
sight. -/
def windowStart (count height wanted : Nat) (chosen : Option Nat) : Nat :=
  let start := min wanted (count - 1)
  let chosen := min (chosen.getD 0) (count - 1)
  if chosen < start then chosen
  else if min count (start + height) ≤ chosen then chosen + 1 - height
  else start

/-- The row behind the last one of the window. -/
def windowEnd (count height wanted : Nat) (chosen : Option Nat) : Nat :=
  let stop := min count (min wanted (count - 1) + height)
  let chosen := min (chosen.getD 0) (count - 1)
  min (max stop (chosen + 1)) (windowStart count height wanted chosen + height)

/-- **Draws a list** of which a row may be chosen. -/
def drawList (rows : List (List Span)) (chosen : Option Nat) (wanted : Nat) (highlight : Style)
    (a : Area) (v : Canvas) : Canvas :=
  if a.width = 0 ∨ a.height = 0 ∨ rows = [] then v
  else
    let start := windowStart rows.length a.height wanted chosen
    let stop := windowEnd rows.length a.height wanted chosen
    ((rows.drop start).take (stop - start)).zipIdx.foldl
      (fun v (row, i) =>
        let v := (v.write a.x (a.y + i) a.width row).1
        if chosen = some (start + i) then v.restyle ⟨a.x, a.y + i, a.width, 1⟩ highlight
        else v) v

/-! ### Tabs -/

/-- Draws tabs from the column `x` on; `index` is the index of the first of them. -/
def drawTabsFrom (a : Area) (chosen : Nat) (highlight : Style) :
    (index x : Nat) → List (List Span) → Canvas → Canvas
  | _, _, [], v => v
  | index, x, title :: rest, v =>
    let start := x + 1
    if a.right ≤ start then v
    else
      let r := v.write start a.y (a.right - start) title
      let v := if index = chosen then
        r.1.restyle ⟨start, a.y, r.2 - start, 1⟩ highlight else r.1
      let divider := r.2 + 1
      if a.right ≤ divider ∨ rest = [] then v
      else
        let r := v.write divider a.y (a.right - divider) [⟨['│'], .plain⟩]
        drawTabsFrom a chosen highlight (index + 1) r.2 rest r.1

/-- **Draws tabs** in a row. -/
def drawTabs (titles : List (List Span)) (chosen : Nat) (highlight : Style) (a : Area)
    (v : Canvas) : Canvas :=
  if a.height = 0 then v else drawTabsFrom a chosen highlight 0 a.x titles v

end RunningTab.Screen
