import RunningTab.Expr.Evaluate
import RunningTab.Tax

/-!
# The ledger

Pages of committed lines, and one input. While no line is selected the input is a line in
the making, whose value already counts towards the grand total; while a line is selected,
every edit of the input goes straight into that line, which then loses its tax.

Operations that add, replace or drop whole lines first take a snapshot of all pages; the
last fifty snapshots can be restored one after the other (`RunningTab.Ledger.undo`).
Identifiers are handed out in order and never again, restored pages or not.
-/

namespace RunningTab

/-! ### Lines and pages -/

/-- A committed line. -/
structure Line where
  /-- The identifier, a number without bounds; one of sixty-four bits would do for as many commits as
  there can be. -/
  id : Nat
  expression : Text
  result : Float
  tax : Option LineTax

/-- A page is the list of its lines, the oldest first. -/
abbrev Page := List Line

namespace Page

/-- The sum of the results from the first line on; the empty page sums to negative zero,
the one number that changes nothing it is added to. -/
def total (p : Page) : Float :=
  p.foldl (fun sum line => sum + line.result) (-0.0)

/-- The line with an identifier. -/
def line? (id : Nat) (p : Page) : Option Line :=
  p.find? fun line => line.id == id

/-- The page with the line of an identifier changed. -/
def amend (id : Nat) (f : Line → Line) : Page → Page
  | [] => []
  | line :: rest => if line.id = id then f line :: rest else line :: amend id f rest

end Page

/-- **The ledger.** -/
structure Ledger where
  pages : List Page
  /-- The index of the page that is looked at. -/
  current : Nat
  input : Text
  /-- The identifier of the line that the input edits. -/
  selected : Option Nat
  /-- The identifier of the next line. It never starts over; one of sixty-four bits would, but only
  after `2 ^ 64` commits. -/
  nextId : Nat
  gstMode : Bool
  /-- The rate of a tax without one, in percent. -/
  defaultRate : Float
  /-- The pages as they were, the latest snapshot first. -/
  snapshots : List (List Page)

namespace Ledger

/-- How many snapshots are kept. -/
def snapshotLimit : Nat := 50

/-- The ledger with empty pages, at least one. -/
def blank (pageCount : Nat) (defaultRate : Float) : Ledger where
  pages := List.replicate (max pageCount 1) []
  current := 0
  input := []
  selected := none
  nextId := 1
  gstMode := false
  defaultRate := defaultRate
  snapshots := []

/-! ### Views -/

/-- The page that is looked at. -/
def page (l : Ledger) : Page :=
  l.pages.getD l.current []

/-- The selected line, if the current page has it. -/
def editedLine? (l : Ledger) : Option Line :=
  l.selected.bind fun id => l.page.line? id

/-- The value of the input, zero for an empty one. -/
def preview (l : Ledger) : Float :=
  if l.input = [] then 0.0 else Expr.evaluate l.input

/-- The total of the current page. -/
def pageTotal (l : Ledger) : Float :=
  l.page.total

/-- **The grand total**: the page, and the input unless it is the text of a selected line,
which the page counts already. -/
def grandTotal (l : Ledger) : Float :=
  match l.selected with
  | some _ => l.pageTotal
  | none => l.pageTotal + l.preview

/-! ### Parts of operations -/

/-- The ledger with the current page changed. -/
def onPage (f : Page → Page) (l : Ledger) : Ledger :=
  { l with pages := l.pages.modify l.current f }

/-- The ledger after a snapshot of its pages, the oldest one dropped if there are too
many. -/
def snapshot (l : Ledger) : Ledger :=
  { l with snapshots := (l.pages :: l.snapshots).take snapshotLimit }

/-- The ledger with an empty input and nothing selected. -/
def released (l : Ledger) : Ledger :=
  { l with input := [], selected := none }

/-! ### Editing the input -/

/-- Replaces the input; a selected line follows and loses its tax. -/
def edit (t : Text) (l : Ledger) : Ledger :=
  let l := { l with input := t }
  match l.editedLine? with
  | some line =>
    l.onPage (Page.amend line.id fun line =>
      { line with expression := t, result := Expr.evaluate t, tax := none })
  | none => l

/-- Inserts a text before the character at `position`, at the end if there is none; also
the position after it. -/
def insert (position : Nat) (t : Text) (l : Ledger) : Ledger × Nat :=
  let position := min position l.input.length
  (l.edit (l.input.take position ++ t ++ l.input.drop position), position + t.length)

/-- Deletes the character before `position`, the last one if `position` is beyond the end;
also the position of the gap. -/
def erase (position : Nat) (l : Ledger) : Ledger × Nat :=
  match min position l.input.length with
  | 0 => (l, 0)
  | before + 1 => (l.edit (l.input.take before ++ l.input.drop (before + 1)), before)

/-! ### Committing -/

/-- A new line at the end of the current page. -/
def append (expression : Text) (result : Float) (tax : Option LineTax) (l : Ledger) : Ledger :=
  { l.onPage (· ++ [⟨l.nextId, expression, result, tax⟩]) with nextId := l.nextId + 1 }

/-- Ends the editing of a selected line, or appends the input as a new line; also the
identifier of that line. -/
def commit (l : Ledger) : Ledger × Option Nat :=
  match l.selected with
  | some id => (l.released, some id)
  | none =>
    if l.input = [] then (l, none)
    else
      ((l.snapshot.append l.input (Expr.evaluate l.input) none).released, some l.nextId)

/-- Takes the input as a base amount and commits it with tax, in place of the selected line
or as a new one; also the identifier of that line. -/
def commitTaxed (direction : TaxDirection) (rate : Option Float) (l : Ledger) :
    Ledger × Option Nat :=
  if l.input = [] then (l, none)
  else
    let taxed := withTax (Expr.evaluate l.input) (rate.getD l.defaultRate) direction
    let tax : LineTax := ⟨direction, taxed.2⟩
    match l.editedLine? with
    | some line =>
      ((l.snapshot.onPage (Page.amend line.id fun _ =>
        ⟨line.id, l.input, taxed.1, some tax⟩)).released, some line.id)
    | none => ((l.snapshot.append l.input taxed.1 (some tax)).released, some l.nextId)

/-! ### Selecting -/

/-- Selects a line of the current page for editing; also whether there is one. -/
def select (id : Nat) (l : Ledger) : Ledger × Bool :=
  match l.page.line? id with
  | some line => ({ l with input := line.expression, selected := some id }, true)
  | none => (l, false)

/-- Drops the input and the selection. -/
def deselect (l : Ledger) : Ledger :=
  l.released

/-! ### Clearing -/

/-- Clears the input; if it is empty, drops the last line of the current page. -/
def retract (l : Ledger) : Ledger :=
  if l.input ≠ [] then l.edit []
  else
    match l.page.getLast? with
    | none => l
    | some line =>
      let dropped := l.snapshot.onPage List.dropLast
      if l.selected = some line.id then { dropped with selected := none } else dropped

/-- Drops all lines of the current page, the input and the selection. -/
def wipe (l : Ledger) : Ledger :=
  (l.snapshot.onPage fun _ => []).released

/-! ### Turning pages -/

/-- Turns to a page; also whether there is one with that index. -/
def turnTo (index : Nat) (l : Ledger) : Ledger × Bool :=
  if index < l.pages.length then ({ l with current := index }.released, true) else (l, false)

/-- Turns to the next page. -/
def nextPage (l : Ledger) : Ledger × Bool :=
  l.turnTo (l.current + 1)

/-- Turns to the previous page. -/
def previousPage (l : Ledger) : Ledger × Bool :=
  match l.current with
  | 0 => (l, false)
  | before + 1 => l.turnTo before

/-! ### Undoing -/

/-- Restores the latest snapshot; a selection whose line is gone is given up. Also whether
there was one. -/
def undo (l : Ledger) : Ledger × Bool :=
  match l.snapshots with
  | [] => (l, false)
  | pages :: rest =>
    let restored := { l with pages := pages, snapshots := rest }
    if restored.editedLine?.isSome then (restored, true)
    else ({ restored with selected := none }, true)

/-! ### Tax modes -/

/-- Turns the tax mode with several rates on or off. -/
def turnGst (on : Bool) (l : Ledger) : Ledger :=
  { l with gstMode := on }

end Ledger

end RunningTab
