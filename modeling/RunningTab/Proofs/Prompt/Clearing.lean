import RunningTab.Proofs.Ledger.TakingBack
import RunningTab.Proofs.Prompt.Recall

/-!
# Clearing at the prompt

The line `clear` is meant for the whole tab. What it does is to wipe the ledger, and a wipe is of
one page: the current one is left without lines, and the others keep theirs
(`RunningTab.Ledger.pages_wipe`). So the tab is empty afterwards exactly if nothing was on any other
page (`RunningTab.Prompt.clear_then_undo`).

Nothing is lost by it. The snapshot before a wipe is of all pages, and between two lines of a
session neither pages nor snapshots change, whatever is typed
(`RunningTab.Prompt.exists_ledger_afterAll`); so if the next line is `undo`, all pages are as they
were.
-/

namespace RunningTab

namespace Ledger

variable {l : Ledger}

/-- **A wipe empties the current page** and leaves the others as they are. -/
theorem pages_wipe (l : Ledger) : l.wipe.pages = l.pages.set l.current [] := by
  change l.pages.modify l.current (fun _ => []) = _
  refine List.ext_getElem? fun i => ?_
  rw [List.getElem?_modify, List.getElem?_set]
  by_cases hi : l.current = i
  · subst hi
    cases hpage : l.pages[l.current]? with
    | none => simp [List.getElem?_eq_none_iff.1 hpage]
    | some page => simp [(List.getElem?_eq_some_iff.1 hpage).1]
  · simp [hi]

/-- Wiping the current page empties the tab if the other pages are empty, and only then. -/
theorem forall_pages_wipe_iff (hl : l.Numbered) :
    (∀ page ∈ l.wipe.pages, page = []) ↔
      ∀ i page, l.pages[i]? = some page → i ≠ l.current → page = [] := by
  rw [pages_wipe]
  constructor
  · intro h i page hpage hi
    refine h page (List.mem_of_getElem? (i := i) ?_)
    rwa [List.getElem?_set_ne hi.symm]
  · intro h page hmem
    obtain ⟨i, hpage⟩ := List.getElem?_of_mem hmem
    by_cases hi : i = l.current
    · subst hi
      rw [List.getElem?_set_self hl.current_lt] at hpage
      exact (Option.some.inj hpage).symm
    · rw [List.getElem?_set_ne (Ne.symm hi)] at hpage
      exact h i page hpage hi

end Ledger

namespace Prompt

variable {p : Prompt} {k : Key} {l : Ledger} {t : Text}

/-- **Keys that hand no line over** change the input of the ledger at most. -/
theorem exists_ledger_afterAll (hselected : p.ledger.selected = none) {keys : List Key}
    (hquiet : p.carriedOut keys = []) :
    ∃ x, (p.afterAll keys).ledger = { p.ledger with input := x } := by
  induction keys generalizing p with
  | nil => exact ⟨p.ledger.input, rfl⟩
  | cons k keys ih =>
    rw [carriedOut, List.append_eq_nil_iff, Option.toList_eq_nil_iff, Option.map_eq_none_iff]
      at hquiet
    obtain ⟨x, hx⟩ := exists_ledger_press hselected hquiet.1
    obtain ⟨y, hy⟩ := ih (p := (p.press k).1) (by rw [hx]; exact hselected) hquiet.2
    rw [hx] at hy
    exact ⟨y, hy⟩

/-- **The line `clear` empties the current page, and the line `undo` right after it brings all pages
back.** The input is empty after `clear`, and the page is the same as before; there are no lines on
it, and those of the other pages are still there. So there are no lines at all exactly if there were
none on the other pages. Whatever keys are pressed then, if the next line that is carried out is
`undo`, the pages are again those before `clear`. -/
theorem clear_then_undo (hp : p.Reachable) (hover : p.handedOver? k = some (l, t))
    (hclear : Command.ofLine t = .clear) :
    let q := (p.press k).1
    q.ledger.input = [] ∧ q.ledger.current = p.ledger.current ∧
      q.ledger.pages = p.ledger.pages.set p.ledger.current [] ∧
      ((∀ page ∈ q.ledger.pages, page = []) ↔
        ∀ i page, p.ledger.pages[i]? = some page → i ≠ p.ledger.current → page = []) ∧
      ∀ keys k' l' t', q.carriedOut keys = [] →
        (q.afterAll keys).handedOver? k' = some (l', t') → Command.ofLine t' = .undo →
          ((q.afterAll keys).press k').1.ledger.pages = p.ledger.pages := by
  intro q
  have hidle := idle_of_reachable hp
  have hlines : l = { p.ledger with input := [] } :=
    (handedOver?_eq_some hover).1.trans (Ledger.edit_of_selected_eq_none hidle.selected [])
  have hnumbered := Ledger.numbered_of_reachable hidle.reachable
  have hq : q.ledger = p.ledger.wipe := by
    have hledger := (ledger_press_of_handedOver? hover).1
    rw [submitLine, hclear, hlines] at hledger
    exact hledger
  refine ⟨by rw [hq]; rfl, by rw [hq]; rfl, by rw [hq, Ledger.pages_wipe],
    by rw [hq]; exact Ledger.forall_pages_wipe_iff hnumbered, ?_⟩
  intro keys k' l' t' hquiet hover' hundo
  obtain ⟨x, hx⟩ := exists_ledger_afterAll (p := q) (by rw [hq]; rfl) hquiet
  have hlines' : l' = { p.ledger.wipe with input := [] } := by
    rw [(handedOver?_eq_some hover').1, hx, hq]
    exact Ledger.edit_of_selected_eq_none rfl []
  rw [(ledger_press_of_handedOver? hover').1, submitLine, hundo, hlines']
  exact Ledger.pages_undo { p.ledger.wipe with input := [] }

/-- Two lines on the first page are cleared, and an `undo` from the beginning of the session is
recalled and carried out: both lines are back. -/
theorem clear_then_undo_recalled :
    let type (t : Text) : List Key := t.map Key.plain
    let key (code : KeyCode) : Key := { code := code }
    let p := (start .standard 1).1.afterAll
      (type "undo".toList ++ key .enter :: type "7".toList ++ key .enter :: type "8@+".toList ++
        key .enter :: type "CLEAR ".toList)
    let q := (p.press (key .enter)).1
    let recalling := [key .up, key .up, key .up, key .up]
    p.Reachable ∧ (∃ l, p.handedOver? (key .enter) = some (l, "CLEAR".toList)) ∧
      p.ledger.pages.map (List.map Line.expression) = [["7".toList, "8".toList], [], [], []] ∧
      q.ledger.pages.map (List.map Line.expression) = [[], [], [], []] ∧
      (q.afterAll recalling).line.text = "undo".toList ∧
      ((q.afterAll recalling).press (key .enter)).1.ledger.pages = p.ledger.pages := by
  intro type key p q recalling
  have hp : p.Reachable := ⟨.standard, 1, _, rfl⟩
  have hover : p.handedOver? (key .enter) = some (p.ledger.edit [], "CLEAR".toList) := by
    have htext : Text.trim p.line.text = "CLEAR".toList := by decide +kernel
    rw [handedOver?, if_neg (by decide +kernel), htext]
  have hover' : (q.afterAll recalling).handedOver? (key .enter) =
      some ((q.afterAll recalling).ledger.edit [], "undo".toList) := by
    have htext : Text.trim (q.afterAll recalling).line.text = "undo".toList := by decide +kernel
    rw [handedOver?, if_neg (by decide +kernel), htext]
  obtain ⟨-, -, hpages, -, hback⟩ := clear_then_undo hp hover (by decide)
  exact ⟨hp, ⟨_, hover⟩, by decide +kernel, by rw [hpages]; decide +kernel, by decide +kernel,
    hback recalling _ _ _ (by decide +kernel) hover' (by decide)⟩

/-- **What is on the other pages is not cleared**: with a line on the first page and one on the
second, `clear` on the second page leaves the line of the first. -/
theorem line_left_by_clear :
    let type (t : Text) : List Key := t.map Key.plain
    let key (code : KeyCode) : Key := { code := code }
    let p := (start .standard 1).1.afterAll
      (type "7".toList ++ key .enter :: type "page 2".toList ++ key .enter :: type "8".toList ++
        key .enter :: type "clear".toList)
    p.Reachable ∧ (∃ l, p.handedOver? (key .enter) = some (l, "clear".toList)) ∧
      Command.ofLine "clear".toList = .clear ∧
      (p.press (key .enter)).1.ledger.pages.map (List.map Line.expression) =
        [["7".toList], [], [], []] ∧
      ¬ ∀ page ∈ (p.press (key .enter)).1.ledger.pages, page = [] := by
  intro type key p
  have hleft : (p.press (key .enter)).1.ledger.pages.map (List.map Line.expression) =
      [["7".toList], [], [], []] := by decide +kernel
  have hover : p.handedOver? (key .enter) = some (p.ledger.edit [], "clear".toList) := by
    have htext : Text.trim p.line.text = "clear".toList := by decide +kernel
    rw [handedOver?, if_neg (by decide +kernel), htext]
  refine ⟨⟨.standard, 1, _, rfl⟩, ⟨_, hover⟩, by decide, hleft, fun hempty => ?_⟩
  have hnone : (p.press (key .enter)).1.ledger.pages.map (List.map Line.expression) =
      (p.press (key .enter)).1.ledger.pages.map fun _ => [] :=
    List.map_congr_left fun page hpage => by rw [hempty page hpage]; rfl
  rw [hleft] at hnone
  have hfirst := congrArg List.head? hnone
  rw [List.head?_map] at hfirst
  cases hpages : (p.press (key .enter)).1.ledger.pages.head? <;> rw [hpages] at hfirst <;>
    cases hfirst

end Prompt

end RunningTab
