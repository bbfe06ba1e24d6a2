import Mathlib.Tactic.SplitIfs
import RunningTab.Proofs.Editor.Redraw
import RunningTab.Proofs.Editor.Walk
import RunningTab.Proofs.Ledger.Selection

/-!
# Cursor, picked line and ledger in step

The editor keeps a cursor and the place of the line it edits; the ledger keeps the input and the
identifier of that line. Nothing ties them together but the actions themselves
(`RunningTab.Editor.InStep`): the cursor is inside the input, and the place is the one the ledger
edits.

One lemma for each action says that it keeps them in step. They are of three kinds. Most actions
leave the ledger and the place as they are and move the cursor (`RunningTab.Editor.InStep.of_same`);
some end the editing and put the cursor at the start (`RunningTab.Editor.inStep_cursorHome`); typing
and picking are left, which the ledger's own lemmas settle. What a whole course makes of an editor
at its start is then in step (`RunningTab.Editor.inStep_of_reachable`).
-/

namespace RunningTab.Editor

/-- **The editor is in step with its ledger.** The ledger itself is a reachable one, so that all
that is known about those can be used. -/
structure InStep (e : Editor) : Prop where
  reachable : e.ledger.Reachable
  cursor_le : e.cursor ≤ e.input.length
  edits : e.ledger.Edits e.picked

variable {e e' : Editor}

theorem InStep.numbered (h : e.InStep) : e.ledger.Numbered :=
  Ledger.numbered_of_reachable h.reachable

/-! ### The kinds of actions -/

/-- Only the ledger, the place and the cursor matter. -/
theorem InStep.of_same (h : e.InStep) (hledger : e'.ledger = e.ledger)
    (hpicked : e'.picked = e.picked) (hcursor : e'.cursor ≤ e.input.length) : e'.InStep := by
  refine ⟨?_, ?_, ?_⟩
  · rw [hledger]
    exact h.reachable
  · rw [input, hledger]
    exact hcursor
  · rw [hledger, hpicked]
    exact h.edits

/-- With the cursor at the start only the place is in question. -/
theorem inStep_cursorHome (hreachable : e.ledger.Reachable) (hedits : e.ledger.Edits e.picked) :
    e.cursorHome.InStep :=
  ⟨hreachable, Nat.zero_le _, hedits⟩

/-! ### Typing -/

theorem InStep.insertText (h : e.InStep) (t : Text) : (e.insertText t).InStep where
  reachable := h.reachable.after (.insert e.cursor t)
  cursor_le := Ledger.insert_le e.cursor t e.ledger
  edits := h.edits.insert h.numbered e.cursor t

theorem InStep.erase (h : e.InStep) (position : Nat) : (e.erase position).InStep where
  reachable := h.reachable.after (.erase position)
  cursor_le := Ledger.erase_le position e.ledger
  edits := h.edits.erase h.numbered position

theorem InStep.delete (h : e.InStep) : e.delete.InStep := by
  rw [Editor.delete]
  split
  · exact h.erase _
  · exact h

theorem InStep.paste (h : e.InStep) (t : Text) : (e.paste t).InStep := by
  rw [Editor.paste]
  split
  · exact h
  · exact h.insertText _

/-! ### Committing -/

/-- A commit that gave an identifier has ended the editing of the ledger; one that gave none has
done nothing. -/
theorem InStep.afterCommit (h : e.InStep) {r : Ledger × Option Nat} (hreachable : r.1.Reachable)
    (hr : r = (e.ledger, none) ∨ ∃ id, r.2 = some id ∧ r.1.selected = none) :
    (e.afterCommit r).InStep := by
  rcases hr with rfl | ⟨id, hid, hselected⟩
  · exact h
  · rw [Editor.afterCommit, hid]
    exact inStep_cursorHome hreachable hselected

/-- The help command clears the input of a line that is edited, and goes on editing it. -/
theorem InStep.submit (h : e.InStep) : e.submit.InStep := by
  rw [Editor.submit]
  split
  · exact h.of_same rfl rfl h.cursor_le
  · split
    -- the help is shown over a line that may still be picked
    · exact inStep_cursorHome (h.reachable.after (.edit [])) (h.edits.edit h.numbered [])
    · exact h.afterCommit (h.reachable.after .commit) (Ledger.commit_eq_or e.ledger)

theorem InStep.commitTaxed (h : e.InStep) (slot : Nat) (direction : TaxDirection) :
    (e.commitTaxed slot direction).InStep := by
  rw [Editor.commitTaxed]
  split
  · next rate _ =>
    exact h.afterCommit (h.reachable.after (.commitTaxed direction rate))
      (Ledger.commitTaxed_eq_or direction rate e.ledger)
  · exact h

/-! ### Picking lines -/

theorem InStep.release (h : e.InStep) : e.release.InStep := by
  rw [Editor.release]
  split
  · exact inStep_cursorHome (h.reachable.after .deselect) rfl
  · next hnone => exact inStep_cursorHome h.reachable (Option.not_isSome_iff_eq_none.1 hnone)

theorem InStep.pick (h : e.InStep) (index : Nat) : (e.pick index).InStep := by
  rw [Editor.pick]
  split
  · next line hline =>
    exact ⟨h.reachable.after (.select line.id), Nat.le_refl _,
      Ledger.edits_select h.numbered hline⟩
  · exact h

theorem InStep.lineUp (h : e.InStep) : e.lineUp.InStep := by
  rw [Editor.lineUp]
  split
  · exact h
  · exact (h.pick _).of_same rfl rfl (h.pick _).cursor_le

theorem InStep.lineDown (h : e.InStep) : e.lineDown.InStep := by
  rw [Editor.lineDown]
  split
  · exact h
  · split
    · exact (h.pick _).of_same rfl rfl (h.pick _).cursor_le
    · exact h.release.of_same rfl rfl h.release.cursor_le

/-! ### Pages -/

theorem InStep.turnTo (h : e.InStep) {index : Nat} (hindex : index < e.ledger.pages.length) :
    (e.turnTo index).InStep :=
  inStep_cursorHome (h.reachable.after (.turnTo index)) (Ledger.selected_turnTo hindex)

/-- There is a page, so the remainder that wraps the index around is the index of one. -/
theorem InStep.mod_length_lt (h : e.InStep) (n : Nat) :
    n % e.ledger.pages.length < e.ledger.pages.length :=
  Nat.mod_lt n (Nat.zero_lt_of_lt h.numbered.current_lt)

/-! ### Clearing and undoing -/

theorem InStep.retract (h : e.InStep) : e.retract.InStep := by
  refine inStep_cursorHome (h.reachable.after .retract) ?_
  -- the editor asks the ledger afterwards whether a line is still selected
  change e.ledger.retract.Edits (if e.ledger.retract.selected.isSome then e.picked else none)
  split
  · next hsome => exact h.edits.retract h.numbered hsome
  · next hnone => exact Option.not_isSome_iff_eq_none.1 hnone

theorem InStep.wipe (h : e.InStep) : e.wipe.InStep :=
  inStep_cursorHome (h.reachable.after .wipe) rfl

theorem InStep.undo (h : e.InStep) : e.undo.InStep := by
  rw [Editor.undo]
  split
  · exact inStep_cursorHome ((h.reachable.after .undo).after .deselect) rfl
  · exact h

/-! ### Keys, mouse and paste -/

theorem InStep.pressInHelp (h : e.InStep) (code : KeyCode) : (e.pressInHelp code).InStep := by
  unfold Editor.pressInHelp
  split <;> exact h.of_same rfl rfl h.cursor_le

theorem InStep.pressControl (h : e.InStep) (c : Char) : (e.pressControl c).InStep := by
  have hflag {e' : Editor} (hledger : e'.ledger = e.ledger) (hpicked : e'.picked = e.picked)
      (hcursor : e'.cursor = e.cursor) : e'.InStep :=
    h.of_same hledger hpicked (by rw [hcursor]; exact h.cursor_le)
  have hgst : InStep { e with ledger := e.ledger.turnGst (!e.ledger.gstMode) } :=
    ⟨h.reachable.after (.turnGst _), h.cursor_le, h.edits⟩
  rw [Editor.pressControl]
  split_ifs
  · exact hflag rfl rfl rfl
  · exact h.retract
  · exact h.wipe
  · exact h.undo
  · exact hgst
  · exact hflag rfl rfl rfl
  · exact h.insertText _
  · exact h

theorem InStep.pressFunction (h : e.InStep) (n : Nat) (shift : Bool) :
    (e.pressFunction n shift).InStep := by
  rw [Editor.pressFunction]
  split
  · exact h.commitTaxed _ _
  · split
    · exact h.commitTaxed _ _
    · split
      · exact h.of_same rfl rfl h.cursor_le
      · exact h

theorem InStep.pressInEditor (h : e.InStep) (k : Key) : (e.pressInEditor k).InStep := by
  have hstart : e.cursorHome.InStep := inStep_cursorHome h.reachable h.edits
  rw [Editor.pressInEditor]
  cases k.code with
  | char c =>
    dsimp only
    split_ifs
    · exact h.pressControl c
    · exact h
    · exact h.insertText [c]
  | function n => exact h.pressFunction n k.shift
  | enter => exact h.submit
  | backspace => exact h.erase e.cursor
  | delete => exact h.delete
  | insert => exact h
  | left =>
    dsimp only
    split
    · exact h.of_same rfl rfl (cursor_cursorTermLeft_le e)
    · exact h.of_same rfl rfl (Nat.le_trans (Nat.sub_le _ _) h.cursor_le)
  | right =>
    dsimp only
    split
    · exact h.of_same rfl rfl (cursor_cursorTermRight_le e)
    · exact h.of_same rfl rfl (Nat.min_le_right _ _)
  | up => exact h.lineUp
  | down => exact h.lineDown
  | home => exact hstart
  | toEnd => exact h.of_same rfl rfl (Nat.le_refl _)
  | pageUp => exact h.of_same rfl rfl h.cursor_le
  | pageDown => exact h.of_same rfl rfl h.cursor_le
  | tab => exact h.turnTo (h.mod_length_lt _)
  | backTab => exact h.turnTo (h.mod_length_lt _)
  | escape => exact h.release

theorem InStep.press (h : e.InStep) (k : Key) : (e.press k).InStep := by
  rw [Editor.press]
  split
  · exact h.pressInHelp k.code
  · exact h.pressInEditor k

theorem InStep.wheel (h : e.InStep) (action : MouseAction) : (e.wheel action).InStep := by
  unfold Editor.wheel
  split <;> exact h.of_same rfl rfl h.cursor_le

/-- **Events keep the editor in step.** -/
theorem InStep.handle (h : e.InStep) (event : Event) : (e.handle event).InStep := by
  cases event with
  | key k clipboard =>
    have hquiet : InStep { e with status := none } := h.of_same rfl rfl h.cursor_le
    rcases handle_key e k clipboard with ⟨said, hcopied⟩ | hpressed
    · rw [hcopied]
      exact h.of_same rfl rfl h.cursor_le
    · rw [hpressed]
      exact hquiet.press k
  | paste t =>
    rw [Editor.handle]
    split
    · exact h
    · exact h.paste t
  | mouse action => exact h.wheel action

/-! ### Frames -/

/-- **Settling for a frame keeps the editor in step**: it scrolls and measures only. -/
theorem InStep.settled (h : e.InStep) (width height : Nat) : (e.settled width height).InStep := by
  have hkeeps := keepsData_settled width height e
  refine h.of_same hkeeps.ledger hkeeps.picked ?_
  rw [hkeeps.cursor]
  exact h.cursor_le

/-! ### Courses -/

/-- The editor at its start is in step. -/
theorem inStep_ofSettings (s : Settings) : (ofSettings s).InStep where
  reachable := ⟨s.pages, s.defaultRate, [.turnGst s.gstMode], rfl⟩
  cursor_le := Nat.zero_le _
  edits := rfl

theorem InStep.after (h : e.InStep) (occurrence : Occurrence) : (e.after occurrence).InStep := by
  cases occurrence with
  | event event => exact h.handle event
  | frame width height => exact h.settled width height

theorem InStep.afterAll (h : e.InStep) (course : List Occurrence) : (e.afterAll course).InStep := by
  induction course generalizing e with
  | nil => exact h
  | cons occurrence course ih => exact ih (h.after occurrence)

/-- **Every reachable editor is in step with its ledger.** -/
theorem inStep_of_reachable (h : e.Reachable) : e.InStep := by
  obtain ⟨settings, course, rfl⟩ := h
  exact (inStep_ofSettings settings).afterAll course

/-! ### What is looked up -/

/-- The line above is on the page, if there is any. -/
theorem InStep.indexAbove_lt (h : e.InStep) (hpage : e.ledger.page ≠ []) :
    e.indexAbove < e.ledger.page.length := by
  have hpos : 0 < e.ledger.page.length := List.length_pos_iff.2 hpage
  rw [indexAbove]
  cases hpicked : e.picked with
  | none => exact Nat.sub_lt hpos Nat.one_pos
  | some i =>
    obtain ⟨line, hline, -, -⟩ : e.ledger.Edits (some i) := hpicked ▸ h.edits
    have hi : i < e.ledger.page.length := (List.getElem?_eq_some_iff.1 hline).1
    exact Nat.lt_of_le_of_lt (Nat.sub_le i 1) hi

/-- So is the line below. -/
theorem indexBelow?_lt {i : Nat} (h : e.indexBelow? = some i) : i < e.ledger.page.length := by
  rw [indexBelow?] at h
  split at h
  · split at h
    · next hlt => exact Option.some.inj h ▸ hlt
    · exact absurd h (by simp)
  · exact absurd h (by simp)

/-- **In every reachable editor the cursor is inside the input, and the picked line is the one the
ledger edits**: none exactly if none is selected there, otherwise a line of the current page,
selected by its identifier, with the input as its text. So whatever is looked up by an index is
there: the current page, the line above and the line below on it, and every character on the way of
the cursor to the next term on either side. -/
theorem picked_selected_of_reachable (h : e.Reachable) :
    e.cursor ≤ e.input.length ∧
    (e.picked = none ↔ e.ledger.selected = none) ∧
    (∀ i, e.picked = some i → ∃ line, e.ledger.page[i]? = some line ∧
      e.ledger.selected = some line.id ∧ e.input = line.expression) ∧
    e.ledger.pages[e.ledger.current]? = some e.ledger.page ∧
    (e.ledger.page ≠ [] → e.indexAbove < e.ledger.page.length) ∧
    (∀ i, e.indexBelow? = some i → i < e.ledger.page.length) ∧
    e.termLeft? = some e.cursorTermLeft.cursor ∧
    e.termRight? = some e.cursorTermRight.cursor := by
  have hstep := inStep_of_reachable h
  refine ⟨hstep.cursor_le, hstep.edits.eq_none_iff, fun i hi => ?_,
    hstep.numbered.getElem?_current, hstep.indexAbove_lt, fun i hi => indexBelow?_lt hi,
    termLeft?_eq hstep.cursor_le, termRight?_eq hstep.cursor_le⟩
  have hedits := hstep.edits
  rw [hi] at hedits
  exact hedits

/-- The line `1` is picked and cleared, and clearing once more drops the line `2` behind it: the
first line is still the one that is edited, and gets what is typed and drawn then. -/
theorem picked_selected_after_dropping :
    let key (code : KeyCode) : Occurrence := .event (.key { code := code })
    let clear : Occurrence := .event (.key (.control 'u'))
    let e := (ofSettings .standard).afterAll
      [key (.char '1'), key .enter, key (.char '2'), key .enter, key .up, key .up, clear, clear,
        key (.char '7'), .frame 80 24, key .left]
    e.picked = some 0 ∧ ∃ line, e.ledger.page[0]? = some line ∧
      e.ledger.selected = some line.id ∧ e.input = line.expression := by
  intro key clear e
  have hpicked : e.picked = some 0 := by decide +kernel
  have hreachable : e.Reachable := ⟨.standard, _, rfl⟩
  obtain ⟨-, -, hline, -⟩ := picked_selected_of_reachable hreachable
  exact ⟨hpicked, hline 0 hpicked⟩

end RunningTab.Editor
