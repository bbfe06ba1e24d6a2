import Mathlib.Data.List.Induction
import RunningTab.Proofs.Editor.Redraw

/-!
# The end of the help

The help is meant to be scrolled to its last line and no further. The keys that scroll it see to
that: whatever they add or take away, the outcome is cut at the last line. The wheel does not. It
adds its three rows to whatever there is, so with fewer lines than that below the first one in sight
it goes past the end (`RunningTab.Editor.WheelsPast`), and further with every turn.

Nothing else does so. A help that is not shown is at its top, whichever way it was closed and
whichever way it will be opened again (`RunningTab.Editor.helpScroll_of_hidden`), so that of all
that can happen to an editor whose help is in its bounds only such a turn of the wheel leads out of
them (`RunningTab.Editor.helpScroll_after_le_iff`). A course keeps the help in its bounds exactly if
there is no such turn in it, and the next key that scrolls or closes the help brings it back
(`RunningTab.Editor.helpScroll_le_iff`).
-/

namespace RunningTab.Editor

/-- The index of the last line of the help. -/
def lastHelpLine (e : Editor) : Nat :=
  e.helpPage.length - 1

/-- **A turn of the wheel goes past the end of the help**: fewer lines are left below the first one
in sight than the wheel scrolls by. -/
def WheelsPast (e : Editor) (occurrence : Occurrence) : Prop :=
  occurrence = .event (.mouse .wheelDown) ∧ e.helpShown = true ∧
    e.lastHelpLine < e.helpScroll + wheelRows

/-- The keys that scroll the help or close it. -/
def movesHelp : KeyCode → Bool
  | .down | .up | .pageDown | .pageUp | .escape | .function 1 => true
  | _ => false

variable {e : Editor}

/-! ### The help that is not shown -/

theorem helpScroll_delete (e : Editor) : e.delete.helpScroll = e.helpScroll := by
  rw [delete]
  split <;> rfl

theorem helpScroll_paste (t : Text) (e : Editor) : (e.paste t).helpScroll = e.helpScroll := by
  rw [paste]
  split <;> rfl

theorem helpScroll_afterCommit (r : Ledger × Option Nat) (e : Editor) :
    (e.afterCommit r).helpScroll = e.helpScroll := by
  rw [afterCommit]
  split <;> rfl

/-- The word that shows the help shows it where it is. -/
theorem helpScroll_submit (e : Editor) : e.submit.helpScroll = e.helpScroll := by
  rw [submit]
  split
  · rfl
  · split
    · rfl
    · exact helpScroll_afterCommit _ e

theorem helpScroll_commitTaxed (slot : Nat) (direction : TaxDirection) (e : Editor) :
    (e.commitTaxed slot direction).helpScroll = e.helpScroll := by
  rw [commitTaxed]
  split
  · exact helpScroll_afterCommit _ e
  · rfl

theorem helpScroll_pick (index : Nat) (e : Editor) : (e.pick index).helpScroll = e.helpScroll := by
  rw [pick]
  split <;> rfl

theorem helpScroll_lineUp (e : Editor) : e.lineUp.helpScroll = e.helpScroll := by
  rw [lineUp]
  split
  · rfl
  · exact helpScroll_pick _ e

theorem helpScroll_lineDown (e : Editor) : e.lineDown.helpScroll = e.helpScroll := by
  rw [lineDown]
  split
  · rfl
  · split
    · exact helpScroll_pick _ e
    · rfl

theorem helpScroll_pressControl (c : Char) (e : Editor) :
    (e.pressControl c).helpScroll = e.helpScroll := by
  have hundo : e.undo.helpScroll = e.helpScroll := by
    rw [undo]
    split <;> rfl
  rw [pressControl]
  split_ifs
  all_goals first | exact hundo | rfl

/-- A help at its top stays there while it is not shown, and is opened there. -/
theorem helpScroll_pressInEditor (h : e.helpScroll = 0) (k : Key) :
    (e.pressInEditor k).helpScroll = 0 := by
  rw [pressInEditor]
  cases k.code with
  | char c =>
    dsimp only
    split_ifs
    · exact (helpScroll_pressControl c e).trans h
    · exact h
    · exact h
  | function n =>
    dsimp only
    rw [pressFunction]
    split
    · exact (helpScroll_commitTaxed _ _ e).trans h
    · split
      · exact (helpScroll_commitTaxed _ _ e).trans h
      · split
        · rfl
        · exact h
  | enter => exact (helpScroll_submit e).trans h
  | delete => exact (helpScroll_delete e).trans h
  | left => dsimp only; split <;> exact h
  | right => dsimp only; split <;> exact h
  | up => exact (helpScroll_lineUp e).trans h
  | down => exact (helpScroll_lineDown e).trans h
  | backspace | insert | home | toEnd | pageUp | pageDown | tab | backTab | escape => exact h

/-- So it does over everything that happens then. -/
theorem helpScroll_after_of_hidden (hhidden : e.helpShown = false) (htop : e.helpScroll = 0)
    (occurrence : Occurrence) : (e.after occurrence).helpScroll = 0 := by
  cases occurrence with
  | frame width height =>
    exact (keepsData_settled width height e).helpScroll.trans htop
  | event event =>
    cases event with
    | key k clipboard =>
      rw [after]
      rcases handle_key e k clipboard with ⟨said, hcopied⟩ | hpressed
      · rw [hcopied]
        exact htop
      · rw [hpressed, press, if_neg (by simp [hhidden])]
        exact helpScroll_pressInEditor (e := { e with status := none }) htop k
    | paste t =>
      rw [after, handle, if_neg (by simp [hhidden])]
      exact (helpScroll_paste t e).trans htop
    | mouse action =>
      change (e.wheel action).helpScroll = 0
      unfold wheel
      rw [hhidden]
      cases action <;> exact htop

/-! ### The help that is shown -/

/-- While the help is shown, keys scroll it or close it and do nothing else. -/
theorem after_key_of_shown (hshown : e.helpShown = true) (k : Key) (clipboard : Clipboard) :
    e.after (.event (.key k clipboard)) = { e with status := none }.pressInHelp k.code := by
  rw [after, handle, if_neg (by simp [hshown]), press, if_pos hshown]

theorem after_paste_of_shown (hshown : e.helpShown = true) (t : Text) :
    e.after (.event (.paste t)) = e := by
  rw [after, handle, if_pos hshown]

theorem helpShown_wheel (action : MouseAction) (e : Editor) :
    (e.wheel action).helpShown = e.helpShown := by
  unfold wheel
  split <;> rfl

/-- A help that is closed is closed at its top. -/
theorem helpScroll_pressInHelp_of_closed (code : KeyCode) (hshown : e.helpShown = true)
    (hclosed : (e.pressInHelp code).helpShown = false) : (e.pressInHelp code).helpScroll = 0 := by
  unfold pressInHelp at hclosed ⊢
  split at hclosed
  all_goals first | rfl | exact absurd (hshown.symm.trans hclosed) Bool.noConfusion

theorem helpScroll_after_of_closed (hshown : e.helpShown = true) (occurrence : Occurrence)
    (hclosed : (e.after occurrence).helpShown = false) : (e.after occurrence).helpScroll = 0 := by
  have hstays (h : (e.after occurrence).helpShown = e.helpShown) :
      (e.after occurrence).helpScroll = 0 :=
    absurd (hshown.symm.trans (h.symm.trans hclosed)) Bool.noConfusion
  cases occurrence with
  | frame width height => exact hstays (keepsData_settled width height e).helpShown
  | event event =>
    cases event with
    | key k clipboard =>
      rw [after_key_of_shown hshown] at hclosed ⊢
      exact helpScroll_pressInHelp_of_closed k.code hshown hclosed
    | paste t => exact hstays (by rw [after_paste_of_shown hshown])
    | mouse action => exact hstays (helpShown_wheel action e)

/-- **The keys that scroll the help or close it bring it into its bounds**, wherever it was. -/
theorem helpScroll_pressInHelp_le {code : KeyCode} (hcode : movesHelp code = true) (e : Editor) :
    (e.pressInHelp code).helpScroll ≤ e.lastHelpLine := by
  unfold pressInHelp
  unfold movesHelp at hcode
  split at hcode
  all_goals first
    | exact Nat.min_le_right ..
    | exact Nat.zero_le _
    | exact absurd hcode Bool.false_ne_true

/-- No key leads out of them. -/
theorem helpScroll_pressInHelp_le_of_le (h : e.helpScroll ≤ e.lastHelpLine) (code : KeyCode) :
    (e.pressInHelp code).helpScroll ≤ e.lastHelpLine := by
  cases hcode : movesHelp code with
  | true => exact helpScroll_pressInHelp_le hcode e
  | false =>
    unfold pressInHelp
    split
    all_goals first | exact h | exact absurd hcode Bool.noConfusion

/-- A turn of the wheel down the help adds its rows. -/
theorem helpScroll_after_wheelDown (hshown : e.helpShown = true) :
    (e.after (.event (.mouse .wheelDown))).helpScroll = e.helpScroll + wheelRows := by
  change (e.wheel .wheelDown).helpScroll = _
  unfold wheel
  rw [hshown]

/-- Nothing but that leads out of the bounds. -/
theorem helpScroll_after_le_of_shown (hshown : e.helpShown = true)
    (h : e.helpScroll ≤ e.lastHelpLine) {occurrence : Occurrence}
    (hturn : occurrence ≠ .event (.mouse .wheelDown)) :
    (e.after occurrence).helpScroll ≤ e.lastHelpLine := by
  cases occurrence with
  | frame width height =>
    exact Nat.le_trans (Nat.le_of_eq (keepsData_settled width height e).helpScroll) h
  | event event =>
    cases event with
    | key k clipboard =>
      rw [after_key_of_shown hshown]
      exact helpScroll_pressInHelp_le_of_le (e := { e with status := none }) h k.code
    | paste t => rwa [after_paste_of_shown hshown]
    | mouse action =>
      change (e.wheel action).helpScroll ≤ e.lastHelpLine
      unfold wheel
      rw [hshown]
      cases action with
      | wheelDown => exact absurd rfl hturn
      | wheelUp => exact Nat.le_trans (Nat.sub_le ..) h
      | other => exact h

/-! ### Courses -/

/-- **A help that is not shown is at its top.** -/
theorem helpScroll_of_hidden (s : Settings) (course : List Occurrence) :
    ((ofSettings s).afterAll course).helpShown = false →
      ((ofSettings s).afterAll course).helpScroll = 0 := by
  induction course using List.reverseRecOn with
  | nil => exact fun _ => rfl
  | append_singleton course occurrence ih =>
    rw [afterAll_concat]
    intro hhidden
    cases hshown : ((ofSettings s).afterAll course).helpShown with
    | false => exact helpScroll_after_of_hidden hshown (ih hshown) occurrence
    | true => exact helpScroll_after_of_closed hshown occurrence hhidden

/-- **Of all that can happen to a help in its bounds only a turn of the wheel past its end leads out
of them.** -/
theorem helpScroll_after_le_iff (hhidden : e.helpShown = false → e.helpScroll = 0)
    (h : e.helpScroll ≤ e.lastHelpLine) (occurrence : Occurrence) :
    (e.after occurrence).helpScroll ≤ e.lastHelpLine ↔ ¬ e.WheelsPast occurrence := by
  cases hshown : e.helpShown with
  | false =>
    refine iff_of_true ?_ fun hpast => absurd (hshown.symm.trans hpast.2.1) Bool.noConfusion
    rw [helpScroll_after_of_hidden hshown (hhidden hshown)]
    exact Nat.zero_le _
  | true =>
    by_cases hturn : occurrence = .event (.mouse .wheelDown)
    · subst hturn
      rw [helpScroll_after_wheelDown hshown, WheelsPast, ← Nat.not_lt]
      exact not_congr ⟨fun hlt => ⟨rfl, hshown, hlt⟩, fun hpast => hpast.2.2⟩
    · exact iff_of_true (helpScroll_after_le_of_shown hshown h hturn) fun hpast => hturn hpast.1

/-- **The help stays in its bounds exactly as long as the wheel is not turned past its end.** On the
way along a course its first line in sight is always one of its lines exactly if no turn of the
wheel goes past the end. At any time a help that is not shown is at its top, and a key that scrolls
or closes one that is shown brings it into its bounds. -/
theorem helpScroll_le_iff (s : Settings) (course : List Occurrence) :
    let e := (ofSettings s).afterAll
    ((∀ before, before <+: course → (e before).helpScroll ≤ (e before).lastHelpLine) ↔
      ∀ before occurrence, before ++ [occurrence] <+: course →
        ¬ (e before).WheelsPast occurrence) ∧
    ((e course).helpShown = false → (e course).helpScroll = 0) ∧
    ∀ (k : Key) (clipboard : Clipboard), (e course).helpShown = true → movesHelp k.code = true →
      ((e course).after (.event (.key k clipboard))).helpScroll ≤ (e course).lastHelpLine := by
  intro e
  refine ⟨⟨fun h before occurrence hbefore => ?_, fun h before hbefore => ?_⟩,
    helpScroll_of_hidden s course, fun k clipboard hshown hk => ?_⟩
  · have hshorter : before <+: course := (List.prefix_append ..).trans hbefore
    have hafter := h _ hbefore
    change ((ofSettings s).afterAll _).helpScroll ≤ _ at hafter
    rw [afterAll_concat] at hafter
    exact (helpScroll_after_le_iff (helpScroll_of_hidden s before) (h before hshorter)
      occurrence).1 hafter
  · induction before using List.reverseRecOn with
    | nil => exact Nat.zero_le _
    | append_singleton before occurrence ih =>
      have hshorter : before <+: course := (List.prefix_append ..).trans hbefore
      change ((ofSettings s).afterAll _).helpScroll ≤ _
      rw [afterAll_concat]
      exact (helpScroll_after_le_iff (helpScroll_of_hidden s before) (ih hshorter)
        occurrence).2 (h before occurrence hbefore)
  · rw [after_key_of_shown hshown]
    exact helpScroll_pressInHelp_le hk _

/-- **The wheel scrolls the help past its end**: of the thirty-eight lines of the help the last one
has the index thirty-seven, and thirteen turns of the wheel scroll to thirty-nine. -/
theorem helpScroll_after_thirteen_turns :
    let e := (ofSettings .standard).afterAll
      (.event (.key { code := .function 1 }) ::
        List.replicate 13 (.event (.mouse .wheelDown)))
    e.Reachable ∧ e.helpScroll = 39 ∧ e.lastHelpLine = 37 :=
  ⟨⟨.standard, _, rfl⟩, by rfl, by rfl⟩

end RunningTab.Editor
