import Mathlib.Tactic.SplitIfs
import RunningTab.Proofs.Editor.InStep
import RunningTab.Proofs.Ledger.Undoing

/-!
# Looking around

Walking over the lines of a page loads each of them into the input, and the input is what edits
lines. That a walk nevertheless leaves every line as it is rests on the way a line gets there: it is
selected, which sets the input directly, and not edited, which would take its tax away. Here is what
may happen to an editor without a trace on the pages or among the snapshots
(`RunningTab.Editor.looks`): whatever moves, scrolls, turns a page, shows or reads the help, and the
enter key over a picked line, which only puts the line down again. What is allowed depends on the
editor as it is then, so a course of such occurrences is defined along with the editors that it
leads through (`RunningTab.Editor.looksAround`).

Typing is the other side: it goes into the picked line and nowhere else
(`RunningTab.Ledger.ChangesAt`).
-/

namespace RunningTab

/-! ### A line changed at its place -/

/-- Changing the line with the identifier of the line at a place is writing to the place. -/
theorem Page.amend_eq_set {p : Page} (hp : (p.map Line.id).Pairwise (· < ·)) {i : Nat}
    {line : Line} (h : p[i]? = some line) (f : Line → Line) :
    p.amend line.id f = p.set i (f line) := by
  induction p generalizing i with
  | nil => exact absurd h (by simp)
  | cons first p ih =>
    obtain ⟨hfirst, hrest⟩ := List.pairwise_cons.1 hp
    cases i with
    | zero =>
      obtain rfl : first = line := by simpa using h
      rw [Page.amend, if_pos rfl, List.set_cons_zero]
    | succ i =>
      rw [List.getElem?_cons_succ] at h
      have hlt : first.id < line.id :=
        hfirst line.id (List.mem_map_of_mem (List.mem_of_getElem? h))
      rw [Page.amend, if_neg (Nat.ne_of_lt hlt), List.set_cons_succ, ih hrest h]

/-! ### Ledgers with the same tab -/

namespace Ledger

/-- **Two ledgers have the same tab**: the same pages and the same snapshots of them. -/
structure SameTab (l l' : Ledger) : Prop where
  pages : l'.pages = l.pages
  snapshots : l'.snapshots = l.snapshots

theorem SameTab.refl (l : Ledger) : l.SameTab l :=
  ⟨rfl, rfl⟩

theorem SameTab.trans {l l' l'' : Ledger} (h : l.SameTab l') (h' : l'.SameTab l'') :
    l.SameTab l'' :=
  ⟨h'.pages.trans h.pages, h'.snapshots.trans h.snapshots⟩

/-- Selecting a line sets the input and leaves the line as it is. -/
theorem sameTab_select (id : Nat) (l : Ledger) : l.SameTab (l.select id).1 := by
  rw [select]
  split <;> exact ⟨rfl, rfl⟩

theorem sameTab_turnTo (index : Nat) (l : Ledger) : l.SameTab (l.turnTo index).1 := by
  rw [turnTo]
  split <;> exact ⟨rfl, rfl⟩

/-- A commit with a line selected puts the line down. -/
theorem sameTab_commit {l : Ledger} (h : l.selected ≠ none) : l.SameTab l.commit.1 := by
  rw [commit]
  split
  · exact ⟨rfl, rfl⟩
  · next hnone => exact absurd hnone h

/-! ### Changes of one line -/

/-- **A ledger changes at a place at most**: with none, the pages stay the same; otherwise the line
at the place of the current page may become another with its identifier. The snapshots stay. -/
structure ChangesAt (picked : Option Nat) (l l' : Ledger) : Prop where
  snapshots : l'.snapshots = l.snapshots
  pages_none : picked = none → l'.pages = l.pages
  pages_some : ∀ i, picked = some i → ∃ line new : Line, l.page[i]? = some line ∧
    new.id = line.id ∧ l'.pages = l.pages.set l.current (l.page.set i new)

variable {l : Ledger} {picked : Option Nat}

/-- What is written to its own place changes nothing. -/
theorem set_of_getElem? {α : Type} {xs : List α} {i : Nat} {x : α} (h : xs[i]? = some x) :
    xs.set i x = xs := by
  obtain ⟨hi, rfl⟩ := List.getElem?_eq_some_iff.1 h
  exact List.set_getElem_self hi

theorem Edits.changesAt_self (hl : l.Numbered) (h : l.Edits picked) : l.ChangesAt picked l := by
  refine ⟨rfl, fun _ => rfl, fun i hi => ?_⟩
  subst hi
  obtain ⟨line, hline, -, -⟩ := h
  exact ⟨line, line, hline, rfl,
    by rw [set_of_getElem? hline, set_of_getElem? hl.getElem?_current]⟩

/-- **An edit changes the line at the place at most.** -/
theorem Edits.changesAt_edit (hl : l.Numbered) (h : l.Edits picked) (t : Text) :
    l.ChangesAt picked (l.edit t) := by
  refine ⟨snapshots_edit t l, fun hnone => ?_, fun i hi => ?_⟩
  · rw [edit_of_selected_eq_none (h.eq_none_iff.1 hnone)]
  · subst hi
    obtain ⟨line, hline, hselected, -⟩ := h
    refine ⟨line, { line with expression := t, result := Expr.evaluate t, tax := none }, hline,
      rfl, ?_⟩
    rw [edit_of_getElem? hl hline hselected]
    change l.pages.modify l.current _ = _
    rw [List.modify_eq_set]
    exact congrArg (l.pages.set l.current) (Page.amend_eq_set hl.page_increasing.1 hline _)

end Ledger

/-! ### What may happen -/

namespace Editor

/-- **Keys that only look**: those that move the cursor or walk over the lines, scroll, end the
editing, turn a page, show the help, and switch the tax mode or the steps. -/
def looking (k : Key) : Bool :=
  match k.code with
  | .up | .down | .left | .right | .home | .toEnd | .pageUp | .pageDown | .escape | .tab
  | .backTab | .function 1 => true
  | .char c => k.ctrl && (c == 'g' || c == 'd')
  | _ => false

/-- The picked line. -/
def pickedLine? (e : Editor) : Option Line :=
  e.picked.bind fun i => e.ledger.page[i]?

/-- **What happens to an editor without a trace**: frames and the mouse, keys that only look, all
keys while the help is shown, and the enter key over a picked line whose text is not the word that
shows the help. -/
def looks (e : Editor) : Occurrence → Bool
  | .frame _ _ => true
  | .event (.mouse _) => true
  | .event (.paste _) => e.helpShown
  | .event (.key k _) =>
    e.helpShown || looking k ||
      (k.code == .enter &&
        e.pickedLine?.any fun line => Text.lower (Text.trim line.expression) != "help".toList)

/-- A course of such occurrences, each as the editor is then. -/
def looksAround (e : Editor) : List Occurrence → Bool
  | [] => true
  | occurrence :: course => e.looks occurrence && (e.after occurrence).looksAround course

/-- **Events that edit the input**: a typed character, a paste, the parenthesis key, and the two
keys that delete. -/
def typing : Event → Bool
  | .key k _ =>
    match k.code with
    | .char c => if k.ctrl then c == 'p' else !k.alt
    | .backspace | .delete => true
    | _ => false
  | .paste _ => true
  | .mouse _ => false

variable {e : Editor}

/-! ### Looking -/

open Ledger (SameTab)

theorem sameTab_release (e : Editor) : e.ledger.SameTab e.release.ledger := by
  rw [release]
  dsimp only [cursorHome]
  split <;> exact ⟨rfl, rfl⟩

theorem sameTab_pick (e : Editor) (index : Nat) : e.ledger.SameTab (e.pick index).ledger := by
  rw [pick]
  split
  · exact Ledger.sameTab_select _ _
  · exact .refl _

theorem sameTab_lineUp (e : Editor) : e.ledger.SameTab e.lineUp.ledger := by
  rw [lineUp]
  split
  · exact .refl _
  · exact sameTab_pick e _

theorem sameTab_lineDown (e : Editor) : e.ledger.SameTab e.lineDown.ledger := by
  rw [lineDown]
  split
  · exact .refl _
  · split
    · exact sameTab_pick e _
    · exact sameTab_release e

/-- The enter key puts a picked line down, or quits, unless the line is the word that shows the
help. -/
theorem sameTab_submit (hselected : e.ledger.selected ≠ none)
    (hword : Text.lower (Text.trim e.input) ≠ "help".toList) :
    e.ledger.SameTab e.submit.ledger := by
  rw [submit]
  split
  · exact .refl _
  · rw [afterCommit]
    split <;> exact Ledger.sameTab_commit hselected

/-- While the help is shown no key gets to the ledger. -/
theorem ledger_pressInHelp (e : Editor) (code : KeyCode) :
    (e.pressInHelp code).ledger = e.ledger := by
  unfold pressInHelp
  split <;> rfl

/-- **A key that only looks leaves the tab as it is.** -/
theorem sameTab_looking {k : Key} (hk : looking k = true) :
    e.ledger.SameTab (e.pressInEditor k).ledger := by
  rw [pressInEditor]
  rw [looking] at hk
  cases hcode : k.code with
  | char c =>
    rw [hcode] at hk
    obtain ⟨hctrl, hc⟩ := Bool.and_eq_true_iff.1 hk
    dsimp only
    rw [if_pos hctrl]
    -- the two characters that look with the control key held
    rcases (Bool.or_eq_true _ _ ▸ hc : (c == 'g') = true ∨ (c == 'd') = true) with hg | hd
    · obtain rfl := beq_iff_eq.1 hg
      exact ⟨rfl, rfl⟩
    · obtain rfl := beq_iff_eq.1 hd
      exact ⟨rfl, rfl⟩
  | function n =>
    have hn : n = 1 := by
      rw [hcode] at hk
      split at hk <;> simp_all
    subst hn
    exact .refl _
  | left => dsimp only; split <;> exact .refl _
  | right => dsimp only; split <;> exact .refl _
  | up => exact sameTab_lineUp e
  | down => exact sameTab_lineDown e
  | home => exact .refl _
  | toEnd => exact .refl _
  | pageUp => exact .refl _
  | pageDown => exact .refl _
  | tab => exact Ledger.sameTab_turnTo _ _
  | backTab => exact Ledger.sameTab_turnTo _ _
  | escape => exact sameTab_release e
  | enter | backspace | delete | insert =>
    rw [hcode] at hk
    exact absurd hk Bool.false_ne_true

/-- The picked line has the input as its text. -/
theorem InStep.selected_of_pickedLine? (h : e.InStep) {line : Line} (hline : line ∈ e.pickedLine?) :
    e.ledger.selected ≠ none ∧ e.input = line.expression := by
  rw [pickedLine?, Option.mem_def] at hline
  obtain ⟨i, hi, hline⟩ := Option.bind_eq_some_iff.1 hline
  have hedits := h.edits
  rw [hi] at hedits
  obtain ⟨line', hline', hselected, hinput⟩ := hedits
  rw [hline] at hline'
  obtain rfl := Option.some.inj hline'
  exact ⟨by rw [hselected]; exact nofun, hinput⟩

/-- The mouse only scrolls. -/
theorem sameTab_wheel (e : Editor) (action : MouseAction) :
    e.ledger.SameTab (e.wheel action).ledger := by
  unfold wheel
  split <;> exact .refl _

/-- **What happens without a trace leaves the tab as it is.** -/
theorem InStep.sameTab_after (h : e.InStep) {occurrence : Occurrence}
    (hlooks : e.looks occurrence = true) : e.ledger.SameTab (e.after occurrence).ledger := by
  cases occurrence with
  | frame width height =>
    change e.ledger.SameTab (e.settled width height).ledger
    rw [(keepsData_settled width height e).ledger]
    exact .refl _
  | event event =>
    cases event with
    | mouse action => exact sameTab_wheel e action
    | paste t =>
      change e.ledger.SameTab (if e.helpShown then e else e.paste t).ledger
      rw [if_pos (show e.helpShown = true from hlooks)]
      exact .refl _
    | key k clipboard =>
      rw [looks, Bool.or_eq_true, Bool.or_eq_true, Bool.and_eq_true] at hlooks
      rw [Editor.after]
      rcases handle_key e k clipboard with ⟨said, hcopied⟩ | hpressed
      · rw [hcopied]
        exact .refl _
      · rw [hpressed, Editor.press]
        split
        · rw [ledger_pressInHelp]
          exact .refl _
        · next hhelp =>
          rcases hlooks with (hshown | hlooking) | ⟨henter, hany⟩
          · exact absurd hshown hhelp
          · exact sameTab_looking (e := { e with status := none }) hlooking
          · obtain ⟨line, hline, hword⟩ := (Option.any_eq_true _ _).1 hany
            obtain ⟨hselected, hinput⟩ := h.selected_of_pickedLine? hline
            rw [Editor.pressInEditor, beq_iff_eq.1 henter]
            rw [← hinput] at hword
            exact sameTab_submit (e := { e with status := none }) hselected (bne_iff_ne.1 hword)

theorem InStep.sameTab_afterAll (h : e.InStep) {course : List Occurrence}
    (hlooks : e.looksAround course = true) : e.ledger.SameTab (e.afterAll course).ledger := by
  induction course generalizing e with
  | nil => exact .refl _
  | cons occurrence course ih =>
    obtain ⟨hfirst, hrest⟩ := Bool.and_eq_true_iff.1 hlooks
    exact (h.sameTab_after hfirst).trans (ih (h.after occurrence) hrest)

/-! ### Typing -/

/-- The ledger stays, or it has had one edit. -/
def EditsAtMost (l l' : Ledger) : Prop :=
  l' = l ∨ ∃ t, l' = l.edit t

theorem editsAtMost_erase (position : Nat) (e : Editor) :
    EditsAtMost e.ledger (e.erase position).ledger := by
  change EditsAtMost e.ledger (e.ledger.erase position).1
  rw [Ledger.erase]
  split
  · exact Or.inl rfl
  · exact Or.inr ⟨_, rfl⟩

theorem editsAtMost_insertText (t : Text) (e : Editor) :
    EditsAtMost e.ledger (e.insertText t).ledger :=
  Or.inr ⟨_, rfl⟩

/-- **An event that edits the input edits the ledger once at most.** -/
theorem editsAtMost_typing {event : Event} (htyping : typing event = true) (e : Editor) :
    EditsAtMost e.ledger (e.handle event).ledger := by
  cases event with
  | mouse action => exact absurd htyping Bool.false_ne_true
  | paste t =>
    rw [handle]
    split
    · exact Or.inl rfl
    · rw [paste]
      split
      · exact Or.inl rfl
      · exact editsAtMost_insertText _ e
  | key k clipboard =>
    rcases handle_key e k clipboard with ⟨said, hcopied⟩ | hpressed
    · rw [hcopied]
      exact Or.inl rfl
    · rw [hpressed, press]
      split
      · exact Or.inl (ledger_pressInHelp _ k.code)
      · rw [pressInEditor]
        rw [typing] at htyping
        cases hcode : k.code with
        | char c =>
          rw [hcode] at htyping
          dsimp only at htyping ⊢
          split at htyping
          · next hctrl =>
            obtain rfl := beq_iff_eq.1 htyping
            rw [if_pos hctrl]
            exact editsAtMost_insertText _ _
          · next hctrl =>
            rw [if_neg hctrl, if_neg (by simpa using htyping)]
            exact editsAtMost_insertText _ _
        | backspace => exact editsAtMost_erase _ _
        | delete =>
          dsimp only
          rw [delete]
          split
          · exact editsAtMost_erase _ _
          · exact Or.inl rfl
        | function | enter | insert | left | right | up | down | home | toEnd | pageUp | pageDown
        | tab | backTab | escape =>
          rw [hcode] at htyping
          exact absurd htyping Bool.false_ne_true

/-- **Typing changes the picked line at most.** -/
theorem InStep.changesAt_typing (h : e.InStep) {event : Event} (htyping : typing event = true) :
    e.ledger.ChangesAt e.picked (e.handle event).ledger := by
  rcases editsAtMost_typing htyping e with hsame | ⟨t, hedit⟩
  · rw [hsame]
    exact h.edits.changesAt_self h.numbered
  · rw [hedit]
    exact h.edits.changesAt_edit h.numbered t

/-- **Looking around leaves the tab as it is, and typing changes the picked line at most.** In every
reachable editor, whatever course of looking around it takes, all pages and all snapshots stay as
they were. An event that edits the input leaves the snapshots as they were; with no line picked it
leaves the pages, too, and otherwise all of them but the picked line, which keeps its identifier. -/
theorem sameTab_of_looksAround (h : e.Reachable) :
    (∀ course, e.looksAround course = true →
      (e.afterAll course).ledger.pages = e.ledger.pages ∧
        (e.afterAll course).ledger.snapshots = e.ledger.snapshots) ∧
    ∀ event, typing event = true →
      (e.handle event).ledger.snapshots = e.ledger.snapshots ∧
      (e.picked = none → (e.handle event).ledger.pages = e.ledger.pages) ∧
      ∀ i, e.picked = some i → ∃ line new : Line, e.ledger.page[i]? = some line ∧
        new.id = line.id ∧
        (e.handle event).ledger.pages =
          e.ledger.pages.set e.ledger.current (e.ledger.page.set i new) := by
  have hstep := inStep_of_reachable h
  refine ⟨fun course hlooks => ?_, fun event htyping => ?_⟩
  · obtain ⟨hpages, hsnapshots⟩ := hstep.sameTab_afterAll hlooks
    exact ⟨hpages, hsnapshots⟩
  · obtain ⟨hsnapshots, hnone, hsome⟩ := hstep.changesAt_typing htyping
    exact ⟨hsnapshots, hnone, hsome⟩

/-- A taxed line and a plain one: they are walked over and put down, pages are turned and the help
is shown and typed into. Then something is typed into the taxed line, which loses its tax; the other
line is as it was. -/
theorem sameTab_of_looksAround_taxed :
    let key (code : KeyCode) : Occurrence := .event (.key { code := code })
    let e := (ofSettings .standard).afterAll
      [key (.char '9'), key (.function 5), key (.char '7'), key .enter]
    let course := [key .up, key .up, .frame 80 24, key .enter, key (.function 1), key (.char 'x'),
      .frame 80 24, key .escape, key .tab, .event (.mouse .wheelUp), key .backTab, key .up, key .up]
    e.Reachable ∧ e.looksAround course = true ∧
      (e.afterAll course).ledger.pages = e.ledger.pages ∧
      e.ledger.page.map (fun line => line.tax.isSome) = [true, false] ∧
      (e.afterAll course).picked = some 0 ∧
      ∃ line new : Line, (e.afterAll course).ledger.page[0]? = some line ∧ new.id = line.id ∧
        ((e.afterAll course).handle (.key (.plain '1'))).ledger.pages =
          e.ledger.pages.set (e.afterAll course).ledger.current
            ((e.afterAll course).ledger.page.set 0 new) := by
  intro key e course
  have he : e.Reachable := ⟨.standard, _, rfl⟩
  have hcourse : (e.afterAll course).Reachable := by
    refine ⟨.standard, [key (.char '9'), key (.function 5), key (.char '7'), key .enter] ++ course,
      ?_⟩
    rw [afterAll_append]
  have hlooks : e.looksAround course = true := by decide +kernel
  have hpicked : (e.afterAll course).picked = some 0 := by decide +kernel
  have hpages := ((sameTab_of_looksAround he).1 course hlooks).1
  have htyping := ((sameTab_of_looksAround hcourse).2 (.key (.plain '1')) rfl).2.2 0 hpicked
  rw [hpages] at htyping
  exact ⟨he, hlooks, hpages, by decide +kernel, hpicked, htyping⟩

end Editor

end RunningTab
