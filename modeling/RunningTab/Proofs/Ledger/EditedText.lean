import Mathlib.Data.List.Induction
import RunningTab.Proofs.Ledger.Identity

/-!
# The input and the text of the selected line

While a line is selected, the input ought to be its text (`RunningTab.Ledger.Loaded`): selecting the
line loads it, and every edit goes into both. An undo is what takes the two apart. It brings old
pages back and keeps the selection if the line is still among them, but leaves the input as it is,
and the line may come back with the text that it had before it was edited
(`RunningTab.Ledger.UndoParts`). From then on the grand total counts that text, and the input shows
another.

Nothing else does this, and it does not last: any other operation loads the selected line, ends the
editing, or leaves the input and the selected line as they are
(`RunningTab.Ledger.loaded_or_keepsEditing`). So a ledger is out of step exactly if an undo on the
way to it took the two apart and nothing has been edited, selected or put down since
(`RunningTab.Ledger.not_loaded_iff_undone`).
-/

namespace RunningTab.Ledger

/-- **The input is the text of the selected line**, if a line is selected. -/
def Loaded (l : Ledger) : Prop :=
  ∀ id, l.selected = some id → ∃ line, l.page.line? id = some line ∧ l.input = line.expression

/-- The input, the selection and the selected line stay as they are. -/
structure KeepsEditing (l l' : Ledger) : Prop where
  input : l'.input = l.input
  selected : l'.selected = l.selected
  line : l'.editedLine? = l.editedLine?

/-- **An undo takes the input and the selected line apart**: the line comes back with a text that is
not the input. -/
def UndoParts (l : Ledger) (line : Line) : Prop :=
  ∃ pages rest, l.snapshots = pages :: rest ∧ l.selected = some line.id ∧
    (pages.getD l.current []).line? line.id = some line ∧ l.input ≠ line.expression

variable {l l' : Ledger}

/-! ### Loaded ledgers -/

theorem loaded_of_none (h : l.selected = none) : l.Loaded := by
  intro id hid
  rw [h] at hid
  exact absurd hid (by simp)

/-- With the right place of the edited line the ledger is loaded. -/
theorem Edits.loaded (hl : l.Numbered) {picked : Option Nat} (h : l.Edits picked) : l.Loaded := by
  cases picked with
  | none => exact loaded_of_none h
  | some i =>
    obtain ⟨line, hline, hselected, hinput⟩ := h
    intro id hid
    rw [hselected] at hid
    obtain rfl : line.id = id := Option.some.inj hid
    exact ⟨line, Page.line?_of_getElem? hl.page_increasing.1 hline, hinput⟩

/-- The edited line is the one with the selected identifier. -/
theorem editedLine?_eq_some_iff {line : Line} :
    l.editedLine? = some line ↔ l.selected = some line.id ∧ l.page.line? line.id = some line := by
  rw [editedLine?, Option.bind_eq_some_iff]
  constructor
  · rintro ⟨id, hselected, hline⟩
    obtain rfl := id_of_line? hline
    exact ⟨hselected, hline⟩
  · rintro ⟨hselected, hline⟩
    exact ⟨line.id, hselected, hline⟩

/-- A loaded ledger has the text of the edited line as its input. -/
theorem Loaded.input_eq (h : l.Loaded) {line : Line} (hline : l.editedLine? = some line) :
    l.input = line.expression := by
  obtain ⟨hselected, hfound⟩ := editedLine?_eq_some_iff.1 hline
  obtain ⟨line', hline', hinput⟩ := h line.id hselected
  obtain rfl : line = line' := Option.some.inj (hfound.symm.trans hline')
  exact hinput

theorem KeepsEditing.refl (l : Ledger) : l.KeepsEditing l :=
  ⟨rfl, rfl, rfl⟩

/-- What is edited is all that matters. -/
theorem Loaded.of_keepsEditing (h : l.Loaded) (hkeeps : l.KeepsEditing l') : l'.Loaded := by
  intro id hid
  rw [hkeeps.selected] at hid
  obtain ⟨line, hline, hinput⟩ := h id hid
  obtain rfl := id_of_line? hline
  have hedited : l'.editedLine? = some line := by
    rw [hkeeps.line]
    exact editedLine?_eq_some_iff.2 ⟨hid, hline⟩
  exact ⟨line, (editedLine?_eq_some_iff.1 hedited).2, by rw [hkeeps.input, hinput]⟩

/-! ### Operations other than undo -/

/-- **An edit loads the selected line**, whatever the input was before. -/
theorem loaded_edit (hl : l.Reachable) (t : Text) : (l.edit t).Loaded := by
  have hnumbered := numbered_of_reachable hl
  have hafter : (l.edit t).Numbered := hnumbered.after (.edit t)
  cases hselected : l.selected with
  | none =>
    have hedits : l.Edits none := hselected
    exact (hedits.edit hnumbered t).loaded hafter
  | some id =>
    obtain ⟨line, hmem, hid⟩ := List.mem_map.1 (selectsLine_of_reachable hl id hselected)
    obtain ⟨i, hi⟩ := List.mem_iff_getElem?.1 hmem
    -- the edit does not look at the input, so the input may as well be the text of the line
    let loaded : Ledger := { l with input := line.expression }
    have hloaded : loaded.Numbered :=
      ⟨hnumbered.current_lt, hnumbered.length_eq, hnumbered.increasing⟩
    have hedits : loaded.Edits (some i) := ⟨line, hi, by rw [hid]; exact hselected, rfl⟩
    exact (hedits.edit hloaded t).loaded hafter

/-- **Selecting a line loads it.** -/
theorem loaded_select {id : Nat} (h : (l.select id).2 = true) : (l.select id).1.Loaded := by
  rw [select] at h ⊢
  split
  · next line hline =>
    intro id' hid
    obtain rfl : id = id' := Option.some.inj hid
    exact ⟨line, hline, rfl⟩
  · next hnone =>
    rw [hnone] at h
    exact absurd h Bool.false_ne_true

/-- Another line than the last one is found by its identifier when the last one is gone. -/
theorem line?_dropLast {p : Page} {last : Line} (hlast : p.getLast? = some last) {id : Nat}
    (hid : id ≠ last.id) : Page.line? id p.dropLast = p.line? id := by
  have hsingle : Page.line? id [last] = none := by
    simpa [Page.line?] using hid.symm
  conv_rhs => rw [← List.dropLast_append_getLast? last hlast]
  rw [Page.line?, Page.line?, List.find?_append, show [last].find? _ = none from hsingle,
    Option.or_none]

/-- A retraction clears the input, ends the editing, or drops another line than the edited one. -/
theorem loaded_or_keepsEditing_retract (hl : l.Reachable) :
    l.retract.Loaded ∨ l.KeepsEditing l.retract := by
  have hcurrent := (numbered_of_reachable hl).current_lt
  rw [retract]
  split
  · exact Or.inl (loaded_edit hl [])
  · split
    · exact Or.inr (.refl l)
    · next last hlast =>
      dsimp only
      split
      · exact Or.inl (loaded_of_none rfl)
      · next hother =>
        have hpage : (l.snapshot.onPage List.dropLast).page = l.page.dropLast :=
          page_onPage (l := l.snapshot) hcurrent List.dropLast
        refine Or.inr ⟨rfl, rfl, ?_⟩
        rw [editedLine?, editedLine?, hpage]
        change l.selected.bind _ = l.selected.bind _
        cases hselected : l.selected with
        | none => rfl
        | some id =>
          have hid : id ≠ last.id := fun h => hother (by rw [hselected, h])
          exact line?_dropLast hlast hid

theorem loaded_or_keepsEditing_turnTo (index : Nat) (l : Ledger) :
    (l.turnTo index).1.Loaded ∨ l.KeepsEditing (l.turnTo index).1 := by
  rw [turnTo]
  split
  · exact Or.inl (loaded_of_none rfl)
  · exact Or.inr (.refl l)

/-- **An operation other than undo loads the selected line, ends the editing, or leaves what is
edited as it is.** -/
theorem loaded_or_keepsEditing (hl : l.Reachable) {op : Operation} (hop : op.isUndo = false) :
    (l.after op).Loaded ∨ l.KeepsEditing (l.after op) := by
  cases op with
  | edit t => exact Or.inl (loaded_edit hl t)
  | insert position t => exact Or.inl (loaded_edit hl _)
  | erase position =>
    change (l.erase position).1.Loaded ∨ l.KeepsEditing (l.erase position).1
    rw [erase]
    split
    · exact Or.inr (.refl l)
    · exact Or.inl (loaded_edit hl _)
  | commit =>
    change l.commit.1.Loaded ∨ l.KeepsEditing l.commit.1
    rcases commit_eq_or l with heq | ⟨id, -, hnone⟩
    · rw [heq]
      exact Or.inr (.refl l)
    · exact Or.inl (loaded_of_none hnone)
  | commitTaxed direction rate =>
    change (l.commitTaxed direction rate).1.Loaded ∨ l.KeepsEditing (l.commitTaxed direction rate).1
    rcases commitTaxed_eq_or direction rate l with heq | ⟨id, -, hnone⟩
    · rw [heq]
      exact Or.inr (.refl l)
    · exact Or.inl (loaded_of_none hnone)
  | select id =>
    change (l.select id).1.Loaded ∨ l.KeepsEditing (l.select id).1
    cases hfound : (l.select id).2 with
    | true => exact Or.inl (loaded_select hfound)
    | false =>
      rw [select] at hfound ⊢
      split
      · next line hline =>
        rw [hline] at hfound
        exact absurd hfound.symm Bool.false_ne_true
      · exact Or.inr (.refl l)
  | deselect => exact Or.inl (loaded_of_none rfl)
  | retract => exact loaded_or_keepsEditing_retract hl
  | wipe => exact Or.inl (loaded_of_none rfl)
  | turnTo index => exact loaded_or_keepsEditing_turnTo index l
  | nextPage => exact loaded_or_keepsEditing_turnTo _ l
  | previousPage =>
    change l.previousPage.1.Loaded ∨ l.KeepsEditing l.previousPage.1
    rw [previousPage]
    split
    · exact Or.inr (.refl l)
    · exact loaded_or_keepsEditing_turnTo _ l
  | undo => exact absurd hop.symm Bool.false_ne_true
  | turnGst on => exact Or.inr ⟨rfl, rfl, rfl⟩

/-! ### Undo -/

/-- **What an undo does to the editing**: nothing if there is nothing to restore; otherwise the
selected line is gone and put down, or is back with the input as its text, or is back with another
text. -/
theorem undo_cases (l : Ledger) :
    l.undo.1.Loaded ∨ l.KeepsEditing l.undo.1 ∨
      ∃ line, l.UndoParts line ∧ l.undo.1.editedLine? = some line ∧ l.undo.1.input = l.input := by
  rw [undo]
  split
  · exact Or.inr (Or.inl (.refl l))
  · next pages rest hsnapshots =>
    dsimp only
    split
    · next hsome =>
      obtain ⟨line, hline⟩ := Option.isSome_iff_exists.1 hsome
      obtain ⟨hselected, hfound⟩ := editedLine?_eq_some_iff.1 hline
      by_cases hinput : l.input = line.expression
      · refine Or.inl fun id hid => ?_
        obtain rfl : line.id = id := Option.some.inj (hselected.symm.trans hid)
        exact ⟨line, hfound, hinput⟩
      · exact Or.inr (Or.inr
          ⟨line, ⟨pages, rest, hsnapshots, hselected, hfound, hinput⟩, hline, rfl⟩)
    · exact Or.inl (loaded_of_none rfl)

/-! ### Histories -/

/-- **On the way to a ledger that is not loaded an undo took the input and the selected line
apart**, and both have stayed as it left them. -/
theorem loaded_or_undone (hl : l.Reachable) (hloaded : l.Loaded) (history : List Operation) :
    (l.afterAll history).Loaded ∨ ∃ before behind line, history = before ++ .undo :: behind ∧
      (l.afterAll before).UndoParts line ∧ (l.afterAll history).editedLine? = some line ∧
      (l.afterAll history).input = (l.afterAll before).input := by
  induction history using List.reverseRecOn with
  | nil => exact Or.inl hloaded
  | append_singleton history op ih =>
    rw [afterAll_concat]
    -- an operation that keeps what is edited carries either case over
    have hkeep : ∀ l', (l.afterAll history).KeepsEditing l' →
        l'.Loaded ∨ ∃ before behind line, history ++ [op] = before ++ .undo :: behind ∧
          (l.afterAll before).UndoParts line ∧ l'.editedLine? = some line ∧
          l'.input = (l.afterAll before).input := by
      intro l' hkeeps
      refine ih.imp (fun h => h.of_keepsEditing hkeeps) ?_
      rintro ⟨before, behind, line, hhistory, hparts, hline, hinput⟩
      refine ⟨before, behind ++ [op], line, ?_, hparts, hkeeps.line.trans hline,
        hkeeps.input.trans hinput⟩
      rw [hhistory, List.append_assoc, List.cons_append]
    cases hop : op.isUndo with
    | false =>
      rcases loaded_or_keepsEditing (hl.afterAll history) hop with hloaded | hkeeps
      · exact Or.inl hloaded
      · exact hkeep _ hkeeps
    | true =>
      obtain rfl := Operation.eq_undo hop
      rcases undo_cases (l.afterAll history) with hloaded | hkeeps | ⟨line, hparts, hline, hinput⟩
      · exact Or.inl hloaded
      · exact hkeep _ hkeeps
      · exact Or.inr ⟨history, [], line, rfl, hparts, hline, hinput⟩

/-- **Only an undo takes the input and the selected line apart, and any edit or selection puts them
together again.** After a history the input is not the text of the selected line exactly if one of
its undos brought the selected line back with another text, and the input and the line are still as
they were then. An operation other than undo never takes them apart. -/
theorem not_loaded_iff_undone (pageCount : Nat) (rate : Float) (history : List Operation) :
    let start := blank pageCount rate
    let l := start.afterAll history
    (¬l.Loaded ↔ ∃ before behind line, history = before ++ .undo :: behind ∧
      (start.afterAll before).UndoParts line ∧ l.editedLine? = some line ∧
      l.input = (start.afterAll before).input) ∧
    (∀ t, (l.edit t).Loaded) ∧
    (∀ id, (l.select id).2 = true → (l.select id).1.Loaded) ∧
    ∀ op, op.isUndo = false → l.Loaded → (l.after op).Loaded := by
  intro start l
  have hstart : start.Reachable := ⟨pageCount, rate, [], rfl⟩
  have hl : l.Reachable := hstart.afterAll history
  refine ⟨⟨fun hnot => ?_, ?_⟩, loaded_edit hl, fun id => loaded_select, ?_⟩
  · exact (loaded_or_undone hstart (loaded_of_none rfl) history).resolve_left hnot
  · rintro ⟨before, behind, line, -, ⟨-, -, -, -, -, hinput⟩, hline, hsame⟩ hloaded
    exact hinput (hsame.symm.trans (hloaded.input_eq hline))
  · intro op hop hloaded
    exact (loaded_or_keepsEditing hl hop).elim id hloaded.of_keepsEditing

/-- A line that an undo brought back as `1` under an input of `15` is the input again once another
digit has been typed. -/
theorem loaded_typing_after_undo :
    let l := (blank 1 18.0).afterAll
      [.edit "1".toList, .commit, .edit "2".toList, .commit, .select 1, .edit "15".toList, .undo]
    ¬l.Loaded ∧ (l.edit "150".toList).Loaded := by
  intro l
  have htheorem := not_loaded_iff_undone 1 18.0
    [.edit "1".toList, .commit, .edit "2".toList, .commit, .select 1, .edit "15".toList, .undo]
  refine ⟨htheorem.1.2 ⟨[.edit "1".toList, .commit, .edit "2".toList, .commit, .select 1,
    .edit "15".toList], [], ⟨1, "1".toList, 1.0, none⟩, rfl, ?_, rfl, rfl⟩,
    htheorem.2.1 "150".toList⟩
  exact ⟨_, _, rfl, rfl, rfl, by decide⟩

/-- The first of two lines is picked up and made `15`; an undo of the second one brings the first
back as `1`, still selected, and the grand total counts `1` under an input of `15`. -/
theorem not_loaded_after_undo :
    let l := (blank 1 18.0).afterAll
      [.edit "1".toList, .commit, .edit "2".toList, .commit, .select 1, .edit "15".toList, .undo]
    l.Reachable ∧ l.selected = some 1 ∧
      (l.page.line? 1).map Line.expression = some "1".toList ∧ l.input = "15".toList ∧
      ¬l.Loaded ∧ l.grandTotal = 1.0 := by
  intro l
  refine ⟨⟨1, 18.0, _, rfl⟩, rfl, rfl, rfl, fun h => ?_, by rfl⟩
  obtain ⟨line, hline, hinput⟩ := h 1 rfl
  obtain rfl : (⟨1, "1".toList, 1.0, none⟩ : Line) = line := Option.some.inj hline
  exact absurd hinput (by decide)

end RunningTab.Ledger
