import RunningTab.Proofs.Ledger.Numbering

/-!
# The selected line and its place

The ledger knows the line that its input edits by identifier; whoever shows the page knows it by its
place. `RunningTab.Ledger.Edits` says that a place, or none, is the right one: no line is selected,
or the line at the place is selected and the input is its text.

Operations either keep the place right or end the editing altogether. That an edit keeps it
(`RunningTab.Ledger.Edits.edit`) is where identifiers must be unique: the ledger changes the first
line with the selected identifier, and only if no line before has the same is it the one at the
place.
-/

namespace RunningTab.Ledger

/-- **The place of the edited line**: with none, no line is selected; otherwise the line there is,
and the input is its text. -/
def Edits (l : Ledger) : Option Nat → Prop
  | none => l.selected = none
  | some i => ∃ line, l.page[i]? = some line ∧ l.selected = some line.id ∧
      l.input = line.expression

variable {l : Ledger} {picked : Option Nat}

/-- There is a place exactly if a line is selected. -/
theorem Edits.eq_none_iff (h : l.Edits picked) : picked = none ↔ l.selected = none := by
  cases picked with
  | none => exact ⟨fun _ => h, fun _ => rfl⟩
  | some i =>
    obtain ⟨line, -, hselected, -⟩ := h
    rw [hselected]
    exact ⟨fun hnone => absurd hnone (by simp), fun hnone => absurd hnone (by simp)⟩

/-! ### The current page -/

/-- The page that is looked at is there. -/
theorem Numbered.getElem?_current (hl : l.Numbered) : l.pages[l.current]? = some l.page := by
  rw [page, List.getD_eq_getElem?_getD, List.getElem?_eq_getElem hl.current_lt, Option.getD_some]

/-- The identifiers on the current page increase. -/
theorem Numbered.page_increasing (hl : l.Numbered) : l.page.Increasing l.nextId :=
  hl.increasing l.pages List.mem_cons_self l.page (List.mem_of_getElem? hl.getElem?_current)

/-- A change of the current page changes the page that is looked at. -/
theorem page_onPage (hl : l.current < l.pages.length) (f : Page → Page) :
    (l.onPage f).page = f l.page := by
  change (l.pages.modify l.current f).getD l.current [] = f (l.pages.getD l.current [])
  rw [List.getD_eq_getElem?_getD, List.getD_eq_getElem?_getD, List.getElem?_modify_eq,
    List.getElem?_eq_getElem hl]
  rfl

/-! ### Edits -/

/-- An edit makes its text the input. -/
theorem input_edit (t : Text) (l : Ledger) : (l.edit t).input = t := by
  rw [edit]
  split <;> rfl

/-- With nothing selected an edit goes into the input and nowhere else. -/
theorem edit_of_selected_eq_none (h : l.selected = none) (t : Text) :
    l.edit t = { l with input := t } := by
  have hnone : editedLine? { l with input := t } = none := by
    change l.selected.bind _ = none
    rw [h, Option.bind_none]
  rw [edit, hnone]

/-- With the line at a place selected an edit goes into that line as well. -/
theorem edit_of_getElem? (hl : l.Numbered) {i : Nat} {line : Line} (hline : l.page[i]? = some line)
    (hselected : l.selected = some line.id) (t : Text) :
    l.edit t = onPage (Page.amend line.id fun line =>
      { line with expression := t, result := Expr.evaluate t, tax := none })
        { l with input := t } := by
  have hsome : editedLine? { l with input := t } = some line := by
    change l.selected.bind (fun id => l.page.line? id) = some line
    rw [hselected, Option.bind_some]
    exact Page.line?_of_getElem? hl.page_increasing.1 hline
  rw [edit, hsome]

/-- **An edit goes into the line at the place.** -/
theorem Edits.edit (hl : l.Numbered) (h : l.Edits picked) (t : Text) : (l.edit t).Edits picked := by
  cases picked with
  | none =>
    rw [edit_of_selected_eq_none h]
    exact h
  | some i =>
    obtain ⟨line, hline, hselected, -⟩ := h
    rw [edit_of_getElem? hl hline hselected]
    refine ⟨{ line with expression := t, result := Expr.evaluate t, tax := none }, ?_, hselected,
      rfl⟩
    rw [page_onPage (l := { l with input := t }) hl.current_lt]
    exact Page.getElem?_amend hl.page_increasing.1 hline _

/-- Inserting keeps the place; the position after the text is one of the input. -/
theorem Edits.insert (hl : l.Numbered) (h : l.Edits picked) (position : Nat) (t : Text) :
    (l.insert position t).1.Edits picked :=
  h.edit hl _

theorem insert_le (position : Nat) (t : Text) (l : Ledger) :
    (l.insert position t).2 ≤ (l.insert position t).1.input.length := by
  rw [Ledger.insert, input_edit, List.length_append, List.length_append, List.length_take,
    List.length_drop]
  omega

/-- Erasing keeps the place; the position of the gap is one of the input. -/
theorem Edits.erase (hl : l.Numbered) (h : l.Edits picked) (position : Nat) :
    (l.erase position).1.Edits picked := by
  rw [Ledger.erase]
  split
  · exact h
  · exact h.edit hl _

theorem erase_le (position : Nat) (l : Ledger) :
    (l.erase position).2 ≤ (l.erase position).1.input.length := by
  rw [Ledger.erase]
  split
  · exact Nat.zero_le _
  · next before hbefore =>
    rw [input_edit, List.length_append, List.length_take, List.length_drop]
    omega

/-! ### Selecting by place -/

/-- Selecting the line at a place makes it the place of the edited line. -/
theorem edits_select (hl : l.Numbered) {i : Nat} {line : Line} (hline : l.page[i]? = some line) :
    (l.select line.id).1.Edits (some i) := by
  rw [select, Page.line?_of_getElem? hl.page_increasing.1 hline]
  exact ⟨line, hline, rfl, rfl⟩

/-! ### Ends of editing -/

/-- A commit does nothing, or it ends the editing and gives an identifier. -/
theorem commit_eq_or (l : Ledger) :
    l.commit = (l, none) ∨ ∃ id, l.commit.2 = some id ∧ l.commit.1.selected = none := by
  rw [commit]
  split
  · next id _ => exact Or.inr ⟨id, rfl, rfl⟩
  · split
    · exact Or.inl rfl
    · exact Or.inr ⟨l.nextId, rfl, rfl⟩

/-- So does a commit with tax. -/
theorem commitTaxed_eq_or (direction : TaxDirection) (rate : Option Float) (l : Ledger) :
    l.commitTaxed direction rate = (l, none) ∨
      ∃ id, (l.commitTaxed direction rate).2 = some id ∧
        (l.commitTaxed direction rate).1.selected = none := by
  rw [commitTaxed]
  split
  · exact Or.inl rfl
  · dsimp only
    split
    · next line _ => exact Or.inr ⟨line.id, rfl, rfl⟩
    · exact Or.inr ⟨l.nextId, rfl, rfl⟩

/-- Turning to a page that there is ends the editing. -/
theorem selected_turnTo {index : Nat} (h : index < l.pages.length) :
    (l.turnTo index).1.selected = none := by
  rw [turnTo, if_pos h]
  rfl

/-! ### Retracting -/

/-- A line stays at its place when the last line is dropped and is another one. -/
theorem getElem?_dropLast_of_ne {page : Page} {i : Nat} {line last : Line}
    (hline : page[i]? = some line) (hlast : page.getLast? = some last)
    (hne : line.id ≠ last.id) : page.dropLast[i]? = some line := by
  have hlt : i < page.length := (List.getElem?_eq_some_iff.1 hline).1
  have hend : i ≠ page.length - 1 := by
    rintro rfl
    rw [List.getLast?_eq_getElem?, hline] at hlast
    exact hne (congrArg Line.id (Option.some.inj hlast))
  rw [List.getElem?_dropLast, if_pos (by omega)]
  exact hline

/-- **A line that is still selected after a retraction keeps its place**: the line that is dropped
is another one, and the last. -/
theorem Edits.retract (hl : l.Numbered) (h : l.Edits picked)
    (hsome : l.retract.selected.isSome) : l.retract.Edits picked := by
  rw [Ledger.retract] at hsome ⊢
  split at hsome
  · next hinput =>
    -- a text is cleared: that is an edit
    rw [if_pos hinput]
    exact h.edit hl []
  · next hinput =>
    rw [if_neg hinput]
    cases hlast : l.page.getLast? with
    | none => exact h
    | some last =>
      rw [hlast] at hsome
      dsimp only at hsome ⊢
      split at hsome
      · exact absurd hsome (by simp)
      · next hother =>
        -- a line is dropped, and the selected one is another: it is not the last
        rw [if_neg hother]
        cases picked with
        | none => exact h
        | some i =>
          obtain ⟨line, hline, hselected, hinput⟩ := h
          refine ⟨line, ?_, hselected, hinput⟩
          have hne : line.id ≠ last.id := fun hid => hother (by rw [hselected, hid])
          have hpage : (l.snapshot.onPage List.dropLast).page = l.page.dropLast :=
            page_onPage (l := l.snapshot) hl.current_lt List.dropLast
          rw [hpage]
          exact getElem?_dropLast_of_ne hline hlast hne

end RunningTab.Ledger
