import RunningTab.Proofs.Ledger.Identity

/-!
# Taking one operation back

Commits, retractions and wipes are the operations on whole lines, and an undo is there to take them
back. It does so whenever a snapshot was taken
(`RunningTab.Ledger.undo_after_of_takesSnapshot`), and for three of the four that is whenever a page
changes at all.

A retraction is two things. Without a text it drops the last line, and takes a snapshot first. With
a text it clears the text, and that is an edit like any other: if a line is selected, the line
follows, and its text and its tax are gone (`RunningTab.Ledger.ClearsLine`). No snapshot was taken
then, so the next undo leaves the line as it is and takes back something that was done before
(`RunningTab.Ledger.undo_after_structural`).
-/

namespace RunningTab.Ledger

/-- Whether an operation is one on whole lines. -/
def Operation.isStructural : Operation → Bool
  | .commit | .commitTaxed _ _ | .retract | .wipe => true
  | _ => false

/-- **A retraction that clears the text of a selected line.** -/
def ClearsLine (l : Ledger) (op : Operation) : Prop :=
  op = .retract ∧ l.input ≠ [] ∧ l.selected.isSome = true

variable {l : Ledger} {op : Operation}

/-! ### Undo by the snapshots -/

/-- An undo succeeds if there are snapshots. -/
theorem snd_undo (l : Ledger) : l.undo.2 = !l.snapshots.isEmpty := by
  cases h : l.snapshots with
  | nil => exact undo_of_nil h
  | cons pages rest => exact (undo_of_cons h).1

/-- An undo brings the pages of the latest snapshot, or leaves those that are there. -/
theorem pages_undo (l : Ledger) : l.undo.1.pages = l.snapshots.headD l.pages := by
  cases h : l.snapshots with
  | nil => rw [undo, h]; rfl
  | cons pages rest => exact (undo_of_cons h).2

/-- **What took a snapshot is taken back.** -/
theorem undo_after_of_takesSnapshot (htakes : l.takesSnapshot op = true) :
    (l.after op).undo.2 = true ∧ (l.after op).undo.1.pages = l.pages := by
  have hop : op.isUndo = false := by
    cases op with
    | undo => exact absurd htakes (by simp [takesSnapshot])
    | _ => rfl
  have hsnapshots : (l.after op).snapshots = l.pages :: l.snapshots.take 49 := by
    rw [snapshots_after hop, if_pos htakes, pushed, snapshotLimit, List.take_succ_cons]
  exact undo_of_cons hsnapshots

/-! ### Operations on whole lines -/

/-- **An operation on whole lines that takes no snapshot changes no page**, unless it clears a
selected line. -/
theorem pages_after_of_not_takesSnapshot (hop : op.isStructural = true)
    (htakes : l.takesSnapshot op = false) (hclears : ¬l.ClearsLine op) :
    (l.after op).pages = l.pages := by
  cases op with
  | commit =>
    change l.commit.1.pages = l.pages
    rw [commit]
    split
    · rfl
    · next hselected =>
      have hinput : l.input = [] := by simpa [takesSnapshot, hselected] using htakes
      rw [if_pos hinput]
  | commitTaxed direction rate =>
    have hinput : l.input = [] := by simpa [takesSnapshot] using htakes
    change (l.commitTaxed direction rate).1.pages = l.pages
    rw [commitTaxed, if_pos hinput]
  | retract =>
    change l.retract.pages = l.pages
    rw [retract]
    split
    · next hinput =>
      -- the text that is cleared is that of no line
      have hselected : l.selected = none := by
        rw [← Option.isNone_iff_eq_none, ← Option.not_isSome, Bool.not_eq_true']
        exact Bool.eq_false_iff.2 fun hsome => hclears ⟨rfl, hinput, hsome⟩
      rw [edit_of_selected_eq_none hselected]
    · next hinput =>
      have hpage : l.page = [] := by
        simpa [takesSnapshot, Decidable.not_not.1 hinput] using htakes
      rw [hpage]
      rfl
  | wipe => exact absurd htakes (by simp [takesSnapshot])
  | _ => exact absurd hop (by simp [Operation.isStructural])

/-- **A selected line is cleared** together with the text: its value is zero then, and its tax is
gone. No other line changes, and the snapshots are those that there were. -/
theorem after_of_clearsLine (hl : l.Reachable) (h : l.ClearsLine op) :
    (∃ line, l.editedLine? = some line ∧ (l.after op).pages =
      l.pages.modify l.current (Page.amend line.id fun _ => ⟨line.id, [], 0.0, none⟩)) ∧
    (l.after op).snapshots = l.snapshots := by
  obtain ⟨rfl, hinput, hsome⟩ := h
  obtain ⟨id, hselected⟩ := Option.isSome_iff_exists.1 hsome
  obtain ⟨line, hmem, hid⟩ := List.mem_map.1 (selectsLine_of_reachable hl id hselected)
  obtain ⟨i, hi⟩ := List.mem_iff_getElem?.1 hmem
  have hnumbered := numbered_of_reachable hl
  have hselected : l.selected = some line.id := by rw [hselected, hid]
  have hretract : l.after .retract = l.edit [] := by
    change l.retract = l.edit []
    rw [retract, if_pos hinput]
  rw [hretract, snapshots_edit, edit_of_getElem? hnumbered hi hselected]
  refine ⟨⟨line, ?_, ?_⟩, rfl⟩
  · rw [editedLine?, hselected, Option.bind_some]
    exact Page.line?_of_getElem? hnumbered.page_increasing.1 hi
  · refine congrArg (l.pages.modify l.current) (funext fun p => Page.amend_congr ?_ p)
    intro old hid
    rw [hid, show Expr.evaluate [] = 0.0 by rfl]

/-- **An undo takes an operation on whole lines back, unless that cleared a selected line.** Let a
commit, a taxed commit, a retraction or a wipe change any page of a reachable ledger. If it did not
clear a selected line, the undo right after it succeeds, and all pages are as they were. If it did,
that line is empty and untaxed and nothing else has changed; the undo brings back the pages of the
latest snapshot there was, if there was one, and these are the pages as they were only if that
snapshot happens to be of the same pages. -/
theorem undo_after_structural (hl : l.Reachable) (hop : op.isStructural = true)
    (hchanges : (l.after op).pages ≠ l.pages) :
    (¬l.ClearsLine op → (l.after op).undo.2 = true ∧ (l.after op).undo.1.pages = l.pages) ∧
    (l.ClearsLine op →
      (∃ line, l.editedLine? = some line ∧ (l.after op).pages =
        l.pages.modify l.current (Page.amend line.id fun _ => ⟨line.id, [], 0.0, none⟩)) ∧
      (l.after op).undo.2 = !l.snapshots.isEmpty ∧
      (l.after op).undo.1.pages = l.snapshots.headD (l.after op).pages ∧
      ((l.after op).undo.1.pages = l.pages ↔ l.snapshots.head? = some l.pages)) := by
  refine ⟨fun hclears => ?_, fun hclears => ?_⟩
  · cases htakes : l.takesSnapshot op with
    | true => exact undo_after_of_takesSnapshot htakes
    | false => exact absurd (pages_after_of_not_takesSnapshot hop htakes hclears) hchanges
  · obtain ⟨hline, hsnapshots⟩ := after_of_clearsLine hl hclears
    have hpages := pages_undo (l.after op)
    rw [hsnapshots] at hpages
    refine ⟨hline, by rw [snd_undo, hsnapshots], hpages, ?_⟩
    rw [hpages]
    cases l.snapshots with
    | nil => exact ⟨fun h => absurd h hchanges, fun h => absurd h (by simp)⟩
    | cons pages rest => simp

/-- A line of two is taxed in place, and the undo brings it back without tax. Clearing the other one
cannot be taken back: the undo takes back the commit of the last line instead. -/
theorem undo_after_taxing_and_clearing :
    let l := (blank 2 18.0).afterAll
      [.edit "7x2".toList, .commit, .edit "1000".toList, .commit, .select 2]
    let l' := (blank 2 18.0).afterAll
      [.edit "7x2".toList, .commit, .edit "1000".toList, .commit, .select 1]
    (l.after (.commitTaxed .remove none)).undo.1.pages = l.pages ∧
      l.page.map Line.expression = ["7x2".toList, "1000".toList] ∧
      (l'.after .retract).undo.1.pages ≠ l'.pages ∧
      (l'.after .retract).undo.1.page.map Line.expression = ["7x2".toList] := by
  intro l l'
  have hl : l.Reachable := ⟨2, 18.0, _, rfl⟩
  have hl' : l'.Reachable := ⟨2, 18.0, _, rfl⟩
  have hchanges : (l.after (.commitTaxed .remove none)).pages ≠ l.pages := by
    intro h
    have htaxes := congrArg (List.map (List.map fun line : Line => line.tax.isSome)) h
    exact absurd htaxes (by decide)
  have hchanges' : (l'.after .retract).pages ≠ l'.pages := by
    intro h
    have htexts := congrArg (List.map (List.map Line.expression)) h
    exact absurd htexts (by decide)
  refine ⟨((undo_after_structural hl rfl hchanges).1 fun h => ?_).2, by rfl, ?_, by rfl⟩
  · exact absurd h.1 (by simp)
  · obtain ⟨-, -, -, hiff⟩ := (undo_after_structural hl' rfl hchanges').2 ⟨rfl, by decide, rfl⟩
    rw [Ne, hiff]
    intro hhead
    have hlengths := congrArg (Option.map (List.map List.length)) hhead
    exact absurd hlengths (by decide)

/-- The only line is picked up and cleared, and an undo does not bring its text back: it takes the
commit of the line back, and there is no line any more. -/
theorem not_undone_clearing_line :
    let l := (blank 1 18.0).afterAll [.edit "5".toList, .commit, .select 1]
    l.Reachable ∧ Operation.retract.isStructural = true ∧
      (l.after .retract).pages ≠ l.pages ∧ (l.after .retract).undo.1.pages ≠ l.pages ∧
      (l.after .retract).undo.1.pages = [[]] := by
  intro l
  refine ⟨⟨1, 18.0, _, rfl⟩, rfl, fun h => ?_, fun h => ?_, rfl⟩
  · have htexts := congrArg (List.map (List.map Line.expression)) h
    exact absurd htexts (by decide)
  · have hlengths := congrArg (List.map List.length) h
    exact absurd hlengths (by decide)

end RunningTab.Ledger
