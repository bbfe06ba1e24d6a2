import RunningTab.Proofs.Ledger.TakingBack

/-!
# What an operation reports and what it leaves alone

Half of the operations report whether they have done anything (`RunningTab.Ledger.report?`): a
commit by the identifier of its line, a selection, a turn of the page and an undo by a word. They
report that they have not exactly if there was nothing for them to do
(`RunningTab.Ledger.report?_eq_false_iff`), and then the whole ledger is as it was: no snapshot has
been taken, no identifier used up.

What an operation does, it does on the page that is looked at. Only an undo may bring back other
pages as they were (`RunningTab.Ledger.exists_pages_after`). So the other pages keep their lines
through every operation, and a page that is never looked at keeps them through a whole history
(`RunningTab.Ledger.getElem?_pages_afterAll`).
-/

namespace RunningTab.Ledger

variable {l : Ledger} {op : Operation}

/-! ### Reports -/

/-- **What an operation reports**: whether it has done anything. Some operations report nothing. -/
def report? (l : Ledger) : Operation → Option Bool
  | .commit => some l.commit.2.isSome
  | .commitTaxed direction rate => some (l.commitTaxed direction rate).2.isSome
  | .select id => some (l.select id).2
  | .turnTo index => some (l.turnTo index).2
  | .nextPage => some l.nextPage.2
  | .previousPage => some l.previousPage.2
  | .undo => some l.undo.2
  | _ => none

/-- **There is nothing to do for an operation that reports**: no text to commit and no line to put
down, no such line or page, no snapshot. -/
def NothingToDo (l : Ledger) : Operation → Prop
  | .commit => l.selected = none ∧ l.input = []
  | .commitTaxed _ _ => l.input = []
  | .select id => ∀ line ∈ l.page, line.id ≠ id
  | .turnTo index => l.pages.length ≤ index
  | .nextPage => l.pages.length ≤ l.current + 1
  | .previousPage => l.current = 0
  | .undo => l.snapshots = []
  | _ => False

theorem isSome_commit (l : Ledger) :
    l.commit.2.isSome = !(l.selected.isNone && l.input.isEmpty) := by
  rw [commit]
  split
  · next hselected => rw [hselected]; rfl
  · next hselected =>
    split
    · next hinput => rw [hselected, hinput]; rfl
    · next hinput => simp [hselected, hinput]

theorem isSome_commitTaxed (direction : TaxDirection) (rate : Option Float) (l : Ledger) :
    (l.commitTaxed direction rate).2.isSome = !l.input.isEmpty := by
  rw [commitTaxed]
  split
  · next hinput => rw [hinput]; rfl
  · next hinput =>
    dsimp only
    split <;> simp [hinput]

theorem snd_select (id : Nat) (l : Ledger) : (l.select id).2 = (l.page.line? id).isSome := by
  rw [select]
  split
  · next hline => rw [hline]; rfl
  · next hline => rw [hline]; rfl

theorem snd_turnTo (index : Nat) (l : Ledger) :
    (l.turnTo index).2 = decide (index < l.pages.length) := by
  rw [turnTo]
  split
  · next h => exact (decide_eq_true h).symm
  · next h => exact (decide_eq_false h).symm

/-- The page before is there, unless the first one is looked at. -/
theorem snd_previousPage (hl : l.current < l.pages.length) :
    l.previousPage.2 = decide (l.current ≠ 0) := by
  rw [previousPage]
  split
  · next h => rw [h]; rfl
  · next before h =>
    rw [snd_turnTo, h, decide_eq_true (show before < l.pages.length by omega)]
    rfl

/-- **An operation reports that it has done nothing exactly if there was nothing to do.** -/
theorem report?_eq_false_iff (hl : l.Reachable) (op : Operation) :
    l.report? op = some false ↔ l.NothingToDo op := by
  have hcurrent := (numbered_of_reachable hl).current_lt
  cases op <;> simp only [report?, NothingToDo, Option.some.injEq, reduceCtorEq]
  case commit => simp [isSome_commit]
  case commitTaxed direction rate => simp [isSome_commitTaxed]
  case select id => simp [snd_select, Page.line?]
  case turnTo index => simp [snd_turnTo]
  case nextPage => simp [nextPage, snd_turnTo]
  case previousPage => simp [snd_previousPage hcurrent]
  case undo => simp [snd_undo]

/-- **Where there is nothing to do, nothing is done.** -/
theorem after_of_nothingToDo (h : l.NothingToDo op) : l.after op = l := by
  cases op with
  | commit =>
    change l.commit.1 = l
    rw [commit, h.1]
    dsimp only
    rw [if_pos h.2]
  | commitTaxed direction rate =>
    have hinput : l.input = [] := h
    change (l.commitTaxed direction rate).1 = l
    rw [commitTaxed, if_pos hinput]
  | select id =>
    have hnone : l.page.line? id = none := by
      rw [Page.line?, List.find?_eq_none]
      exact fun line hline hid => h line hline (beq_iff_eq.1 hid)
    change (l.select id).1 = l
    rw [select, hnone]
  | turnTo index =>
    change (l.turnTo index).1 = l
    rw [turnTo, if_neg (Nat.not_lt.2 h)]
  | nextPage =>
    change (l.turnTo (l.current + 1)).1 = l
    rw [turnTo, if_neg (Nat.not_lt.2 h)]
  | previousPage =>
    have hfirst : l.current = 0 := h
    change l.previousPage.1 = l
    rw [previousPage, hfirst]
  | undo =>
    have hnone : l.snapshots = [] := h
    change l.undo.1 = l
    rw [undo, hnone]
  | _ => exact absurd h id

/-! ### Other pages -/

/-- **Everything but an undo changes the page that is looked at, at most.** -/
theorem exists_pages_after (hl : l.Reachable) (hop : op.isUndo = false) :
    ∃ f, (l.after op).pages = l.pages.modify l.current f := by
  rcases effect_after l op with ⟨hp, -⟩ | ⟨new, -, hp, -⟩ | ⟨new, -, hp, -⟩ |
    ⟨new, -, -, hp, -⟩ | ⟨f, -, hp, -⟩ | ⟨hs, -⟩
  · exact ⟨id, by rw [hp, List.modify_id]⟩
  · exact ⟨_, hp⟩
  · exact ⟨_, hp⟩
  · exact ⟨_, hp⟩
  · exact ⟨f, hp⟩
  · exact absurd hs (not_restore hl hop)

/-- Another page is as it was after everything but an undo. -/
theorem getElem?_pages_after (hl : l.Reachable) (hop : op.isUndo = false) {i : Nat}
    (hi : i ≠ l.current) : (l.after op).pages[i]? = l.pages[i]? := by
  obtain ⟨f, hf⟩ := exists_pages_after hl hop
  rw [hf, List.getElem?_modify_ne _ _ hi.symm]

/-- The indices of the pages that the operations of a history find in front of them. -/
def pagesLookedAt (l : Ledger) : List Operation → List Nat
  | [] => []
  | op :: history => l.current :: (l.after op).pagesLookedAt history

/-- **A page that is not looked at is as it was after a history without undos.** -/
theorem getElem?_pages_afterAll (hl : l.Reachable) {history : List Operation}
    (hhistory : ∀ op ∈ history, op.isUndo = false) {i : Nat} (hi : i ∉ l.pagesLookedAt history) :
    (l.afterAll history).pages[i]? = l.pages[i]? := by
  induction history generalizing l with
  | nil => rfl
  | cons op history ih =>
    obtain ⟨hop, hrest⟩ := List.forall_mem_cons.1 hhistory
    obtain ⟨hcurrent, hlater⟩ := not_or.1 (fun h => hi (List.mem_cons.2 h))
    change ((l.after op).afterAll history).pages[i]? = _
    rw [ih (hl.after op) hrest hlater, getElem?_pages_after hl hop hcurrent]

/-- **What reports that nothing was done has done nothing, and pages are independent.** -/
theorem after_eq_self_and_other_pages (hl : l.Reachable) (op : Operation) :
    (l.report? op = some false → l.after op = l) ∧
      (op ≠ .undo → ∀ i, i ≠ l.current → (l.after op).pages[i]? = l.pages[i]?) := by
  refine ⟨fun h => after_of_nothingToDo ((report?_eq_false_iff hl op).1 h), fun hop i hi => ?_⟩
  refine getElem?_pages_after hl (Bool.eq_false_iff.2 fun hundo => ?_) hi
  exact hop (Operation.eq_undo hundo)

/-- From the second page the line of the first one cannot be selected, and there is no third page to
turn to; a wipe of the second page leaves the first one alone. -/
theorem after_eq_self_on_second_page :
    let l := (blank 2 18.0).afterAll
      [.edit "7x2".toList, .commit, .nextPage, .edit "1000".toList, .commitTaxed .add none]
    l.Reachable ∧ (l.report? (.select 1) = some false ∧ l.after (.select 1) = l) ∧
      (l.report? .nextPage = some false ∧ l.after .nextPage = l) ∧
      0 ≠ l.current ∧ (l.after .wipe).pages[0]? = l.pages[0]? ∧
      l.pages.map (·.map Line.id) = [[1], [2]] ∧
      (l.after .wipe).pages.map (·.map Line.id) = [[1], []] := by
  intro l
  have hl : l.Reachable := ⟨2, 18.0, _, rfl⟩
  have hselect : l.report? (.select 1) = some false := by rfl
  have hnext : l.report? .nextPage = some false := by rfl
  have hcurrent : 0 ≠ l.current := by decide
  exact ⟨hl, ⟨hselect, (after_eq_self_and_other_pages hl (.select 1)).1 hselect⟩,
    ⟨hnext, (after_eq_self_and_other_pages hl .nextPage).1 hnext⟩, hcurrent,
    (after_eq_self_and_other_pages hl .wipe).2 nofun 0 hcurrent, by rfl, by rfl⟩

end RunningTab.Ledger
