import RunningTab.Proofs.Ledger.Effect

/-!
# Undoing a history

Undo is a stack with a bottom that gives way. Some operations take a snapshot, which ones depends on
the ledger (`RunningTab.Ledger.takesSnapshot`); over a history they leave behind the pages that each
of them found (`RunningTab.Ledger.pagesFound`). The snapshots after a history are these pages, the
latest first, on top of the snapshots before it and cut to fifty
(`RunningTab.Ledger.snapshots_afterAll`), and operations that take none only pop them, one for each
undo (`RunningTab.Ledger.snapshots_afterAll_of_none`). So the undos that follow a history go back
through what its operations found, in the opposite order (`RunningTab.Ledger.undo_afterAll`).
-/

namespace RunningTab.Ledger

/-! ### Which operations take a snapshot -/

/-- Whether an operation is an undo. -/
def Operation.isUndo : Operation → Bool
  | .undo => true
  | _ => false

theorem Operation.eq_undo {op : Operation} (h : op.isUndo = true) : op = .undo := by
  cases op with
  | undo => rfl
  | _ => exact absurd h (by simp [Operation.isUndo])

/-- **Whether an operation takes a snapshot** of the ledger: a commit of a text with nothing
selected, a taxed commit of a text, a retraction from a page with lines and no text, and a wipe. -/
def takesSnapshot (l : Ledger) : Operation → Bool
  | .commit => l.selected.isNone && !l.input.isEmpty
  | .commitTaxed _ _ => !l.input.isEmpty
  | .retract => l.input.isEmpty && !l.page.isEmpty
  | .wipe => true
  | _ => false

/-- **The pages as the operations that take snapshots find them**, in the order of the history. -/
def pagesFound (l : Ledger) : List Operation → List (List Page)
  | [] => []
  | op :: history =>
    if l.takesSnapshot op then l.pages :: (l.after op).pagesFound history
    else (l.after op).pagesFound history

/-! ### The snapshots after an operation -/

/-- The snapshots with the pages on top, the bottom one dropped if they are too many. -/
def pushed (l : Ledger) : List (List Page) :=
  (l.pages :: l.snapshots).take snapshotLimit

theorem snapshots_edit (t : Text) (l : Ledger) : (l.edit t).snapshots = l.snapshots := by
  rw [edit]
  split <;> rfl

theorem snapshots_erase (position : Nat) (l : Ledger) :
    (l.erase position).1.snapshots = l.snapshots := by
  rw [erase]
  split
  · rfl
  · exact snapshots_edit _ l

theorem snapshots_select (id : Nat) (l : Ledger) :
    (l.select id).1.snapshots = l.snapshots := by
  rw [select]
  split <;> rfl

theorem snapshots_turnTo (index : Nat) (l : Ledger) :
    (l.turnTo index).1.snapshots = l.snapshots := by
  rw [turnTo]
  split <;> rfl

theorem snapshots_previousPage (l : Ledger) : l.previousPage.1.snapshots = l.snapshots := by
  rw [previousPage]
  split
  · rfl
  · exact snapshots_turnTo _ l

theorem snapshots_commit (l : Ledger) :
    l.commit.1.snapshots = if l.takesSnapshot .commit then l.pushed else l.snapshots := by
  rw [commit]
  split
  · next id hs => simp [takesSnapshot, hs, released]
  · next hs =>
    split
    · next hi => simp [takesSnapshot, hs, hi]
    · next hi =>
      simp [takesSnapshot, hs, hi]
      rfl

theorem snapshots_commitTaxed (direction : TaxDirection) (rate : Option Float) (l : Ledger) :
    (l.commitTaxed direction rate).1.snapshots =
      if l.takesSnapshot (.commitTaxed direction rate) then l.pushed else l.snapshots := by
  rw [commitTaxed]
  split
  · next hi => simp [takesSnapshot, hi]
  · next hi =>
    have htakes : l.takesSnapshot (.commitTaxed direction rate) = true := by
      simp [takesSnapshot, hi]
    rw [if_pos htakes]
    dsimp only
    split <;> rfl

theorem snapshots_retract (l : Ledger) :
    l.retract.snapshots = if l.takesSnapshot .retract then l.pushed else l.snapshots := by
  rw [retract]
  split
  · next hi => simp [takesSnapshot, hi, snapshots_edit]
  · next hi =>
    have hi : l.input = [] := Decidable.not_not.1 hi
    split
    · next hp =>
      have hpage : l.page = [] := List.getLast?_eq_none_iff.1 hp
      simp [takesSnapshot, hpage]
    · next line hp =>
      have hpage : l.page ≠ [] := by
        intro h
        rw [h] at hp
        exact absurd hp (by simp)
      have htakes : l.takesSnapshot .retract = true := by simp [takesSnapshot, hi, hpage]
      rw [if_pos htakes]
      dsimp only
      split <;> rfl

theorem snapshots_undo (l : Ledger) : l.undo.1.snapshots = l.snapshots.tail := by
  rw [undo]
  split
  · next h => rw [h]; rfl
  · next pages rest h =>
    rw [h]
    dsimp only
    split <;> rfl

/-- **The snapshots after an operation other than undo**: one more, or those of before. -/
theorem snapshots_after {op : Operation} (hop : op.isUndo = false) (l : Ledger) :
    (l.after op).snapshots = if l.takesSnapshot op then l.pushed else l.snapshots := by
  cases op with
  | edit t => exact snapshots_edit t l
  | insert position t => exact snapshots_edit _ l
  | erase position => exact snapshots_erase position l
  | commit => exact snapshots_commit l
  | commitTaxed direction rate => exact snapshots_commitTaxed direction rate l
  | select id => exact snapshots_select id l
  | deselect => rfl
  | retract => exact snapshots_retract l
  | wipe => rfl
  | turnTo index => exact snapshots_turnTo index l
  | nextPage => exact snapshots_turnTo _ l
  | previousPage => exact snapshots_previousPage l
  | undo => exact absurd hop (by decide)
  | turnGst on => rfl

/-- There are never more snapshots than are kept. -/
theorem length_snapshots_le {l : Ledger} (h : l.Reachable) :
    l.snapshots.length ≤ snapshotLimit := by
  refine of_reachable (P := fun l => l.snapshots.length ≤ snapshotLimit)
    (fun _ _ => Nat.zero_le _) (fun l op hl => ?_) h
  have htake : ∀ stack : List (List Page), (stack.take snapshotLimit).length ≤ snapshotLimit :=
    fun stack => by rw [List.length_take]; exact Nat.min_le_left _ _
  rcases effect_after l op with ⟨-, hs, -⟩ | ⟨-, -, -, hs, -⟩ | ⟨-, -, -, hs, -⟩ |
    ⟨-, -, -, -, hs, -⟩ | ⟨-, -, -, hs, -⟩ | ⟨hs, -⟩
  · rwa [hs]
  · rwa [hs]
  · rw [hs]; exact htake _
  · rw [hs]; exact htake _
  · rw [hs]; exact htake _
  · rw [hs, List.length_cons] at hl
    omega

/-! ### The snapshots after a history -/

/-- Cutting a stack twice is cutting it once. -/
theorem take_append_take {α : Type} (n : Nat) (xs ys : List α) :
    (xs ++ ys.take n).take n = (xs ++ ys).take n := by
  rw [List.take_append, List.take_append, List.take_take, Nat.min_eq_left (Nat.sub_le n _)]

/-- **The snapshots after a history without undos**: the pages that its operations found, the latest
first, on top of the snapshots before it, as many as are kept. -/
theorem snapshots_afterAll {history : List Operation} (hno : ∀ op ∈ history, op.isUndo = false)
    {l : Ledger} (hl : l.snapshots.length ≤ snapshotLimit) :
    (l.afterAll history).snapshots =
      ((l.pagesFound history).reverse ++ l.snapshots).take snapshotLimit := by
  induction history generalizing l with
  | nil => exact (List.take_of_length_le hl).symm
  | cons op history ih =>
    -- the operation pushes first, so what the rest of the history pushes comes on top of that
    obtain ⟨hop, hrest⟩ := List.forall_mem_cons.1 hno
    have hsnapshots := snapshots_after hop l
    change ((l.after op).afterAll history).snapshots = _
    rw [pagesFound]
    split at hsnapshots
    · next htakes =>
      have hlength : (l.after op).snapshots.length ≤ snapshotLimit := by
        rw [hsnapshots, pushed, List.length_take]
        exact Nat.min_le_left _ _
      rw [if_pos htakes, ih hrest hlength, hsnapshots, pushed, take_append_take,
        List.reverse_cons, List.append_assoc, List.singleton_append]
    · next htakes => rw [if_neg htakes, ih hrest (by rwa [hsnapshots]), hsnapshots]

/-- A history without snapshots goes on without them after its first operation. -/
theorem pagesFound_cons_eq_nil {l : Ledger} {op : Operation} {history : List Operation}
    (h : l.pagesFound (op :: history) = []) :
    l.takesSnapshot op = false ∧ (l.after op).pagesFound history = [] := by
  rw [pagesFound] at h
  split at h
  · exact absurd h (by simp)
  · next htakes => exact ⟨Bool.eq_false_iff.2 htakes, h⟩

/-- **The snapshots after a history that takes none**: every undo takes one away. -/
theorem snapshots_afterAll_of_none {history : List Operation} {l : Ledger}
    (hnone : l.pagesFound history = []) :
    (l.afterAll history).snapshots = l.snapshots.drop (history.countP Operation.isUndo) := by
  induction history generalizing l with
  | nil => rfl
  | cons op history ih =>
    obtain ⟨htakes, hrest⟩ := pagesFound_cons_eq_nil hnone
    change ((l.after op).afterAll history).snapshots = _
    rw [ih hrest]
    cases hop : op.isUndo with
    | false =>
      rw [snapshots_after hop l, htakes, List.countP_cons_of_neg (by simp [hop])]
      rfl
    | true =>
      obtain rfl : op = .undo := Operation.eq_undo hop
      rw [show l.after .undo = l.undo.1 from rfl, snapshots_undo,
        List.countP_cons_of_pos (by simp [hop]), List.drop_tail]

/-! ### Going back -/

/-- An undo brings the latest snapshot back. -/
theorem undo_of_cons {l : Ledger} {pages : List Page} {rest : List (List Page)}
    (h : l.snapshots = pages :: rest) : l.undo.2 = true ∧ l.undo.1.pages = pages := by
  rw [undo, h]
  dsimp only
  split <;> exact ⟨rfl, rfl⟩

/-- Without snapshots there is nothing to undo. -/
theorem undo_of_nil {l : Ledger} (h : l.snapshots = []) : l.undo.2 = false := by
  rw [undo, h]

/-- **Undo goes back through a history, step by step and at most fifty steps.** Let `n` operations
of a history without undos take snapshots, and then operations that take none follow, undos among
them. If there were `j - 1` undos, the next one restores the pages as the `j`-th last of the `n`
operations found them; if fifty or more were needed, it has nothing to restore. -/
theorem undo_afterAll {l : Ledger} (hl : l.Reachable) {history later : List Operation}
    (hhistory : ∀ op ∈ history, op.isUndo = false)
    (hlater : (l.afterAll history).pagesFound later = []) :
    let n := (l.pagesFound history).length
    let j := later.countP Operation.isUndo + 1
    let last := (l.afterAll history).afterAll later
    (j ≤ min n 50 →
      last.undo.2 = true ∧ (l.pagesFound history)[n - j]? = some last.undo.1.pages) ∧
    (50 ≤ n → 50 < j → last.undo.2 = false) := by
  intro n j last
  have hlast : last.snapshots =
      (((l.pagesFound history).reverse ++ l.snapshots).take snapshotLimit).drop (j - 1) := by
    rw [snapshots_afterAll_of_none hlater, snapshots_afterAll hhistory (length_snapshots_le hl)]
    rfl
  constructor
  · intro hj
    have hlength : (l.pagesFound history).reverse.length = n := List.length_reverse
    -- the latest snapshot is the `j`-th from the end of what the history found
    have hhead : last.snapshots[0]? = (l.pagesFound history)[n - j]? := by
      rw [hlast, List.getElem?_drop, List.getElem?_take_of_lt (by rw [snapshotLimit]; omega),
        List.getElem?_append_left (by omega), List.getElem?_reverse (by omega)]
      exact congrArg (fun i => (l.pagesFound history)[i]?) (by omega)
    rcases hsnapshots : last.snapshots with _ | ⟨pages, rest⟩
    · rw [hsnapshots, List.getElem?_nil] at hhead
      have hout : n ≤ n - j := List.getElem?_eq_none_iff.1 hhead.symm
      omega
    · obtain ⟨hundo, hpages⟩ := undo_of_cons hsnapshots
      rw [hsnapshots, List.getElem?_cons_zero] at hhead
      exact ⟨hundo, by rw [hpages]; exact hhead.symm⟩
  · intro hn hj
    refine undo_of_nil ?_
    rw [hlast]
    refine List.drop_eq_nil_of_le ?_
    rw [List.length_take, snapshotLimit]
    omega

/-- Two lines, one of them retyped, and a wipe; after one undo the line is retyped again, and the
second undo restores the pages as the second of the two commits found them. -/
theorem undo_after_retyping :
    let history : List Operation :=
      [.edit "1".toList, .commit, .edit "2".toList, .commit, .select 1, .edit "3".toList, .deselect,
        .wipe]
    let later : List Operation := [.undo, .select 2, .edit "4".toList, .nextPage]
    let found := (blank 2 18.0).pagesFound history
    let last := ((blank 2 18.0).afterAll history).afterAll later
    (∀ op ∈ history, op.isUndo = false) ∧
      ((blank 2 18.0).afterAll history).pagesFound later = [] ∧
      found.length = 3 ∧ later.countP Operation.isUndo + 1 = 2 ∧
      (last.undo.2 = true ∧ found[3 - 2]? = some last.undo.1.pages) ∧
      last.undo.1.pages.map (·.map Line.expression) = [["1".toList], []] := by
  intro history later found last
  have hblank : (blank 2 18.0).Reachable := ⟨2, 18.0, [], rfl⟩
  have hhistory : ∀ op ∈ history, op.isUndo = false := by decide
  have hlater : ((blank 2 18.0).afterAll history).pagesFound later = [] := by rfl
  have hn : found.length = 3 := by rfl
  have hj : later.countP Operation.isUndo + 1 = 2 := by rfl
  have h : later.countP Operation.isUndo + 1 ≤ min found.length 50 → last.undo.2 = true ∧
      found[found.length - (later.countP Operation.isUndo + 1)]? = some last.undo.1.pages :=
    (undo_afterAll hblank hhistory hlater).1
  rw [hj, hn] at h
  exact ⟨hhistory, hlater, hn, hj, h (by decide), by rfl⟩

end RunningTab.Ledger
