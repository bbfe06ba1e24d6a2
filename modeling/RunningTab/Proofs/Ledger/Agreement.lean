import RunningTab.Proofs.Ledger.Effect

/-!
# Stored lines agree with their text

In every reachable ledger each line, on its pages and in its snapshots, agrees with its own text
(`RunningTab.Ledger.agrees_of_reachable`): what an operation writes agrees when it is written, and
no operation lets go of a line that it changes.
-/

namespace RunningTab.Ledger

/-- Every line of some pages agrees with its text. -/
def PagesAgree (pages : List Page) : Prop :=
  ∀ page ∈ pages, ∀ line ∈ page, line.Agrees

/-- Every line that the ledger keeps agrees with its text, in the snapshots too. -/
def AllAgree (l : Ledger) : Prop :=
  ∀ pages ∈ l.pages :: l.snapshots, PagesAgree pages

/-- **Operations keep the lines in agreement.** -/
theorem AllAgree.after {l : Ledger} (h : l.AllAgree) (op : Operation) : (l.after op).AllAgree := by
  have heffect := effect_after l op
  have hpages : PagesAgree l.pages := h l.pages List.mem_cons_self
  have hamend : ∀ new : Line, new.Agrees →
      PagesAgree (l.pages.modify l.current (Page.amend new.id fun _ => new)) := by
    intro new hnew
    refine forall_mem_modify hpages l.current (fun _ h => h) fun page hpage line hline => ?_
    rcases Page.mem_amend hline with rfl | hmem
    · exact hnew
    · exact hpage line hmem
  -- what is new can only be among the pages: every snapshot was there before
  refine List.forall_mem_cons.2 ⟨?_, fun pages hmem => h pages (heffect.mem_of_mem_snapshots hmem)⟩
  rcases heffect with ⟨hp, -⟩ | ⟨new, hnew, hp, -⟩ | ⟨new, hnew, hp, -⟩ | ⟨new, hnew, -, hp, -⟩ |
    ⟨f, hf, hp, -⟩ | ⟨hs, -⟩
  · rw [hp]
    exact hpages
  · rw [hp]
    exact hamend new hnew
  · rw [hp]
    exact hamend new hnew
  · rw [hp]
    refine forall_mem_modify hpages l.current (fun _ h => h) fun page hpage line hline => ?_
    rcases List.mem_append.1 hline with hmem | hmem
    · exact hpage line hmem
    · rw [List.mem_singleton.1 hmem]
      exact hnew
  · rw [hp]
    refine forall_mem_modify hpages l.current (fun _ h => h) fun page hpage line hline => ?_
    exact hpage line ((hf page).subset hline)
  · refine h _ (List.mem_cons_of_mem l.pages ?_)
    rw [hs]
    exact List.mem_cons_self

/-- **In every reachable ledger each line agrees with its own text**, on the pages and in the
snapshots. -/
theorem agrees_of_reachable {l : Ledger} (h : l.Reachable) :
    ∀ pages ∈ l.pages :: l.snapshots, ∀ page ∈ pages, ∀ line ∈ page, line.Agrees := by
  refine of_reachable (P := AllAgree) (fun pageCount rate => ?_) (fun l op hl => hl.after op) h
  intro pages hpages page hpage line hline
  obtain rfl : pages = List.replicate (max pageCount 1) [] := List.mem_singleton.1 hpages
  obtain rfl : page = [] := List.eq_of_mem_replicate hpage
  exact absurd hline (by simp)

/-- A line that was taxed, picked up and retyped, and one brought back by undo. -/
theorem agrees_of_retyped_and_restored :
    ∃ l : Ledger, l.Reachable ∧
      l.page.map Line.expression = ["7x2".toList, "80%".toList] ∧
      l.page.map (fun line => line.tax.isSome) = [false, true] ∧
      ∀ pages ∈ l.pages :: l.snapshots, ∀ page ∈ pages, ∀ line ∈ page, line.Agrees := by
  let history : List Operation :=
    [.edit "100+5%".toList, .commitTaxed .add (some 18.0), .select 1, .edit "7x2".toList, .commit,
      .edit "80%".toList, .commitTaxed .remove none, .wipe, .undo]
  have hreachable : ((blank 1 5.0).afterAll history).Reachable := ⟨1, 5.0, history, rfl⟩
  exact ⟨_, hreachable, by rfl, by rfl, agrees_of_reachable hreachable⟩

end RunningTab.Ledger
