import RunningTab.Proofs.Decimal.Comparison
import RunningTab.Proofs.Ledger.Selection

/-!
# The total before and after a commit

While a text is being typed the grand total already counts it, and enter must not change what is
shown. Sums of binary64 numbers depend on their order, so this is not a matter of arithmetic but of
doing the same sum: a page is summed from its first line on, the new line comes last, and the value
of the text is what it adds (`RunningTab.Page.total_append`). With a line selected the page counts
the text already, and a commit only puts the line down.

What is left is the commit of nothing, where the grand total has a zero too many. It shows, because
the empty page sums to negative zero; as numbers the two totals are the same
(`RunningTab.Ledger.pageTotal_commit`).
-/

namespace RunningTab

open Decimal (SameNumber sameNumber_refl sameNumber_add_zero)

/-- A line at the end of a page adds its result to the total. -/
theorem Page.total_append (p : Page) (line : Line) :
    Page.total (p ++ [line]) = p.total + line.result := by
  rw [total, total, List.foldl_append, List.foldl_cons, List.foldl_nil]

namespace Ledger

variable {l : Ledger}

/-! ### The cases of a commit -/

/-- With a line selected a commit leaves the page as it is, which counts the text already. -/
theorem pageTotal_commit_of_selected (h : l.selected.isSome = true) :
    l.commit.1.pageTotal = l.grandTotal := by
  obtain ⟨id, hid⟩ := Option.isSome_iff_exists.1 h
  rw [commit, grandTotal, hid]
  rfl

/-- **A text that is committed adds its value to the page**, as it did before in the grand
total. -/
theorem pageTotal_commit_of_input (hl : l.Reachable) (hselected : l.selected = none)
    (hinput : l.input ≠ []) : l.commit.1.pageTotal = l.grandTotal := by
  have hpage : l.commit.1.page =
      l.page ++ [⟨l.nextId, l.input, Expr.evaluate l.input, none⟩] := by
    rw [commit, hselected, if_neg hinput]
    exact page_onPage (numbered_of_reachable hl).current_lt _
  rw [pageTotal, hpage, Page.total_append, grandTotal, hselected, preview, if_neg hinput]
  rfl

/-- Without a text and a selection nothing is committed. -/
theorem commit_of_nothing (hselected : l.selected = none) (hinput : l.input = []) :
    l.commit.1 = l := by
  rw [commit, hselected, if_pos hinput]

/-- Without a text and a selection the grand total is the total of the page, and zero. -/
theorem grandTotal_of_nothing (hselected : l.selected = none) (hinput : l.input = []) :
    l.grandTotal = l.pageTotal + 0.0 := by
  rw [grandTotal, hselected, preview, if_pos hinput]

/-- A commit leaves no text and no selection. -/
theorem selected_and_input_commit (l : Ledger) :
    l.commit.1.selected = none ∧ l.commit.1.input = [] := by
  rw [commit]
  split
  · exact ⟨rfl, rfl⟩
  · next hselected =>
    split
    · next hinput => exact ⟨hselected, hinput⟩
    · exact ⟨rfl, rfl⟩

/-! ### Before and after -/

/-- **The total that is shown before a commit is the total after it.** In every reachable ledger,
whatever its lines are and whatever the text is, the total of the page after a commit is the grand
total before it: the very same binary64 number if a line is selected or there is a text, and the
same number in any case. So is the grand total after the commit, which is what is shown then. -/
theorem pageTotal_commit (hl : l.Reachable) :
    (l.selected.isSome = true ∨ l.input ≠ [] → l.commit.1.pageTotal = l.grandTotal) ∧
    SameNumber l.commit.1.pageTotal l.grandTotal ∧
    SameNumber l.commit.1.grandTotal l.grandTotal := by
  obtain ⟨hselected', hinput'⟩ := selected_and_input_commit l
  have hafter := grandTotal_of_nothing hselected' hinput'
  by_cases h : l.selected.isSome = true ∨ l.input ≠ []
  · have heq : l.commit.1.pageTotal = l.grandTotal := by
      cases hselected : l.selected with
      | some id => exact pageTotal_commit_of_selected (by rw [hselected]; rfl)
      | none =>
        rw [hselected] at h
        exact pageTotal_commit_of_input hl hselected (h.resolve_left (by simp))
    rw [hafter, heq]
    exact ⟨fun _ => rfl, sameNumber_refl _, (sameNumber_add_zero _).1⟩
  · have hselected : l.selected = none := by
      simpa using fun hsome => h (Or.inl hsome)
    have hinput : l.input = [] := Decidable.not_not.1 fun hne => h (Or.inr hne)
    rw [commit_of_nothing hselected hinput, grandTotal_of_nothing hselected hinput]
    exact ⟨fun hcases => absurd hcases h, (sameNumber_add_zero _).2, sameNumber_refl _⟩

/-- Three tenths on top of two lines make the sum of three lines, with the rounding of that order.
Two taxes that divide by zero leave a page without a total, and a commit of nothing leaves it so. -/
theorem pageTotal_commit_tenths :
    let l := (blank 1 18.0).afterAll
      [.edit "0.1".toList, .commit, .edit "0.2".toList, .commit, .edit "0.3".toList]
    let l' := (blank 1 18.0).afterAll
      [.edit "5".toList, .commitTaxed .remove (some (-100.0)), .edit "-5".toList,
        .commitTaxed .remove (some (-100.0))]
    (l.input ≠ [] ∧ l.commit.1.pageTotal = l.grandTotal ∧ l.grandTotal = 0.6000000000000001) ∧
      l'.pageTotal.isNaN = true ∧ SameNumber l'.commit.1.pageTotal l'.grandTotal := by
  intro l l'
  have hl : l.Reachable := ⟨1, 18.0, _, rfl⟩
  have hl' : l'.Reachable := ⟨1, 18.0, _, rfl⟩
  have hinput : l.input ≠ [] := by decide
  exact ⟨⟨hinput, (pageTotal_commit hl).1 (Or.inr hinput), by decide +kernel⟩, by decide +kernel,
    (pageTotal_commit hl').2.1⟩

end Ledger

end RunningTab
