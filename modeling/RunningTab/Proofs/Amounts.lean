import RunningTab.Proofs.Editor.History
import RunningTab.Proofs.Ledger.Agreement
import RunningTab.Proofs.Ledger.Totals
import RunningTab.Proofs.Prompt.Lines
import RunningTab.Proofs.Tax

/-!
# When amounts are finite

The value of a text is always finite: an evaluation refuses any other outcome
(`RunningTab.Expr.isFinite_evaluate`). A tax comes after that, and nothing looks at what it makes of
the value. So the result of a line is finite exactly if the tax on it, if there is one, is in range
(`RunningTab.Line.InRange`, `RunningTab.Line.Agrees.isFinite_result_iff`).

The prompt takes any rate that can be read, and a rate of minus a hundred percent makes the factor
zero. The editor only has the rates of its settings, and those of validated settings are finite and
not negative (`RunningTab.Settings.isRate_validated`). There a tax that is taken out never fails,
and a tax that is added fails by overflow only.

Nor is the sum of finite results finite by itself: every partial sum of a page has to be below the
overflow (`RunningTab.Page.isFinite_total_iff`).
-/

namespace RunningTab

open Decimal (value overflow)

/-! ### Values of texts -/

/-- **The value of a text is finite.** -/
theorem Expr.isFinite_evaluate (t : Text) : (evaluate t).isFinite = true := by
  rw [evaluate]
  split
  · next x hx =>
    rw [evaluate?, work] at hx
    split at hx
    · exact absurd hx (by simp)
    · next ts _ =>
      change (runPostfix (postfixOrder ts)).outcome.bind finiteOutcome = .ok x at hx
      cases houtcome : (runPostfix (postfixOrder ts)).outcome with
      | error e =>
        rw [houtcome] at hx
        exact absurd hx (by simp [Except.bind])
      | ok y =>
        rw [houtcome] at hx
        change finiteOutcome y = .ok x at hx
        rw [finiteOutcome] at hx
        split at hx
        · next hfinite => exact Except.ok.inj hx ▸ hfinite
        · exact absurd hx (by simp)
  · decide

/-! ### Lines -/

namespace Line

/-- **A line is in range** if the tax on it, if there is one, is. -/
def InRange (line : Line) : Prop :=
  ∀ tax ∈ line.tax, TaxInRange tax.breakdown.base tax.breakdown.rate tax.direction

variable {line : Line}

theorem Agrees.isFinite_base (h : line.Agrees) {tax : LineTax} (htax : tax ∈ line.tax) :
    tax.breakdown.base.isFinite = true := by
  rw [Agrees, Option.mem_def.1 htax] at h
  rw [h.1]
  exact Expr.isFinite_evaluate line.expression

theorem Agrees.result_eq_taxedTotal (h : line.Agrees) {tax : LineTax} (htax : tax ∈ line.tax) :
    line.result = taxedTotal tax.breakdown.base tax.breakdown.rate tax.direction := by
  rw [Agrees, Option.mem_def.1 htax] at h
  have hresult : line.result = (withTax tax.breakdown.base tax.breakdown.rate tax.direction).1 :=
    congrArg Prod.fst h.2
  rw [hresult]
  cases tax.direction <;> rfl

/-- **The result of a line is finite exactly if the line is in range.** -/
theorem Agrees.isFinite_result_iff (h : line.Agrees) :
    line.result.isFinite = true ↔ line.InRange := by
  cases htax : line.tax with
  | none =>
    have hresult : line.result = Expr.evaluate line.expression := by rwa [Agrees, htax] at h
    refine iff_of_true ?_ fun tax hmem => absurd (htax ▸ hmem) (by simp)
    rw [hresult]
    exact Expr.isFinite_evaluate line.expression
  | some tax =>
    have hmem : tax ∈ line.tax := Option.mem_def.2 htax
    rw [h.result_eq_taxedTotal hmem, isFinite_taxedTotal_iff (h.isFinite_base hmem), InRange, htax]
    simp

end Line

/-! ### Totals -/

namespace Page

/-- **A total is finite exactly if every result is, and no partial sum overflows.** -/
theorem isFinite_total_iff (p : Page) :
    p.total.isFinite = true ↔ ∀ before line, before ++ [line] <+: p →
      line.result.isFinite = true ∧ |value (total before) + value line.result| < overflow := by
  induction p using List.reverseRecOn with
  | nil =>
    refine iff_of_true (by decide) fun before line hbefore => ?_
    exact absurd (List.prefix_nil.1 hbefore) (by simp)
  | append_singleton p last ih =>
    rw [total_append]
    constructor
    · intro h before line hbefore
      obtain ⟨hp, hlast⟩ := Decimal.isFinite_of_add h
      rcases List.prefix_concat_iff.1 hbefore with heq | hbefore
      · obtain ⟨rfl, hline⟩ := List.append_inj' heq rfl
        obtain rfl := List.singleton_inj.1 hline
        exact ⟨hlast, (Decimal.isFinite_add_iff hp hlast).1 h⟩
      · exact ih.1 hp before line hbefore
    · intro h
      have hp := ih.2 fun before line hbefore =>
        h before line (hbefore.trans (List.prefix_append p [last]))
      obtain ⟨hlast, hlt⟩ := h p last (List.prefix_refl _)
      exact (Decimal.isFinite_add_iff hp hlast).2 hlt

end Page

/-! ### Validated settings -/

/-- The rates of validated settings can be used. -/
theorem Settings.isRate_validated (s : Settings) :
    isRate s.validated.defaultRate = true ∧ ∀ rate ∈ s.validated.rates, isRate rate = true := by
  constructor
  · change isRate (if isRate s.defaultRate then s.defaultRate else standard.defaultRate) = true
    split
    · assumption
    · decide
  · intro rate hrate
    change rate ∈ validRates s.rates at hrate
    rw [validRates] at hrate
    split at hrate
    · revert rate
      decide
    · exact (List.mem_filter.1 (List.mem_of_mem_take hrate)).2

/-! ### Ledgers -/

/-- A line without a tax that is added beyond the overflow. -/
def Line.AddsBelowOverflow (line : Line) : Prop :=
  ∀ tax ∈ line.tax, tax.direction = .add →
    |value tax.breakdown.base * value (taxFactor tax.breakdown.rate)| < overflow

/-- At rates that can be used only a tax that is added can leave the range. -/
theorem Line.inRange_iff {line : Line} (h : Ledger.Rated (Settings.isRate · = true) line) :
    line.InRange ↔ line.AddsBelowOverflow := by
  obtain ⟨hagrees, hrates⟩ := h
  refine forall₂_congr fun tax htax => ?_
  cases tax.direction with
  | add => simpa using taxInRange_add_iff (hrates tax htax)
  | remove => simpa using taxInRange_remove (hagrees.isFinite_base htax) (hrates tax htax)

/-- At the prompt every line agrees with its text. -/
theorem Ledger.agrees_afterLines (s : Settings) (lines : List Text) :
    ((blank s.pages s.defaultRate).afterLines s lines).AllLines Line.Agrees := by
  obtain ⟨history, hhistory⟩ := exists_history_afterLines s (blank s.pages s.defaultRate) lines
  rw [hhistory]
  exact afterAll_of_step (P := AllAgree) (fun l op hl => hl.after op)
    (allLines_blank Line.Agrees s.pages s.defaultRate) history

/-- In the editor it does so too, and with validated settings the rates can be used. -/
theorem Editor.rated_afterAll (s : Settings) (course : List Occurrence) :
    ((ofSettings s.validated).afterAll course).ledger.AllLines
      (Ledger.Rated (Settings.isRate · = true)) := by
  obtain ⟨history, hrates, hhistory⟩ := exists_history s.validated course
  obtain ⟨hdefault, hvalid⟩ := s.isRate_validated
  rw [hhistory]
  refine Ledger.rated_afterAll hdefault (Ledger.allLines_blank _ _ _) fun op hop => ?_
  exact (hrates op hop).mono hvalid

/-- **Results and totals are finite exactly in range.** At the prompt, whatever lines are typed, the
result of a line is finite exactly if the tax on it is in range. In the editor with validated
settings, whatever happens, it is finite exactly if no tax that was added took it beyond the
overflow. And a total is finite exactly if all results are, and no partial sum is beyond the
overflow. -/
theorem isFinite_iff_inRange (s : Settings) (lines : List Text) (course : List Editor.Occurrence)
    (page : Page) :
    (((Ledger.blank s.pages s.defaultRate).afterLines s lines).AllLines fun line =>
      (line.result.isFinite = true ↔ line.InRange)) ∧
    (((Editor.ofSettings s.validated).afterAll course).ledger.AllLines fun line =>
      (line.result.isFinite = true ↔ line.AddsBelowOverflow)) ∧
    (page.total.isFinite = true ↔ ∀ before line, before ++ [line] <+: page →
      line.result.isFinite = true ∧
        |value (Page.total before) + value line.result| < overflow) := by
  refine ⟨fun pages hpages page hpage line hline => ?_,
    fun pages hpages page hpage line hline => ?_, page.isFinite_total_iff⟩
  · exact (Ledger.agrees_afterLines s lines pages hpages page hpage line hline).isFinite_result_iff
  · have hrated := Editor.rated_afterAll s course pages hpages page hpage line hline
    exact hrated.1.isFinite_result_iff.trans (Line.inRange_iff hrated)

/-- A rate of minus a hundred percent is taken out by a division by zero, and the tax key adds its
rate beyond the overflow: neither result is finite, and the total that is shown is zero. -/
theorem not_isFinite_taken_out_or_added :
    let prompt := (Ledger.blank 4 18.0).afterLines .standard ["5 @--100".toList]
    let digits := "17".toList ++ List.replicate 307 '0'
    let editor := ((Editor.ofSettings Settings.standard.validated).afterAll
      [.event (.paste digits), .event (.key { code := .function 5 })]).ledger
    ∀ l ∈ [prompt, editor], l.page.map (fun line => line.result.isFinite) = [false] ∧
      l.pageTotal.isFinite = false ∧ Settings.standard.amount l.pageTotal = "0.00".toList := by
  decide +kernel

end RunningTab
