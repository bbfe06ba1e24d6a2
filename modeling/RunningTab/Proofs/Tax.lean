import RunningTab.Proofs.Decimal.LowerBound
import RunningTab.Settings.Basic
import RunningTab.Tax

/-!
# When a taxed total is finite

A tax multiplies a finite base amount with a factor, or divides it by one, and rounds once. So its
total is finite exactly if the factor allows it and the exact product or quotient is below the
overflow (`RunningTab.TaxInRange`, `RunningTab.isFinite_taxedTotal_iff`).

At a rate that can be used, finite and not negative, the factor is finite and at least one
(`RunningTab.one_le_value_taxFactor`). Then taking a tax out always gives a finite total, and adding
it fails only by overflow (`RunningTab.taxInRange_remove`, `RunningTab.taxInRange_add_iff`).
-/

namespace RunningTab

open Decimal (value overflow)

/-- **The total of a base amount is in range.** A tax that is added needs a finite factor, one that
is taken out a factor that is not zero or an infinite one; and the exact total is below the
overflow. -/
def TaxInRange (base rate : Float) : TaxDirection → Prop
  | .add => (taxFactor rate).isFinite = true ∧ |value base * value (taxFactor rate)| < overflow
  | .remove =>
    (taxFactor rate).isInf = true ∨
      (taxFactor rate).isFinite = true ∧ value (taxFactor rate) ≠ 0 ∧
        |value base / value (taxFactor rate)| < overflow

section

variable {base rate : Float}

/-- **A taxed total is finite exactly if it is in range.** -/
theorem isFinite_taxedTotal_iff (hbase : base.isFinite = true) (direction : TaxDirection) :
    (taxedTotal base rate direction).isFinite = true ↔ TaxInRange base rate direction := by
  cases direction with
  | add =>
    constructor
    · intro h
      obtain ⟨-, hfactor⟩ := Decimal.isFinite_of_mul h
      exact ⟨hfactor, (Decimal.isFinite_mul_iff hbase hfactor).1 h⟩
    · rintro ⟨hfactor, hlt⟩
      exact (Decimal.isFinite_mul_iff hbase hfactor).2 hlt
  | remove =>
    constructor
    · intro h
      rcases (Decimal.isFinite_of_div h).2 with hinf | ⟨hfactor, hne⟩
      · exact Or.inl hinf
      · exact Or.inr ⟨hfactor, hne, (Decimal.isFinite_div_iff hbase hfactor hne).1 h⟩
    · rintro (hinf | ⟨hfactor, hne, hlt⟩)
      · exact Decimal.isFinite_div_of_isInf hbase hinf
      · exact (Decimal.isFinite_div_iff hbase hfactor hne).2 hlt

/-! ### Rates that can be used -/

theorem value_hundred : value 100.0 = 100 := by
  have hsign : Decimal.isNegative 100.0 = false := by decide
  have hmagnitude : Decimal.Magnitude.ofFloat 100.0 = ⟨100 * 2 ^ 46, -46⟩ := by decide
  rw [value, hsign, hmagnitude]
  norm_num

/-- A hundredth of a rate that can be used is finite and not negative. -/
theorem zero_le_value_hundredth (h : Settings.isRate rate = true) :
    (rate / 100.0).isFinite = true ∧ 0 ≤ value (rate / 100.0) := by
  rw [Settings.isRate, Bool.and_eq_true, decide_eq_true_eq] at h
  obtain ⟨hfinite, hle⟩ := h
  have hnonneg := Decimal.zero_le_value_of_le hfinite hle
  refine ⟨(Decimal.isFinite_div_iff hfinite (by decide) (by rw [value_hundred]; norm_num)).2 ?_,
    Decimal.zero_le_value_div hfinite hnonneg (by decide) (by rw [value_hundred]; norm_num)⟩
  have hlt := Decimal.abs_value_lt hfinite
  rw [value_hundred, abs_div, abs_of_pos (a := (100 : ℚ)) (by norm_num)]
  have hdiv : |value rate| / 100 ≤ |value rate| := div_le_self (abs_nonneg _) (by norm_num)
  exact lt_of_le_of_lt hdiv hlt

/-- **The factor of a rate that can be used** is finite and at least one. -/
theorem one_le_value_taxFactor (h : Settings.isRate rate = true) :
    (taxFactor rate).isFinite = true ∧ 1 ≤ value (taxFactor rate) := by
  obtain ⟨hfinite, hnonneg⟩ := zero_le_value_hundredth h
  exact Decimal.one_le_value_one_add hfinite hnonneg

/-- What is taken out at a rate that can be used leaves a total in range. -/
theorem taxInRange_remove (hbase : base.isFinite = true) (h : Settings.isRate rate = true) :
    TaxInRange base rate .remove := by
  obtain ⟨hfactor, hone⟩ := one_le_value_taxFactor h
  refine Or.inr ⟨hfactor, by linarith, ?_⟩
  have hle : |value base / value (taxFactor rate)| ≤ |value base| := by
    rw [abs_div]
    exact div_le_self (abs_nonneg _) (le_trans hone (le_abs_self _))
  exact lt_of_le_of_lt hle (Decimal.abs_value_lt hbase)

/-- What is added at a rate that can be used gives a total in range unless it overflows. -/
theorem taxInRange_add_iff (h : Settings.isRate rate = true) :
    TaxInRange base rate .add ↔ |value base * value (taxFactor rate)| < overflow :=
  ⟨fun hin => hin.2, fun hlt => ⟨(one_le_value_taxFactor h).1, hlt⟩⟩

end

end RunningTab
