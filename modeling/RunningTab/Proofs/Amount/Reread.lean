import RunningTab.CommandLine.Program
import RunningTab.Proofs.Amount.Shown
import RunningTab.Proofs.Amounts
import RunningTab.Proofs.Decimal.Closest
import RunningTab.Proofs.Expr.Stacked

/-!
# Reading what is shown

Rounding to decimal places and reading the places as a binary64 number are two roundings, on two
grids that have little to do with each other, and yet the calculator gives back the text that it is
given, if the text is one of its own (`RunningTab.oneShot_oneShot`).

The reason is that the number that is read is the closest to the decimal, so it is at least as close
to it as the number that was shown (`RunningTab.Decimal.abs_value_nearest_sub_le`). What was shown
was rounded to the decimal, and what is nearer is rounded to it too
(`RunningTab.Decimal.IsNearestEven.of_nearer`), even from the middle between two decimals. The sign
is read as a unary minus, which turns the sign of the number and nothing else.
-/

namespace RunningTab

open Decimal (IsNearestEven IsPlaced Magnitude fractionText nearestScaled ofDigits overflow
  pointedValue value)

/-! ### Reading a numeral -/

namespace Expr

/-- A numeral is worked out to its value. -/
theorem evaluate?_numeral (n : Numeral) : evaluate? n.chars = finiteOutcome n.value :=
  evaluate?_phrase (p := .numeral n) trivial

/-- A numeral behind a minus is worked out to its value negated. -/
theorem evaluate?_minus (n : Numeral) : evaluate? ('-' :: n.chars) = finiteOutcome (-n.value) :=
  evaluate?_phrase (p := .minus .none (.numeral n)) ⟨rfl, trivial⟩

end Expr

/-! ### The decimal that is shown -/

namespace DecimalPlaces

/-- The number of places that a policy rounds to. -/
def places : DecimalPlaces → ℕ
  | auto => autoPlaces
  | fixed places => places

/-- Magnitudes that are rounded alike are shown alike. -/
theorem magnitudeText_congr {policy : DecimalPlaces} {v w : Magnitude}
    (h : v.inUnits policy.places = w.inUnits policy.places) :
    policy.magnitudeText v = policy.magnitudeText w := by
  cases policy with
  | auto =>
    change trimZeros (Decimal.pointed (v.inUnits autoPlaces) autoPlaces) = _
    rw [show v.inUnits autoPlaces = w.inUnits autoPlaces from h]
    rfl
  | fixed places =>
    change Decimal.pointed (v.inUnits places) places = _
    rw [show v.inUnits places = w.inUnits places from h]
    rfl

end DecimalPlaces

/-- **The decimal that is shown of a finite number**: `n` units of the last place. -/
structure Shows (policy : DecimalPlaces) (x : Float) (n : ℕ) (whole fraction : Text) : Prop
    extends IsPlaced whole fraction where
  nearest : IsNearestEven (|value x| * 10 ^ policy.places) n
  pointedValue_eq : pointedValue whole fraction = n * 10 ^ (-policy.places : ℤ)
  text_eq : policy.magnitudeText (Magnitude.ofFloat x) = whole ++ fractionText fraction

variable {policy : DecimalPlaces} {x : Float} {n : ℕ} {whole fraction : Text}

/-- Both policies show a decimal to which the number is rounded. -/
theorem exists_shows (policy : DecimalPlaces) (hx : x.isFinite = true) :
    ∃ n whole fraction, Shows policy x n whole fraction := by
  have hpart : finitePart x = x := if_pos hx
  cases policy with
  | auto =>
    obtain ⟨whole, kept, zeros, h, hplaced, -, -, htext⟩ := exists_isRoundedTo_kept x
    have hnearest := h.nearest
    have hlength := h.length_fraction
    rw [hpart] at htext hnearest
    refine ⟨_, whole, kept, hplaced, hnearest, ?_, htext⟩
    rw [← Decimal.pointedValue_append_zeros whole kept zeros, pointedValue, hlength]
    rfl
  | fixed places =>
    obtain ⟨whole, fraction, h, htext⟩ := exists_isRoundedTo x places
    have hnearest := h.nearest
    rw [hpart] at htext hnearest
    refine ⟨_, whole, fraction, h.toIsPlaced, hnearest, ?_, htext⟩
    rw [pointedValue, h.length_fraction]
    rfl

namespace Shows

variable (h : Shows policy x n whole fraction)

include h

/-- Digits that are all zeros are shown of what is rounded to zero, and only of that. -/
theorem eq_zero_iff : n = 0 ↔ ∀ c ∈ whole ++ fraction, c = '0' := by
  have hvalue := h.pointedValue_eq
  have hpow (k : ℤ) : (10 : ℚ) ^ k ≠ 0 := by positivity
  rw [← Decimal.ofDigits_eq_zero_iff h.isDigit_of_mem]
  rw [pointedValue] at hvalue
  constructor
  · rintro rfl
    rw [Nat.cast_zero, zero_mul, mul_eq_zero, or_iff_left (hpow _)] at hvalue
    exact_mod_cast hvalue
  · intro hzero
    rw [hzero, Nat.cast_zero, zero_mul, eq_comm, mul_eq_zero, or_iff_left (hpow _)] at hvalue
    exact_mod_cast hvalue

/-- The decimal is in units of its last place. -/
theorem scaled (q : ℚ) :
    |q * 10 ^ policy.places - n| = |q - pointedValue whole fraction| * 10 ^ policy.places := by
  have hpos : (0 : ℚ) < 10 ^ policy.places := by positivity
  rw [← abs_of_pos hpos, ← abs_mul, abs_of_pos hpos, sub_mul, h.pointedValue_eq, zpow_neg,
    zpow_natCast, inv_mul_cancel_right₀ hpos.ne']

/-- The decimal shown is less than one away from the number, so reading it does not overflow. -/
theorem pointedValue_lt_overflow (hx : x.isFinite = true) :
    pointedValue whole fraction < overflow := by
  have hnear := h.nearest.near
  have hpos : (1 : ℚ) ≤ 10 ^ policy.places := one_le_pow₀ (by norm_num)
  have hdistance : |(|value x|) - pointedValue whole fraction| ≤ 1 / 2 := by
    rw [h.scaled] at hnear
    exact le_trans (le_mul_of_one_le_right (abs_nonneg _) hpos) hnear
  -- the greatest number is farther from the overflow than half a unit
  have hbound := Decimal.abs_value_le hx
  have hunit : (1 : ℚ) < 2 ^ 970 := one_lt_pow₀ one_lt_two (by decide)
  have hclose := (abs_le.1 hdistance).1
  generalize (2 : ℚ) ^ 970 = unit at hbound hunit
  linarith

/-- The numeral that is shown. -/
def numeral : Expr.Numeral where
  chars := whole ++ fractionText fraction
  figures := List.all_eq_true.2 h.isFigure_of_mem
  plain := h.isPlainNumeral

/-- **What is read is rounded to the decimal again**, because it is at least as close to it. -/
theorem reread (hx : x.isFinite = true) :
    h.numeral.value.isFinite = true ∧ 0 ≤ value h.numeral.value ∧
      IsNearestEven (|value h.numeral.value| * 10 ^ policy.places) n := by
  have hread : h.numeral.value =
      nearestScaled (ofDigits (whole ++ fraction)) (-fraction.length : ℤ) := h.plainValue_eq
  obtain ⟨hfinite, hsign, hclosest⟩ :=
    Decimal.abs_value_nearestScaled_sub_le (h.pointedValue_lt_overflow hx)
  rw [← hread] at hfinite hsign hclosest
  have hnonneg : 0 ≤ value h.numeral.value := Decimal.zero_le_value_of_isNegative hsign
  -- the decimal is that of the magnitude, which is a number as well
  obtain ⟨a, ha⟩ : ∃ a, value a = |value x| := by
    rcases abs_choice (value x) with hpos | hneg
    · exact ⟨x, hpos.symm⟩
    · exact ⟨-x, (Decimal.value_neg x hx).trans hneg.symm⟩
  refine ⟨hfinite, hnonneg, h.nearest.of_nearer ?_⟩
  rw [h.scaled, h.scaled, abs_of_nonneg hnonneg, ← ha]
  exact mul_le_mul_of_nonneg_right (hclosest a) (by positivity)

/-- Numbers that are rounded to one decimal are shown alike but for the sign. -/
theorem of_nearest {y : Float} (hy : IsNearestEven (|value y| * 10 ^ policy.places) n) :
    Shows policy y n whole fraction where
  toIsPlaced := h.toIsPlaced
  nearest := hy
  pointedValue_eq := h.pointedValue_eq
  text_eq := by
    rw [← h.text_eq]
    refine DecimalPlaces.magnitudeText_congr ?_
    rw [(Decimal.isNearestEven_inUnits y policy.places).eq hy,
      (Decimal.isNearestEven_inUnits x policy.places).eq h.nearest]

/-- Without groups the text is the sign and the numeral. -/
theorem showAmount_eq (hx : x.isFinite = true) :
    showAmount policy .none x = minus x (whole ++ fraction) ++ h.numeral.chars := by
  have hpart : finitePart x = x := if_pos hx
  have htext := h.text_eq
  rw [← hpart] at htext
  rw [RunningTab.showAmount_eq policy h.toIsPlaced (fun hinfinite => ?_) htext,
    Grouping.apply_none]
  · rfl
  · rw [hx] at hinfinite
    cases hinfinite

/-- **The text of a number is read as a number with the same text.** -/
theorem exists_evaluate?_eq (hx : x.isFinite = true) :
    ∃ y, Expr.evaluate? (showAmount policy .none x) = .ok y ∧
      showAmount policy .none y = showAmount policy .none x := by
  obtain ⟨hfinite, hnonneg, hnearest⟩ := h.reread hx
  obtain ⟨w, hw⟩ : ∃ w, w = h.numeral.value := ⟨_, rfl⟩
  rw [← hw] at hfinite hnonneg hnearest
  rw [h.showAmount_eq hx]
  have houtcome (y : Float) (hy : y.isFinite = true) : Expr.finiteOutcome y = .ok y := if_pos hy
  by_cases hsign : x < 0.0 ∧ ∃ c ∈ whole ++ fraction, c ≠ '0'
  · -- what is read is negative, because it is not rounded to zero
    have hfinite' : (-w).isFinite = true := (Decimal.isFinite_neg w).trans hfinite
    have hshows : Shows policy (-w) n whole fraction := by
      refine h.of_nearest ?_
      rwa [Decimal.value_neg w hfinite, abs_neg]
    have hneg : -w < 0.0 := by
      rw [Decimal.lt_zero_iff hfinite', Decimal.value_neg w hfinite, neg_lt_zero]
      refine lt_of_le_of_ne hnonneg fun hzero => ?_
      rw [← hzero, abs_zero, zero_mul] at hnearest
      obtain ⟨c, hc, hne⟩ := hsign.2
      exact hne (h.eq_zero_iff.1 (hnearest.eq Decimal.isNearestEven_zero) c hc)
    refine ⟨-w, ?_, ?_⟩
    · rw [minus, if_pos hsign, List.singleton_append, Expr.evaluate?_minus, ← hw,
        houtcome _ hfinite']
    · rw [hshows.showAmount_eq hfinite', minus, minus, if_pos hsign, if_pos ⟨hneg, hsign.2⟩]
      rfl
  · have hshows : Shows policy w n whole fraction := h.of_nearest hnearest
    have hpos : ¬w < 0.0 := by
      rw [Decimal.lt_zero_iff hfinite]
      exact not_lt.2 hnonneg
    refine ⟨w, ?_, ?_⟩
    · rw [minus, if_neg hsign, List.nil_append, Expr.evaluate?_numeral, ← hw, houtcome _ hfinite]
    · rw [hshows.showAmount_eq hfinite, minus, minus, if_neg hsign, if_neg fun hneg => hpos hneg.1]
      rfl

end Shows

/-! ### One shot -/

/-- The text of the value of an expression, without groups. -/
def oneShot (policy : DecimalPlaces) (s : Text) : Text :=
  showAmount policy .none (Expr.evaluate s)

/-- The text is what is printed for an expression on the command line. -/
theorem CommandLine.printed_workOut (s : Text) :
    (workOut s false).printed = oneShot .auto s ++ ['\n'] := by
  have hvalue : printedValue (Expr.work s) = Expr.evaluate s := rfl
  change ([] ++ [showPlain (printedValue (Expr.work s))]).flatMap (· ++ ['\n']) = _
  rw [hvalue]
  exact List.append_nil _

/-- **What is printed for an expression is an expression for which the same is printed.** -/
theorem oneShot_oneShot (policy : DecimalPlaces) (s : Text) :
    (∃ y, Expr.evaluate? (oneShot policy s) = .ok y) ∧
      oneShot policy (oneShot policy s) = oneShot policy s ∧
      (CommandLine.workOut s false).printed = oneShot .auto s ++ ['\n'] := by
  obtain ⟨n, whole, fraction, h⟩ := exists_shows policy (Expr.isFinite_evaluate s)
  obtain ⟨y, hy, hshown⟩ := h.exists_evaluate?_eq (Expr.isFinite_evaluate s)
  have hvalue : Expr.evaluate (oneShot policy s) = y := by
    rw [Expr.evaluate, oneShot, hy]
  refine ⟨⟨y, hy⟩, ?_, CommandLine.printed_workOut s⟩
  rw [oneShot, hvalue, hshown]
  rfl

/-- Minus a third is shown with ten places, which are those of another number. -/
example : oneShot .auto "-1/3".toList = "-0.3333333333".toList ∧
    oneShot .auto "-0.3333333333".toList = "-0.3333333333".toList ∧
    Expr.evaluate "-1/3".toList ≠ Expr.evaluate "-0.3333333333".toList := by
  refine ⟨by decide +kernel, by decide +kernel, fun h => ?_⟩
  exact absurd (congrArg Float.toBits h) (by decide +kernel)

end RunningTab
