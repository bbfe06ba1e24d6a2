import RunningTab.Decimal.Fixed
import RunningTab.Proofs.Decimal.Value

/-!
# Rounding to the nearest

What `RunningTab.Decimal.roundHalfEven` makes of a quotient, told without its whole part and its
remainder: a whole number at most half away, and an even one if it is just half away
(`RunningTab.Decimal.IsNearestEven`). There is only one such number
(`RunningTab.Decimal.IsNearestEven.eq`), no whole number is nearer
(`RunningTab.Decimal.IsNearestEven.abs_sub_le_abs_sub`), and what moves nearer to it is still
rounded to it, ties not excepted (`RunningTab.Decimal.IsNearestEven.of_nearer`): whoever ends up in
the middle was there before, so the number was even already.

The library rounds on two kinds of grids, given by powers as fractions. A fraction that is read is
rounded in units of a power of two (`RunningTab.Decimal.isNearestEven_scaled`), and the digits of a
binary64 number are those of its value in units of a power of ten
(`RunningTab.Decimal.isNearestEven_inUnits`).
-/

namespace RunningTab.Decimal

/-! ### Powers as fractions -/

theorem powFraction_pos (base : Nat) (hbase : 0 < base) (e : Int) :
    0 < (powFraction base e).1 ∧ 0 < (powFraction base e).2 :=
  ⟨Nat.pow_pos hbase, Nat.pow_pos hbase⟩

/-- The fraction is the power. -/
theorem powFraction_eq (base : Nat) (hbase : 0 < base) (e : Int) :
    ((powFraction base e).1 : ℚ) / (powFraction base e).2 = (base : ℚ) ^ e := by
  have hne : (base : ℚ) ≠ 0 := by exact_mod_cast hbase.ne'
  change ((base ^ e.toNat : Nat) : ℚ) / (base ^ (-e).toNat : Nat) = _
  push_cast
  rw [← zpow_natCast, ← zpow_natCast, ← zpow_sub₀ hne]
  congr 1
  omega

/-- A whole number times a power of ten, as a fraction. -/
theorem mul_powFraction_ten (n : ℕ) (g : ℤ) :
    ((n * (powFraction 10 g).1 : ℕ) : ℚ) / (powFraction 10 g).2 = n * 10 ^ g := by
  have hpow := powFraction_eq 10 (by decide) g
  rw [Nat.cast_ofNat] at hpow
  rw [Nat.cast_mul, mul_div_assoc, hpow]

/-! ### The nearest whole number -/

/-- **A whole number nearest to a rational one**, the even one of two that are equally near. -/
structure IsNearestEven (q : ℚ) (n : ℕ) : Prop where
  near : |q - n| ≤ 1 / 2
  even_of_tie : |q - n| = 1 / 2 → Even n

theorem isNearestEven_zero : IsNearestEven 0 0 :=
  ⟨by norm_num, by norm_num⟩

/-- What is less than half away is rounded without a tie. -/
theorem isNearestEven_of_lt {q : ℚ} {n : ℕ} (h : |q - n| < 1 / 2) : IsNearestEven q n :=
  ⟨h.le, fun htie => absurd htie h.ne⟩

/-- **A quotient is rounded to the nearest whole number.** -/
theorem isNearestEven_roundHalfEven (num : ℕ) {den : ℕ} (hden : 0 < den) :
    IsNearestEven (num / den) (roundHalfEven num den) := by
  have hden' : (0 : ℚ) < den := by exact_mod_cast hden
  obtain ⟨whole, hwhole⟩ : ∃ whole, whole = num / den := ⟨_, rfl⟩
  obtain ⟨rest, hrest⟩ : ∃ rest, rest = num % den := ⟨_, rfl⟩
  have hnum : (den * whole + rest : ℚ) = num := by
    rw [hwhole, hrest]
    exact_mod_cast Nat.div_add_mod num den
  have hlt : (rest : ℚ) < den := by
    rw [hrest]
    exact_mod_cast Nat.mod_lt num hden
  -- the distance to the number taken is the remainder, or what the remainder lacks of the divisor
  have hdown : |(num / den : ℚ) - whole| = rest / den := by
    rw [← hnum, add_div, mul_div_cancel_left₀ _ hden'.ne', add_sub_cancel_left,
      abs_of_nonneg (by positivity)]
  have hup : |(num / den : ℚ) - (whole + 1 : ℕ)| = (den - rest) / den := by
    have hlack : (num / den : ℚ) - (whole + 1 : ℕ) = -((den - rest) / den) := by
      rw [← hnum]
      push_cast
      field_simp
      ring
    rw [hlack, abs_neg, abs_of_nonneg (div_nonneg (by linarith) hden'.le)]
  rw [roundHalfEven, ← hwhole, ← hrest]
  split_ifs with hlow hhigh heven
  · have hlow' : 2 * (rest : ℚ) < den := by exact_mod_cast hlow
    refine isNearestEven_of_lt ?_
    rw [hdown, div_lt_div_iff₀ hden' two_pos]
    linarith
  · have hhigh' : (den : ℚ) < 2 * rest := by exact_mod_cast hhigh
    refine isNearestEven_of_lt ?_
    rw [hup, div_lt_div_iff₀ hden' two_pos]
    linarith
  -- in the middle between two numbers one of them is even
  all_goals
    have hhalf : (2 * rest : ℚ) = den := by
      exact_mod_cast Nat.le_antisymm (not_lt.1 hhigh) (not_lt.1 hlow)
  · refine ⟨?_, fun _ => Nat.even_iff.2 heven⟩
    rw [hdown, div_le_div_iff₀ hden' two_pos]
    linarith
  · refine ⟨?_, fun _ => Nat.even_iff.2 (by omega)⟩
    rw [hup, div_le_div_iff₀ hden' two_pos]
    linarith

/-- What is near to a whole number is far from every other. -/
theorem one_le_abs_sub_add_abs_sub (q : ℚ) {a b : ℤ} (h : a ≠ b) : 1 ≤ |q - a| + |q - b| := by
  have happart : (1 : ℚ) ≤ |(a : ℚ) - b| := by exact_mod_cast Int.one_le_abs (sub_ne_zero.2 h)
  calc (1 : ℚ)
      ≤ |(a : ℚ) - b| := happart
    _ ≤ |a - q| + |q - b| := abs_sub_le _ _ _
    _ = |q - a| + |q - b| := by rw [abs_sub_comm (a : ℚ) q]

namespace IsNearestEven

variable {q r : ℚ} {n m : ℕ}

/-- **No whole number is nearer.** -/
theorem abs_sub_le_abs_sub (h : IsNearestEven q n) (k : ℤ) : |q - n| ≤ |q - k| := by
  by_cases hk : (n : ℤ) = k
  · rw [← hk, Int.cast_natCast]
  · have happart := one_le_abs_sub_add_abs_sub q hk
    have hnear := h.near
    rw [Int.cast_natCast] at happart
    linarith

/-- **There is only one nearest number.** -/
theorem eq (hn : IsNearestEven q n) (hm : IsNearestEven q m) : n = m := by
  by_contra hne
  have happart := one_le_abs_sub_add_abs_sub q (show (n : ℤ) ≠ m by exact_mod_cast hne)
  have hnear := hn.near
  have hnear' := hm.near
  rw [Int.cast_natCast, Int.cast_natCast] at happart
  -- both are half away, so both are even, and yet they are neighbours
  obtain ⟨i, hi⟩ := hn.even_of_tie (by linarith)
  obtain ⟨j, hj⟩ := hm.even_of_tie (by linarith)
  have hone : |(n : ℚ) - m| ≤ 1 := by
    have htriangle := abs_sub_le (n : ℚ) q m
    rw [abs_sub_comm (n : ℚ) q] at htriangle
    linarith
  have hone' : |(n : ℤ) - m| ≤ 1 := by exact_mod_cast hone
  rw [abs_le] at hone'
  omega

/-- Rounding does not go below a whole number. -/
theorem le_of_le (h : IsNearestEven q n) (hm : (m : ℚ) ≤ q) : m ≤ n := by
  by_contra hlt
  have hsucc : (n : ℚ) + 1 ≤ m := by exact_mod_cast not_le.1 hlt
  have hnear := (abs_le.1 h.near).2
  linarith

/-- What is more than half below a whole number is rounded to one below it. -/
theorem lt_of_lt (h : IsNearestEven q n) (hm : q < m - 1 / 2) : n < m := by
  by_contra hle
  have hle' : (m : ℚ) ≤ n := by exact_mod_cast not_lt.1 hle
  have hnear := (abs_le.1 h.near).1
  linarith

/-- **What is nearer to the number is rounded to it as well.** -/
theorem of_nearer (h : IsNearestEven q n) (hr : |r - n| ≤ |q - n|) : IsNearestEven r n where
  near := hr.trans h.near
  even_of_tie htie := h.even_of_tie (le_antisymm h.near (htie ▸ hr))

end IsNearestEven

/-! ### On a grid -/

/-- Rounding on a grid is rounding a quotient. -/
theorem isNearestEven_scaled {num den : ℕ} (hden : 0 < den) (t : ℤ) :
    IsNearestEven (num / den / 2 ^ t)
      (roundHalfEven (num * (powFraction 2 t).2) (den * (powFraction 2 t).1)) := by
  obtain ⟨hup, hdown⟩ := powFraction_pos 2 (by decide) t
  have hpow := powFraction_eq 2 (by decide) t
  have hquotient : (num / den / 2 ^ t : ℚ) =
      ((num * (powFraction 2 t).2 : ℕ) : ℚ) / (den * (powFraction 2 t).1 : ℕ) := by
    rw [Nat.cast_ofNat] at hpow
    rw [← hpow]
    push_cast
    field_simp
  rw [hquotient]
  exact isNearestEven_roundHalfEven _ (Nat.mul_pos hden hup)

/-- **The digits of a number are those of its value**, rounded to the nearest. -/
theorem isNearestEven_inUnits (x : Float) (places : ℕ) :
    IsNearestEven (|value x| * 10 ^ places) ((Magnitude.ofFloat x).inUnits places) := by
  obtain ⟨-, hpos⟩ := powFraction_pos 2 (by decide) (Magnitude.ofFloat x).exponent
  have hpow := powFraction_eq 2 (by decide) (Magnitude.ofFloat x).exponent
  rw [Nat.cast_ofNat] at hpow
  have hquotient : |value x| * 10 ^ places =
      (((Magnitude.ofFloat x).significand * (powFraction 2 (Magnitude.ofFloat x).exponent).1 *
        10 ^ places : ℕ) : ℚ) / (powFraction 2 (Magnitude.ofFloat x).exponent).2 := by
    rw [abs_value, ← hpow]
    push_cast
    ring
  rw [hquotient]
  exact isNearestEven_roundHalfEven _ hpos

end RunningTab.Decimal
