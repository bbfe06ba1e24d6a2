import RunningTab.Proofs.Decimal.Nearest
import RunningTab.Proofs.Decimal.Negation

/-!
# No number is closer

A fraction below the overflow is read as a finite number, and no finite number is closer to the
fraction than that one (`RunningTab.Decimal.abs_value_nearest_sub_le`).

The reader rounds on a grid of one power of two. On it the number it finds is the closest by the
rounding rule, and the numbers with greater exponents lie on it too. Those with a lesser exponent do
not, but they are all below the power of two at which the fraction's own exponent starts, which is a
point of the grid between them and the fraction
(`RunningTab.Decimal.abs_sub_le_of_isNearestEven`).
-/

namespace RunningTab.Decimal

open Float.Model (Format)

/-! ### Numbers from bits -/

section

variable {b : ℕ}

/-- Bits below those of infinity are kept. -/
theorem toBits_ofBits (hb : b < infinityBits) :
    (Float.ofBits (UInt64.ofNat b)).toBits.toNat = b := by
  have hlt : b < 2 ^ 64 := lt_trans hb (by decide)
  have hnat : (UInt64.ofNat b).toNat = b := UInt64.toNat_ofNat_of_lt' hlt
  -- only what is no number loses bits, and it has all bits of the exponent
  have hvalid : Format.binary64.Valid (UInt64.ofNat b).toBitVec := by
    refine ⟨fun hones => ?_⟩
    have hfield := congrArg BitVec.toNat hones
    rw [toNat_unpackExponent, UInt64.toNat_toBitVec, hnat] at hfield
    change b / leastNormal % exponentFields = 2047 at hfield
    rw [infinityBits, ← Nat.div_lt_iff_lt_mul (by decide)] at hb
    rw [Nat.mod_eq_of_lt (lt_trans hb (by decide))] at hfield
    exact absurd hb (by rw [hfield]; decide)
  obtain ⟨x, hx⟩ : ∃ x : Float, x = ⟨⟨UInt64.ofNat b, hvalid⟩⟩ := ⟨_, rfl⟩
  have hbits : x.toBits = UInt64.ofNat b := by rw [hx]; rfl
  rw [← hbits, Float.ofBits_toBits, hbits, hnat]

/-- Bits below those of infinity are those of a finite number without a sign. -/
theorem ofBits_of_lt (hb : b < infinityBits) :
    (Float.ofBits (UInt64.ofNat b)).isFinite = true ∧
      isNegative (Float.ofBits (UInt64.ofNat b)) = false ∧
      Magnitude.ofFloat (Float.ofBits (UInt64.ofNat b)) = Magnitude.ofBits b := by
  have hbits := toBits_ofBits hb
  have hfield : b / leastNormal < exponentFields - 1 := by
    rwa [Nat.div_lt_iff_lt_mul (by decide)]
  refine ⟨?_, ?_, ?_⟩
  · rw [isFinite_iff, hbits, Nat.mod_eq_of_lt (lt_trans hfield (by decide))]
    exact hfield.ne
  · rw [isNegative, hbits, decide_eq_false_iff_not, not_le]
    exact lt_trans hb (by decide)
  · rw [Magnitude.ofFloat, hbits]

end

namespace Magnitude

theorem ofBits_subnormal {b : ℕ} (hb : b < leastNormal) : ofBits b = ⟨b, leastExponent⟩ := by
  rw [ofBits, Nat.div_eq_of_lt hb, Nat.mod_eq_of_lt hb]
  rfl

theorem ofBits_normal {b field : ℕ} (hfield : b / leastNormal = field + 1)
    (hlt : field + 1 < exponentFields) :
    ofBits b = ⟨leastNormal + b % leastNormal, leastExponent + field⟩ := by
  rw [ofBits, hfield, Nat.mod_eq_of_lt hlt, if_neg (Nat.succ_ne_zero field)]
  rfl

/-- **The sum of exponent and significand is read as their product**, with a carry or without. -/
theorem significand_ofBits {e s : ℕ} (hnormal : leastNormal ≤ s ∨ e = 0)
    (hs : s ≤ 2 * leastNormal) (hb : e * leastNormal + s < infinityBits) :
    ((ofBits (e * leastNormal + s)).significand : ℚ) *
        2 ^ (ofBits (e * leastNormal + s)).exponent = s * 2 ^ (leastExponent + e) := by
  obtain ⟨b, hb'⟩ : ∃ b, b = e * leastNormal + s := ⟨_, rfl⟩
  rw [← hb'] at hb ⊢
  rw [infinityBits, exponentFields] at hb
  rcases Nat.lt_or_ge s leastNormal with hlow | hlow
  · -- no bit in front of the fraction
    obtain rfl : e = 0 := hnormal.resolve_left (not_le.2 hlow)
    rw [Nat.zero_mul, Nat.zero_add] at hb'
    rw [hb', ofBits_subnormal hlow, Nat.cast_zero, add_zero]
  · rcases hs.lt_or_eq with hhigh | hcarry
    · have hfield : b / leastNormal = e + 1 := by
        rw [leastNormal] at *
        omega
      have hfraction : leastNormal + b % leastNormal = s := by
        rw [leastNormal] at *
        omega
      rw [ofBits_normal hfield, hfraction]
      rw [exponentFields, ← hfield, Nat.div_lt_iff_lt_mul (by decide)]
      exact lt_trans hb (by decide)
    · -- the carry is a power of two, the first number of the next exponent
      have hfield : b / leastNormal = e + 1 + 1 := by
        rw [leastNormal] at *
        omega
      have hfraction : leastNormal + b % leastNormal = leastNormal := by
        rw [leastNormal] at *
        omega
      rw [ofBits_normal hfield, hfraction, hcarry]
      · push_cast
        rw [← add_assoc, zpow_add_one₀ two_ne_zero]
        ring
      · rw [exponentFields, ← hfield, Nat.div_lt_iff_lt_mul (by decide)]
        exact lt_trans hb (by decide)

end Magnitude

/-- A number put together from an exponent and a significand. -/
theorem value_ofBits {e s : ℕ} (hnormal : leastNormal ≤ s ∨ e = 0) (hs : s ≤ 2 * leastNormal)
    (hb : e * leastNormal + s < infinityBits) :
    value (Float.ofBits (UInt64.ofNat (e * leastNormal + s))) = s * 2 ^ (leastExponent + e) := by
  obtain ⟨-, hsign, hmagnitude⟩ := ofBits_of_lt hb
  rw [value, hsign, hmagnitude, if_neg Bool.false_ne_true, one_mul,
    Magnitude.significand_ofBits hnormal hs hb]

/-! ### Numbers and a grid -/

section

variable (x : Float)

/-- A number is a whole multiple of its last place. -/
theorem exists_int_value :
    ∃ k : ℤ, value x = k * 2 ^ (Magnitude.ofFloat x).exponent := by
  refine ⟨(if isNegative x then -1 else 1) * (Magnitude.ofFloat x).significand, ?_⟩
  rw [value]
  push_cast
  rfl

/-- A number has 53 places. -/
theorem abs_value_lt_two_zpow : |value x| < 2 ^ ((Magnitude.ofFloat x).exponent + 53) := by
  have hsignificand : ((Magnitude.ofFloat x).significand : ℚ) < 2 ^ 53 := by
    exact_mod_cast significand_lt x
  rw [abs_value, zpow_add₀ two_ne_zero, mul_comm]
  exact mul_lt_mul_of_pos_left hsignificand (by positivity)

/-- **What is rounded on a grid is as close as every number is**, if the grid is the finest of all
or starts at the power of two fifty-two places below what is rounded. -/
theorem abs_sub_le_of_isNearestEven {y : ℚ} {t : ℤ} {s : ℕ} (hs : IsNearestEven (y / 2 ^ t) s)
    (hy : t = leastExponent ∨ 2 ^ (t + 52) ≤ y) : |s * 2 ^ t - y| ≤ |value x - y| := by
  have hunit : (0 : ℚ) < 2 ^ t := by positivity
  have hgrid (k : ℤ) : |s * 2 ^ t - y| ≤ |k * 2 ^ t - y| := by
    have hscale (q : ℚ) : |q * 2 ^ t - y| = |y / 2 ^ t - q| * 2 ^ t := by
      rw [abs_sub_comm (y / 2 ^ t), ← abs_of_pos hunit, ← abs_mul, abs_of_pos hunit, sub_mul,
        div_mul_cancel₀ _ hunit.ne']
    rw [hscale, hscale]
    exact mul_le_mul_of_nonneg_right (hs.abs_sub_le_abs_sub k) hunit.le
  rcases le_or_gt t (Magnitude.ofFloat x).exponent with hle | hlt
  · -- the number is a point of the grid
    obtain ⟨k, hk⟩ := exists_int_value x
    obtain ⟨j, hj⟩ := Int.le.dest hle
    have hvalue : value x = ((k * 2 ^ j : ℤ) : ℚ) * 2 ^ t := by
      rw [hk, ← hj, zpow_add₀ two_ne_zero, zpow_natCast]
      push_cast
      ring
    rw [hvalue]
    exact hgrid (k * 2 ^ j)
  · -- the number is below a point of the grid that is below the fraction
    have hleast := (Magnitude.isBinary64_ofFloat x).leastExponent_le
    have hpow : (2 : ℚ) ^ (t + 52) ≤ y := hy.resolve_left (by omega)
    have hpoint : ((2 ^ 52 : ℤ) : ℚ) * 2 ^ t = 2 ^ (t + 52) := by
      rw [add_comm, zpow_add₀ two_ne_zero]
      norm_cast
    have hbelow : value x ≤ 2 ^ (t + 52) :=
      calc value x
          ≤ |value x| := le_abs_self _
        _ ≤ 2 ^ ((Magnitude.ofFloat x).exponent + 53) := (abs_value_lt_two_zpow x).le
        _ ≤ 2 ^ (t + 52) := zpow_le_zpow_right₀ one_le_two (by omega)
    calc |s * 2 ^ t - y|
        ≤ |((2 ^ 52 : ℤ) : ℚ) * 2 ^ t - y| := hgrid (2 ^ 52)
      _ = y - 2 ^ (t + 52) := by rw [hpoint, abs_sub_comm, abs_of_nonneg (sub_nonneg.2 hpow)]
      _ ≤ y - value x := by linarith
      _ ≤ |value x - y| := by
        rw [abs_sub_comm]
        exact le_abs_self _

end

/-! ### The number nearest to a fraction -/

section

variable {num den : ℕ}

/-- The grid on which a fraction is rounded starts fifty-two places below the fraction, or it is the
finest of all. -/
theorem grid_bounds (hnum : 0 < num) (hden : 0 < den) (hlt : (num / den : ℚ) < overflow) {t : ℤ}
    (ht : t = max (floorLog2 num den - 52) leastExponent) :
    (t = leastExponent ∨ 2 ^ (t + 52) ≤ (num / den : ℚ)) ∧ (num / den : ℚ) < 2 ^ (t + 53) ∧
      leastExponent ≤ t ∧ t ≤ 971 := by
  obtain ⟨hlow, hhigh⟩ := floorLog2_bounds hnum hden
  have hlog : floorLog2 num den < 1024 :=
    (zpow_lt_zpow_iff_right₀ one_lt_two).1
      (lt_of_le_of_lt hlow (lt_of_lt_of_le hlt overflow_le_two_zpow))
  rw [leastExponent] at *
  refine ⟨?_, lt_of_lt_of_le hhigh (zpow_le_zpow_right₀ one_le_two (by omega)), by omega, by omega⟩
  rcases le_total (floorLog2 num den - 52) (-1074) with hle | hle
  · exact Or.inl (by omega)
  · exact Or.inr (le_trans (zpow_le_zpow_right₀ one_le_two (by omega)) hlow)

section

variable {y : ℚ} {t : ℤ} {s : ℕ} (hs : IsNearestEven (y / 2 ^ t) s)

include hs

/-- On its grid a fraction is rounded to 53 places, or to the next power of two. -/
theorem significand_bounds (hstart : t = leastExponent ∨ 2 ^ (t + 52) ≤ y)
    (hhigh : y < 2 ^ (t + 53)) :
    (leastNormal ≤ s ∨ t = leastExponent) ∧ s ≤ 2 * leastNormal := by
  have hunit : (0 : ℚ) < 2 ^ t := by positivity
  have hpow (k : ℕ) : (2 : ℚ) ^ (t + k) = (2 ^ k : ℕ) * 2 ^ t := by
    rw [add_comm, zpow_add₀ two_ne_zero, zpow_natCast]
    push_cast
    rfl
  constructor
  · rcases hstart with hzero | hlow
    · exact Or.inr hzero
    · refine Or.inl (hs.le_of_le ?_)
      rw [le_div_iff₀ hunit, leastNormal]
      exact (hpow 52).symm.trans_le hlow
  · refine Nat.lt_succ_iff.1 (hs.lt_of_lt ?_)
    have hlt : y / 2 ^ t < (2 ^ 53 : ℕ) := by
      rw [div_lt_iff₀ hunit]
      exact hhigh.trans_eq (hpow 53)
    rw [leastNormal]
    push_cast at hlt ⊢
    linarith

/-- **Below the overflow the carry does not reach infinity.** -/
theorem add_significand_lt_infinityBits (hcarry : s ≤ 2 * leastNormal) (hlt : y < overflow) {e : ℕ}
    (he : t = leastExponent + e) (hmost : t ≤ 971) : e * leastNormal + s < infinityBits := by
  rw [leastExponent] at he
  rw [leastNormal] at hcarry
  rw [infinityBits, exponentFields, leastNormal]
  rcases hmost.lt_or_eq with hbelow | rfl
  · omega
  · -- on the last grid there is no carry
    have hunit : (0 : ℚ) < 2 ^ (971 : ℤ) := by positivity
    have htop : y / 2 ^ (971 : ℤ) < (2 ^ 53 : ℕ) - 1 / 2 := by
      have hoverflow := two_mul_overflow
      rw [div_lt_iff₀ hunit]
      generalize (2 : ℚ) ^ (971 : ℤ) = unit at hoverflow ⊢
      push_cast
      linarith
    have hsignificand := hs.lt_of_lt htop
    omega

end

/-- **The number that is read for a fraction below the overflow** is finite, without a sign, and the
fraction rounded on a grid. -/
theorem exists_value_nearest (hden : 0 < den) (hlt : (num / den : ℚ) < overflow) :
    (nearest num den).isFinite = true ∧ isNegative (nearest num den) = false ∧
      ∃ (t : ℤ) (s : ℕ), IsNearestEven (num / den / 2 ^ t) s ∧
        (t = leastExponent ∨ 2 ^ (t + 52) ≤ (num / den : ℚ)) ∧
        value (nearest num den) = s * 2 ^ t := by
  rcases Nat.eq_zero_or_pos num with rfl | hnum
  · -- zero is a point of every grid
    have hbits : nearest 0 den = Float.ofBits (UInt64.ofNat (0 * leastNormal + 0)) := rfl
    obtain ⟨hfinite, hsign, -⟩ := ofBits_of_lt (b := 0 * leastNormal + 0) (by decide)
    rw [hbits]
    refine ⟨hfinite, hsign, leastExponent, 0, ?_, Or.inl rfl, ?_⟩
    · rw [Nat.cast_zero, zero_div, zero_div]
      exact isNearestEven_zero
    · rw [value_ofBits (Or.inr rfl) (by decide) (by decide)]
      simp
  · obtain ⟨t, ht⟩ : ∃ t, t = max (floorLog2 num den - 52) leastExponent := ⟨_, rfl⟩
    obtain ⟨s, hs⟩ : ∃ s, s = roundHalfEven (num * (powFraction 2 t).2)
      (den * (powFraction 2 t).1) := ⟨_, rfl⟩
    obtain ⟨hstart, hhigh, hleast, hmost⟩ := grid_bounds hnum hden hlt ht
    obtain ⟨e, he⟩ := Int.le.dest hleast
    have hnear : IsNearestEven (num / den / 2 ^ t) s := hs ▸ isNearestEven_scaled hden t
    obtain ⟨hnormal, hcarry⟩ := significand_bounds hnear hstart hhigh
    have hb : e * leastNormal + s < infinityBits :=
      add_significand_lt_infinityBits hnear hcarry hlt he.symm hmost
    have hbits : nearestBits num den = e * leastNormal + s := by
      rw [nearestBits, if_neg hnum.ne']
      dsimp only
      rw [← ht, ← hs, show (t - leastExponent).toNat = e by omega]
      exact Nat.min_eq_right hb.le
    obtain ⟨hfinite, hsign, -⟩ := ofBits_of_lt hb
    rw [nearest, hbits]
    refine ⟨hfinite, hsign, t, s, hnear, hstart, ?_⟩
    rw [← he]
    exact value_ofBits (hnormal.imp_right fun h => by omega) hcarry hb

/-- **No number is closer to a fraction** than the one that is read for it. -/
theorem abs_value_nearest_sub_le (hden : 0 < den) (hlt : (num / den : ℚ) < overflow) (x : Float) :
    |value (nearest num den) - num / den| ≤ |value x - num / den| := by
  obtain ⟨-, -, t, s, hs, hstart, hvalue⟩ := exists_value_nearest hden hlt
  rw [hvalue]
  exact abs_sub_le_of_isNearestEven x hs hstart

end

/-- **A decimal below the overflow** is read as a finite number without a sign, and no number is
closer to it. -/
theorem abs_value_nearestScaled_sub_le {n : ℕ} {g : ℤ} (hlt : (n : ℚ) * 10 ^ g < overflow) :
    (nearestScaled n g).isFinite = true ∧ isNegative (nearestScaled n g) = false ∧
      ∀ x, |value (nearestScaled n g) - n * 10 ^ g| ≤ |value x - n * 10 ^ g| := by
  obtain ⟨-, hpos⟩ := powFraction_pos 10 (by decide) g
  rw [← mul_powFraction_ten] at hlt ⊢
  obtain ⟨hfinite, hsign, -⟩ := exists_value_nearest hpos hlt
  exact ⟨hfinite, hsign, abs_value_nearest_sub_le hpos hlt⟩

end RunningTab.Decimal
