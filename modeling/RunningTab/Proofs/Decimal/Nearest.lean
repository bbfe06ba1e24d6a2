import RunningTab.Decimal.Shortest
import RunningTab.Proofs.Decimal.Rounding

/-!
# Which fractions are read as a number

A fraction is read as the binary64 number nearest to it. Seen from the number, the fractions that
are read as it form an interval around it, from halfway to the neighbour below to halfway to the
neighbour above, and the ends belong to it if the significand is even
(`RunningTab.Decimal.Magnitude.Encloses`). This is what a writer may rely on: whatever it writes
down inside the interval of a number is read as that number
(`RunningTab.Decimal.nearest_of_encloses`).

The one place where the interval is not symmetric is a power of two. Below it the neighbours are
twice as close, the fraction has an exponent less than the number, and rounding carries into the
next power of two; the sum of exponent and significand that the bits are takes care of the carry.
-/

namespace RunningTab.Decimal

/-! ### Rounding near a whole number -/

/-- **What is at most half away from a whole number is rounded to it**, on the grid of a power of
two whose quarters measure the distance, and from exactly half only if the whole number is even. -/
theorem roundHalfEven_scaled {num den k : Nat} (hden : 0 < den) (t : Int)
    (hlower : (4 * k - 2) * (2 : ℚ) ^ (t - 2) ≤ num / den)
    (hupper : (num / den : ℚ) ≤ (4 * k + 2) * 2 ^ (t - 2))
    (hodd : k % 2 = 1 → (4 * k - 2) * (2 : ℚ) ^ (t - 2) < num / den ∧
      (num / den : ℚ) < (4 * k + 2) * 2 ^ (t - 2)) :
    roundHalfEven (num * (powFraction 2 t).2) (den * (powFraction 2 t).1) = k := by
  have hunit : (0 : ℚ) < 2 ^ t := by positivity
  have hquarter (a : ℚ) : a * 2 ^ (t - 2) = a / 4 * 2 ^ t := by
    rw [zpow_sub₀ two_ne_zero]
    ring
  obtain ⟨q, hq⟩ : ∃ q : ℚ, q = num / den / 2 ^ t := ⟨_, rfl⟩
  have hscaled : (num / den : ℚ) = q * 2 ^ t := by rw [hq, div_mul_cancel₀ _ hunit.ne']
  simp only [hquarter, hscaled, mul_le_mul_iff_left₀ hunit, mul_lt_mul_iff_left₀ hunit]
    at hlower hupper hodd
  refine (isNearestEven_scaled hden t).eq (hq ▸ ⟨?_, fun htie => ?_⟩)
  · rw [abs_le]
    constructor <;> linarith
  · -- at an odd number there is no tie
    by_contra hne
    obtain ⟨hlt, hlt'⟩ := hodd (Nat.odd_iff.1 (Nat.not_even_iff_odd.1 hne))
    have hhalf : |q - k| < 1 / 2 := by
      rw [abs_lt]
      constructor <;> linarith
    exact hhalf.ne htie

/-! ### The power of two below a fraction -/

section

variable {num den : Nat}

theorem twoPowLe_iff (hden : 0 < den) (e : Int) :
    twoPowLe e num den = true ↔ (2 : ℚ) ^ e ≤ num / den := by
  obtain ⟨-, hpos⟩ := powFraction_pos 2 (by decide) e
  rw [twoPowLe, decide_eq_true_eq, ← Nat.cast_ofNat (R := ℚ), ← powFraction_eq 2 (by decide) e,
    div_le_div_iff₀ (by exact_mod_cast hpos) (by exact_mod_cast hden)]
  norm_cast

/-- **The exponent is that of the greatest power of two** that is not above the fraction. -/
theorem floorLog2_bounds (hnum : 0 < num) (hden : 0 < den) :
    (2 : ℚ) ^ floorLog2 num den ≤ num / den ∧
      (num / den : ℚ) < 2 ^ (floorLog2 num den + 1) := by
  have hnum_le : (2 : ℚ) ^ (num.log2 : Int) ≤ num := by
    rw [zpow_natCast]
    exact_mod_cast Nat.log2_self_le hnum.ne'
  have hnum_lt : (num : ℚ) < 2 ^ ((num.log2 : Int) + 1) := by
    rw [← Nat.cast_succ, zpow_natCast]
    exact_mod_cast Nat.lt_log2_self
  have hden_le : (2 : ℚ) ^ (den.log2 : Int) ≤ den := by
    rw [zpow_natCast]
    exact_mod_cast Nat.log2_self_le hden.ne'
  have hden_lt : (den : ℚ) < 2 ^ ((den.log2 : Int) + 1) := by
    rw [← Nat.cast_succ, zpow_natCast]
    exact_mod_cast Nat.lt_log2_self
  have hpos : (0 : ℚ) < den := by exact_mod_cast hden
  have hlow : (2 : ℚ) ^ ((num.log2 : Int) - den.log2 - 1) ≤ num / den := by
    rw [le_div_iff₀ hpos]
    calc (2 : ℚ) ^ ((num.log2 : Int) - den.log2 - 1) * den
        ≤ 2 ^ ((num.log2 : Int) - den.log2 - 1) * 2 ^ ((den.log2 : Int) + 1) :=
          mul_le_mul_of_nonneg_left hden_lt.le (by positivity)
      _ = 2 ^ (num.log2 : Int) := by
          rw [← zpow_add₀ two_ne_zero]
          congr 1
          omega
      _ ≤ num := hnum_le
  have hhigh : (num / den : ℚ) < 2 ^ ((num.log2 : Int) - den.log2 + 1) := by
    rw [div_lt_iff₀ hpos]
    calc (num : ℚ)
        < 2 ^ ((num.log2 : Int) + 1) := hnum_lt
      _ = 2 ^ ((num.log2 : Int) - den.log2 + 1) * 2 ^ (den.log2 : Int) := by
          rw [← zpow_add₀ two_ne_zero]
          congr 1
          omega
      _ ≤ 2 ^ ((num.log2 : Int) - den.log2 + 1) * den :=
          mul_le_mul_of_nonneg_left hden_le (by positivity)
  rw [floorLog2]
  split_ifs with hguess
  · exact ⟨(twoPowLe_iff hden _).1 hguess, hhigh⟩
  · rw [twoPowLe_iff hden, not_le] at hguess
    exact ⟨hlow, by rwa [Int.sub_add_cancel]⟩

end

/-! ### The bits of a magnitude -/

namespace Magnitude

/-- The bits of a magnitude. -/
def bits (v : Magnitude) : Nat :=
  (v.exponent - leastExponent).toNat * leastNormal + v.significand

/-- Bits without a sign are those of the magnitude read off them. -/
theorem bits_ofBits {b : Nat} (hb : b < exponentFields * leastNormal) : (ofBits b).bits = b := by
  have hfield : b / leastNormal < exponentFields := Nat.div_lt_of_lt_mul (by rwa [Nat.mul_comm])
  have hb' : leastNormal * (b / leastNormal) + b % leastNormal = b := Nat.div_add_mod b leastNormal
  rw [ofBits, Nat.mod_eq_of_lt hfield]
  split_ifs with hzero
  · rw [hzero] at hb'
    simpa [bits] using hb'
  · obtain ⟨k, hk⟩ := Nat.exists_eq_succ_of_ne_zero hzero
    rw [hk, Nat.mul_succ] at hb'
    rw [hk, bits]
    dsimp only
    rw [show leastExponent + ((k.succ - 1 : Nat) : Int) - leastExponent = (k : Int) by omega,
      Int.toNat_natCast, Nat.mul_comm]
    omega

/-- **The fractions that are read as a magnitude**: those between the halfway points to its two
neighbours, an end included only if the significand is even. -/
structure Encloses (v : Magnitude) (y : ℚ) : Prop where
  lower : v.lowerQuarters * (2 : ℚ) ^ (v.exponent - 2) ≤ y
  upper : y ≤ v.upperQuarters * (2 : ℚ) ^ (v.exponent - 2)
  inner : v.significand % 2 = 1 →
    v.lowerQuarters * (2 : ℚ) ^ (v.exponent - 2) < y ∧
      y < v.upperQuarters * (2 : ℚ) ^ (v.exponent - 2)

/-- The magnitudes of binary64 numbers: those of 53 bits, with fewer only at the least exponent. -/
structure IsBinary64 (v : Magnitude) : Prop where
  significand_lt : v.significand < 2 ^ 53
  leastExponent_le : leastExponent ≤ v.exponent
  isNormal : leastNormal ≤ v.significand ∨ v.exponent = leastExponent

theorem isBinary64_ofFloat (x : Float) : (ofFloat x).IsBinary64 where
  significand_lt := Decimal.significand_lt x
  leastExponent_le := by
    rw [ofFloat, ofBits]
    split_ifs
    · exact Int.le_refl _
    · change leastExponent ≤ leastExponent + ((_ : Nat) : Int)
      omega
  isNormal := leastNormal_le_significand x

section

variable {v : Magnitude} {num den : Nat}

/-- Four times the lower end, as a rational number. -/
theorem le_lowerQuarters (v : Magnitude) : (4 * v.significand - 2 : ℚ) ≤ v.lowerQuarters := by
  have hle : 4 * v.significand ≤ v.lowerQuarters + 2 := by
    rw [lowerQuarters]
    split_ifs <;> omega
  have hcast : (4 * v.significand : ℚ) ≤ v.lowerQuarters + 2 := by exact_mod_cast hle
  linarith

/-- Zero is in no interval but its own. -/
theorem Encloses.pos {y : ℚ} (h : v.Encloses y) (hv : v.significand ≠ 0) : 0 < y := by
  have hquarters : 0 < v.lowerQuarters := by
    rw [lowerQuarters]
    split_ifs <;> omega
  have hcast : (0 : ℚ) < v.lowerQuarters := by exact_mod_cast hquarters
  exact lt_of_lt_of_le (by positivity) h.lower

/-- A fraction in the interval is less than the power of two above the significands. -/
theorem Encloses.lt_two_zpow {y : ℚ} (hv : v.IsBinary64) (h : v.Encloses y) :
    y < 2 ^ (v.exponent + 53) := by
  have hm : (v.significand : ℚ) + 1 ≤ 2 ^ 53 := by exact_mod_cast hv.significand_lt
  have hunit : (0 : ℚ) < 2 ^ (v.exponent - 2) := by positivity
  calc y
      ≤ v.upperQuarters * (2 : ℚ) ^ (v.exponent - 2) := h.upper
    _ < 2 ^ 55 * 2 ^ (v.exponent - 2) := by
        refine mul_lt_mul_of_pos_right ?_ hunit
        rw [upperQuarters]
        push_cast
        linarith
    _ = 2 ^ (v.exponent + 53) := by
        rw [show v.exponent + 53 = ((55 : Nat) : Int) + (v.exponent - 2) by omega,
          zpow_add₀ two_ne_zero, zpow_natCast]

/-- Where the interval has a fraction below the power of two that starts the exponent, the number
is that power, and the fraction is at most a quarter of a unit below it. -/
theorem Encloses.eq_leastNormal {y : ℚ} (h : v.Encloses y) (hnormal : leastNormal ≤ v.significand)
    (hexponent : leastExponent < v.exponent) (hlt : y < 2 ^ (v.exponent + 52)) :
    v.significand = leastNormal ∧ (2 ^ 54 - 1) * (2 : ℚ) ^ (v.exponent - 2) ≤ y := by
  have hunit : (0 : ℚ) < 2 ^ (v.exponent - 2) := by positivity
  have hpow : (2 : ℚ) ^ (v.exponent + 52) = 2 ^ 54 * 2 ^ (v.exponent - 2) := by
    rw [show v.exponent + 52 = ((54 : Nat) : Int) + (v.exponent - 2) by omega,
      zpow_add₀ two_ne_zero, zpow_natCast]
  have hm : v.significand = leastNormal := by
    refine Nat.le_antisymm (Nat.le_of_not_lt fun hgt => ?_) hnormal
    have hgt' : (2 : ℚ) ^ 52 + 1 ≤ v.significand := by exact_mod_cast hgt
    have hlower : (4 * v.significand - 2) * (2 : ℚ) ^ (v.exponent - 2) <
        2 ^ 54 * 2 ^ (v.exponent - 2) :=
      calc (4 * v.significand - 2) * (2 : ℚ) ^ (v.exponent - 2)
          ≤ v.lowerQuarters * 2 ^ (v.exponent - 2) :=
            mul_le_mul_of_nonneg_right (le_lowerQuarters v) hunit.le
        _ ≤ y := h.lower
        _ < 2 ^ 54 * 2 ^ (v.exponent - 2) := hpow ▸ hlt
    have := lt_of_mul_lt_mul_right hlower hunit.le
    linarith
  refine ⟨hm, ?_⟩
  have hlower := h.lower
  rw [lowerQuarters, if_pos ⟨hm, hexponent⟩, hm, leastNormal] at hlower
  norm_num at hlower ⊢
  exact hlower

/-- **A fraction in the interval is rounded to the bits of the magnitude.** -/
theorem Encloses.nearestBits_eq (hv : v.IsBinary64) (hden : 0 < den)
    (h : v.Encloses (num / den)) : nearestBits num den = min infinityBits v.bits := by
  have hunit : (0 : ℚ) < 2 ^ (v.exponent - 2) := by positivity
  rw [nearestBits]
  split_ifs with hnum
  · have hm : v.significand = 0 := by
      by_contra hne
      have hpos := h.pos hne
      rw [hnum, Nat.cast_zero, zero_div] at hpos
      exact lt_irrefl 0 hpos
    have hexponent : v.exponent = leastExponent :=
      hv.isNormal.resolve_left (by rw [hm]; decide)
    rw [bits, hm, hexponent, Int.sub_self, Int.toNat_zero, Nat.zero_mul, Nat.min_zero]
  · obtain ⟨hle, hlt⟩ := floorLog2_bounds (Nat.pos_of_ne_zero hnum) hden
    have hleast := hv.leastExponent_le
    have hlog : floorLog2 num den < v.exponent + 53 :=
      (zpow_lt_zpow_iff_right₀ one_lt_two).1 (lt_of_le_of_lt hle (h.lt_two_zpow hv))
    obtain ⟨t, ht⟩ : ∃ t, t = max (floorLog2 num den - 52) leastExponent := ⟨_, rfl⟩
    dsimp only
    rw [← ht]
    refine congrArg (min infinityBits) ?_
    rcases (show t ≤ v.exponent by omega).eq_or_lt with heq | hgt
    · -- the fraction has the exponent of the number
      have hlower := mul_le_mul_of_nonneg_right (le_lowerQuarters v) hunit.le
      have hround : roundHalfEven (num * (powFraction 2 t).2) (den * (powFraction 2 t).1) =
          v.significand := by
        rw [heq]
        have hupper := h.upper
        have hinner := h.inner
        rw [upperQuarters] at hupper hinner
        push_cast at hupper hinner
        exact roundHalfEven_scaled hden _ (hlower.trans h.lower) hupper
          fun hodd => ⟨lt_of_le_of_lt hlower (hinner hodd).1, (hinner hodd).2⟩
      rw [hround, heq, bits]
    · -- the number is a power of two, and the fraction is below it
      have hexponent : leastExponent < v.exponent := by omega
      have hnormal : leastNormal ≤ v.significand := hv.isNormal.resolve_right hexponent.ne'
      have hbelow : (num / den : ℚ) < 2 ^ (v.exponent + 52) :=
        lt_of_lt_of_le hlt (zpow_le_zpow_right₀ one_le_two (by omega))
      obtain ⟨hm, hquarter⟩ := h.eq_leastNormal hnormal hexponent hbelow
      have hpow (k : Nat) : (2 : ℚ) ^ (v.exponent - 2 + k) = 2 ^ k * 2 ^ (v.exponent - 2) := by
        rw [zpow_add₀ two_ne_zero, zpow_natCast, mul_comm]
      have hlog' : v.exponent + 51 < floorLog2 num den + 1 := by
        refine (zpow_lt_zpow_iff_right₀ one_lt_two).1 (lt_of_le_of_lt (le_trans ?_ hquarter) hlt)
        rw [show v.exponent + 51 = v.exponent - 2 + (53 : Nat) by omega, hpow]
        exact mul_le_mul_of_nonneg_right (by norm_num) hunit.le
      have ht' : t = v.exponent - 1 := by omega
      have hhalf : (2 : ℚ) ^ (v.exponent - 1 - 2) = 2 ^ (v.exponent - 2) / 2 := by
        rw [show v.exponent - 1 - 2 = v.exponent - 2 - 1 by omega, zpow_sub_one₀ two_ne_zero]
        rfl
      have hround : roundHalfEven (num * (powFraction 2 t).2) (den * (powFraction 2 t).1) =
          2 * leastNormal := by
        rw [ht']
        refine roundHalfEven_scaled hden _ ?_ ?_ fun hodd => absurd hodd (by decide) <;>
          rw [hhalf, leastNormal] <;> push_cast
        · linarith
        · rw [show v.exponent + 52 = v.exponent - 2 + (54 : Nat) by omega, hpow] at hbelow
          linarith
      rw [hround, bits, hm, ht', leastNormal]
      omega

end

end Magnitude

/-! ### Numbers without a sign -/

section

variable {x : Float}

/-- The bits of a number without a sign are those of its magnitude. -/
theorem bits_ofFloat (h : isNegative x = false) : (Magnitude.ofFloat x).bits = x.toBits.toNat := by
  rw [isNegative, decide_eq_false_iff_not, not_le] at h
  exact Magnitude.bits_ofBits h

theorem toBits_lt_infinityBits (hfinite : x.isFinite = true) (h : isNegative x = false) :
    x.toBits.toNat < infinityBits := by
  rw [isNegative, decide_eq_false_iff_not, not_le] at h
  have hfield : x.toBits.toNat / leastNormal < exponentFields :=
    Nat.div_lt_of_lt_mul (by rwa [Nat.mul_comm])
  have hne := (isFinite_iff x).1 hfinite
  rw [Nat.mod_eq_of_lt hfield] at hne
  rw [infinityBits, ← Nat.div_lt_iff_lt_mul (by decide)]
  omega

/-- **A fraction in the interval of a number is read as that number.** -/
theorem nearest_of_encloses {num den : Nat} (hfinite : x.isFinite = true)
    (hsign : isNegative x = false) (hden : 0 < den)
    (h : (Magnitude.ofFloat x).Encloses (num / den)) : nearest num den = x := by
  have hbits : nearestBits num den = x.toBits.toNat := by
    rw [h.nearestBits_eq (Magnitude.isBinary64_ofFloat x) hden, bits_ofFloat hsign]
    exact Nat.min_eq_right (toBits_lt_infinityBits hfinite hsign).le
  rw [nearest, hbits, UInt64.ofNat_toNat]
  exact Float.ofBits_toBits x

end

end RunningTab.Decimal
