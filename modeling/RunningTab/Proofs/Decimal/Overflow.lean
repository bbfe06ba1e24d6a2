import RunningTab.Proofs.Decimal.Value

/-!
# Rounding and the overflow

Every operation on binary64 numbers ends in the same way: a fraction, given as a whole part and the
accuracy of it, is rounded to the bits that are kept, and packed. The rounding of the operations is
the one of this library (`RunningTab.Decimal.Locates.roundedMantissa`): to the nearest, from the
middle to even.

The result is finite exactly if the fraction is below the overflow
(`RunningTab.Decimal.isFinite_pack_roundWithAccuracy`). Far from the overflow that is a matter of
size; at the last place of the greatest numbers it is the carry that decides, and the overflow is
half a unit below the power of two where the carry comes because the greatest mantissa is odd.
-/

namespace RunningTab.Decimal

open Float.Model (Format UnpackedFloat totalExponent)
open Float.Model.UnpackedFloat (Sign Accuracy ExtendedMantissa accuracyOfFraction shiftToExponent
  shiftToTargetExponent roundWithAccuracy packComponents packedInfinity
  unpackExponent_packComponents)

/-! ### Extended mantissas -/

/-- **An extended mantissa locates a quotient**: its mantissa is the whole part, and its two bits
tell how the remainder compares with half of the divisor. -/
structure Locates (em : ExtendedMantissa) (n d : Nat) : Prop where
  mantissa : em.mantissa = n / d
  roundBit : em.roundBit = true ↔ d ≤ 2 * (n % d)
  stickyBit : em.stickyBit = true ↔ 2 * (n % d) ≠ 0 ∧ 2 * (n % d) ≠ d

/-- The whole part and the accuracy of a fraction locate it. -/
theorem locates_ofFraction (n : Nat) {d : Nat} (hd : 0 < d) :
    Locates (.ofMantissaAndAccuracy (n / d) (accuracyOfFraction (n % d) d)) n d := by
  have hlt : n % d < d := Nat.mod_lt n hd
  rw [accuracyOfFraction]
  split
  · refine ⟨rfl, ?_, ?_⟩ <;> simp [ExtendedMantissa.ofMantissaAndAccuracy] <;> omega
  · next hne =>
    rcases hc : compare (2 * (n % d)) d with _ | _ | _
    · rw [Nat.compare_eq_lt] at hc
      refine ⟨rfl, ?_, ?_⟩ <;> simp [ExtendedMantissa.ofMantissaAndAccuracy] <;> omega
    · rw [Nat.compare_eq_eq] at hc
      refine ⟨rfl, ?_, ?_⟩ <;> simp [ExtendedMantissa.ofMantissaAndAccuracy] <;> omega
    · rw [Nat.compare_eq_gt] at hc
      refine ⟨rfl, ?_, ?_⟩ <;> simp [ExtendedMantissa.ofMantissaAndAccuracy] <;> omega

/-- A shift by one bit divides by two. -/
theorem Locates.shiftRightOne {em : ExtendedMantissa} {n d : Nat} (hd : 0 < d)
    (h : Locates em n d) : Locates em.shiftRightOne n (d * 2) := by
  have hdiv : n / (d * 2) = n / d / 2 := (Nat.div_div_eq_div_mul n d 2).symm
  have hmod : n % (d * 2) = n % d + d * (n / d % 2) := Nat.mod_mul
  have hlt : n % d < d := Nat.mod_lt n hd
  refine ⟨?_, ?_, ?_⟩
  · rw [hdiv, ← h.mantissa]
    rfl
  · change (em.mantissa % 2 != 0) = true ↔ _
    rw [h.mantissa, hmod]
    rcases Nat.mod_two_eq_zero_or_one (n / d) with h2 | h2 <;> rw [h2] <;> simp <;> omega
  · change (em.roundBit || em.stickyBit) = true ↔ _
    rw [Bool.or_eq_true, h.roundBit, h.stickyBit, hmod]
    rcases Nat.mod_two_eq_zero_or_one (n / d) with h2 | h2 <;> rw [h2] <;> simp <;> omega

theorem Locates.shiftRight {em : ExtendedMantissa} {n d : Nat} (hd : 0 < d) (h : Locates em n d)
    (k : Nat) : Locates (em >>> k) n (d * 2 ^ k) := by
  induction k with
  | zero =>
    rw [Nat.pow_zero, Nat.mul_one]
    exact h
  | succ k ih =>
    rw [Nat.pow_succ, ← Nat.mul_assoc]
    exact ih.shiftRightOne (by positivity)

/-- **Its rounding is the rounding of the quotient.** -/
theorem Locates.roundedMantissa {em : ExtendedMantissa} {n d : Nat}
    (h : Locates em n d) : em.roundedMantissa = roundHalfEven n d := by
  obtain ⟨m, r, s⟩ := em
  obtain ⟨hm, hr, hs⟩ := h
  dsimp only at hm hr hs
  rw [roundHalfEven]
  cases r <;> cases s <;>
    simp only [ExtendedMantissa.roundedMantissa, ExtendedMantissa.accuracy,
      Accuracy.roundToNearestEven] <;> grind

/-- **An even bound is reached from half a unit below it on.** -/
theorem roundHalfEven_lt_iff {n d b : Nat} (hd : 0 < d) (heven : b % 2 = 0) (hb : 0 < b) :
    roundHalfEven n d < b ↔ 2 * n < (2 * b - 1) * d := by
  have hn : n / d * d + n % d = n := by rw [Nat.mul_comm]; exact Nat.div_add_mod n d
  have hmod : n % d < d := Nat.mod_lt n hd
  have hbound : (2 * b - 1) * d = 2 * (b * d) - d := by
    rw [Nat.sub_mul, Nat.mul_assoc, Nat.one_mul]
  have hd_le : d ≤ b * d := Nat.le_mul_of_pos_left d hb
  rw [hbound, roundHalfEven]
  -- the quotient is below the bound by more than one, by one, or not at all
  rcases Nat.lt_trichotomy (n / d + 1) b with h | h | h
  · have hle : n / d * d + 2 * d ≤ b * d := by
      rw [← Nat.add_mul]
      exact Nat.mul_le_mul_right d h
    split_ifs <;> omega
  · have heq : n / d * d + d = b * d := by rw [← h, Nat.add_mul, Nat.one_mul]
    split_ifs <;> omega
  · have hle : b * d ≤ n / d * d := Nat.mul_le_mul_right d (Nat.lt_succ_iff.1 h)
    split_ifs <;> omega

theorem roundHalfEven_le (n d : Nat) : roundHalfEven n d ≤ n / d + 1 := by
  rw [roundHalfEven]
  split_ifs <;> omega

theorem le_roundHalfEven (n d : Nat) : n / d ≤ roundHalfEven n d := by
  rw [roundHalfEven]
  split_ifs <;> omega

/-! ### Rounding to binary64 -/

/-- The exponent of the last place that is kept of `m * 2 ^ e`. -/
theorem targetExponent_binary64 (m : Nat) (e : Int) :
    Format.binary64.targetExponent (totalExponent m e) = max ((m.log2 : Int) + e - 52) (-1074) := by
  simp only [Format.targetExponent, totalExponent, Format.mantissaBits, Format.minExponent]
  norm_num
  omega

/-- A mantissa of at most 53 bits is not shifted. -/
theorem shiftToTargetExponent_of_lt {m : Nat} {e : Int} (hm : m < 2 ^ 53) (he : -1074 ≤ e) :
    shiftToTargetExponent Format.binary64 m e .exact = (⟨m, false, false⟩, e) := by
  have hlog : m.log2 ≤ 52 := by
    rcases Nat.eq_zero_or_pos m with rfl | hpos
    · simp
    · exact Nat.lt_succ_iff.1 ((Nat.log2_lt (Nat.ne_of_gt hpos)).2 hm)
  have hshift : (max ((m.log2 : Int) + e - 52) (-1074) - e).toNat = 0 := by omega
  rw [shiftToTargetExponent, targetExponent_binary64, shiftToExponent, hshift]
  simp [ExtendedMantissa.ofMantissaAndAccuracy, HShiftRight.hShiftRight, Nat.repeat]

/-- A mantissa that was rounded up to 54 bits is shifted by one. -/
theorem shiftToTargetExponent_carry {e : Int} (he : -1074 ≤ e) :
    shiftToTargetExponent Format.binary64 (2 ^ 53) e .exact = (⟨2 ^ 52, false, false⟩, e + 1) := by
  have hshift : (max (((2 ^ 53 : Nat).log2 : Int) + e - 52) (-1074) - e).toNat = 1 := by
    rw [Nat.log2_two_pow]
    omega
  rw [shiftToTargetExponent, targetExponent_binary64, shiftToExponent, hshift]
  rfl

/-- **What a fraction is rounded to.** It is given as a whole part and an accuracy in units of
`2 ^ e`, fine enough that none of its bits are missing; `2 ^ t` is the last place kept. -/
theorem roundWithAccuracy_fraction (s : Sign) {n d : Nat} (hd : 0 < d) {e t : Int}
    (ht : t = max (((n / d).log2 : Int) + e - 52) (-1074)) (het : e ≤ t) :
    let r := roundHalfEven n (d * 2 ^ (t - e).toNat)
    r ≤ 2 ^ 53 ∧ roundWithAccuracy Format.binary64 s (n / d) e (accuracyOfFraction (n % d) d) =
      if h : r = 0 then .zero s
      else if r < 2 ^ 53 then .finite s r t (Nat.pos_of_ne_zero h)
      else .finite s (2 ^ 52) (t + 1) (by decide) := by
  intro r
  have hfirst : (shiftToTargetExponent Format.binary64 (n / d) e
      (accuracyOfFraction (n % d) d)).1.roundedMantissa = r := by
    rw [shiftToTargetExponent, targetExponent_binary64, ← ht]
    exact ((locates_ofFraction n hd).shiftRight hd _).roundedMantissa
  have hsecond : (shiftToTargetExponent Format.binary64 (n / d) e
      (accuracyOfFraction (n % d) d)).2 = t := by
    rw [shiftToTargetExponent, targetExponent_binary64, ← ht]
    change e + ((t - e).toNat : Int) = t
    omega
  have hmin : -1074 ≤ t := ht ▸ Int.le_max_right _ _
  have hr : r ≤ 2 ^ 53 := by
    -- the bits above the last place are at most 53
    have hle : r ≤ n / (d * 2 ^ (t - e).toNat) + 1 := roundHalfEven_le _ _
    have hlt : n / (d * 2 ^ (t - e).toNat) < 2 ^ 53 := by
      rw [← Nat.div_div_eq_div_mul, Nat.div_lt_iff_lt_mul (by positivity), ← Nat.pow_add]
      refine Nat.lt_of_lt_of_le Nat.lt_log2_self (Nat.pow_le_pow_right (by decide) ?_)
      omega
    omega
  refine ⟨hr, ?_⟩
  rw [roundWithAccuracy]
  rcases hpair : shiftToTargetExponent Format.binary64 (n / d) e
    (accuracyOfFraction (n % d) d) with ⟨em, e₁⟩
  rw [hpair] at hfirst hsecond
  dsimp only at hfirst hsecond ⊢
  rw [hfirst, hsecond]
  rcases Nat.lt_or_eq_of_le hr with hlt | heq
  · rw [shiftToTargetExponent_of_lt hlt hmin]
    simp only [hlt, if_true]
  · rw [heq, shiftToTargetExponent_carry hmin]
    rfl

/-! ### Packing -/

/-- What is packed is finite unless all bits of its exponent are set. -/
theorem isFinite_unpack_packComponents (s : Sign) (e : BitVec 11) (m : BitVec 52) :
    (UnpackedFloat.unpack Format.binary64
      (packComponents Format.binary64 s e m)).isFinite = true ↔ e ≠ -1#11 := by
  rw [UnpackedFloat.unpack, unpackExponent_packComponents]
  dsimp only
  split_ifs <;> simp_all [UnpackedFloat.isFinite]

/-- Packing keeps a rounded number finite if its last place is not too high. -/
theorem isFinite_pack_finite {s : Sign} {m : Nat} {e : Int} (hm : 0 < m) :
    (Float.Model.pack (.finite s m e hm)).isFinite = true ↔ e ≤ 971 := by
  change (UnpackedFloat.unpack Format.binary64
    (UnpackedFloat.pack Format.binary64 (.finite s m e hm))).isFinite = true ↔ _
  rw [UnpackedFloat.pack]
  split
  · next hover =>
    change 2048 ≤ (e + 1023 + 52).toNat + 1 at hover
    rw [packedInfinity, isFinite_unpack_packComponents]
    simp
    omega
  · next hover =>
    change ¬2048 ≤ (e + 1023 + 52).toNat + 1 at hover
    split
    · rw [isFinite_unpack_packComponents]
      have hne : BitVec.ofNat 11 (e + 1023 + 52).toNat ≠ -1#11 := by
        intro h
        have hnat := congrArg BitVec.toNat h
        rw [BitVec.toNat_ofNat] at hnat
        change (e + 1023 + 52).toNat % 2048 = 2047 at hnat
        omega
      exact ⟨fun _ => by omega, fun _ => hne⟩
    · rw [isFinite_unpack_packComponents]
      exact ⟨fun _ => by omega, fun _ => by decide⟩

theorem isFinite_pack_zero (s : Sign) : (Float.Model.pack (.zero s)).isFinite = true := by
  cases s <;> decide

theorem isFinite_pack_infinity (s : Sign) : (Float.Model.pack (.infinity s)).isFinite = false := by
  cases s <;> decide

theorem isFinite_pack_notANumber : (Float.Model.pack .notANumber).isFinite = false := by
  decide

/-! ### Fractions and the overflow -/

section

variable {n d : Nat} (hd : 0 < d) (e : Int)

include hd

/-- A fraction is below the power of two that its whole part is below. -/
theorem fraction_lt_two_zpow : (n / d : ℚ) * 2 ^ e < 2 ^ (((n / d).log2 : Int) + 1 + e) := by
  have hnat : n < 2 ^ ((n / d).log2 + 1) * d := (Nat.div_lt_iff_lt_mul hd).1 Nat.lt_log2_self
  have hd' : (0 : ℚ) < d := by exact_mod_cast hd
  have hlt : (n / d : ℚ) < 2 ^ ((n / d).log2 + 1) := by
    rw [div_lt_iff₀ hd']
    exact_mod_cast hnat
  rw [zpow_add₀ two_ne_zero]
  exact mul_lt_mul_of_pos_right (by exact_mod_cast hlt) (by positivity)

/-- A fraction with a whole part is not below the power of two of its first bit. -/
theorem two_zpow_le_fraction (hne : n / d ≠ 0) :
    (2 : ℚ) ^ (((n / d).log2 : Int) + e) ≤ (n / d : ℚ) * 2 ^ e := by
  have hnat : 2 ^ (n / d).log2 * d ≤ n :=
    (Nat.le_div_iff_mul_le hd).1 (Nat.log2_self_le hne)
  have hd' : (0 : ℚ) < d := by exact_mod_cast hd
  have hle : (2 : ℚ) ^ (n / d).log2 ≤ n / d := by
    rw [le_div_iff₀ hd']
    exact_mod_cast hnat
  rw [zpow_add₀ two_ne_zero]
  exact mul_le_mul_of_nonneg_right (by exact_mod_cast hle) (by positivity)

/-- The overflow in units of the last place of the greatest numbers: half a unit below the power of
two that a mantissa stays below. -/
theorem fraction_lt_overflow_iff {k : Nat} (hk : (k : Int) = 971 - e) :
    (n / d : ℚ) * 2 ^ e < overflow ↔ 2 * n < (2 * 2 ^ 53 - 1) * (d * 2 ^ k) := by
  have hd' : (0 : ℚ) < d := by exact_mod_cast hd
  have hpow : (2 : ℚ) ^ (971 : Int) = 2 ^ e * 2 ^ k := by
    rw [← zpow_natCast, ← zpow_add₀ two_ne_zero, hk]
    congr 1
    omega
  have he : (0 : ℚ) < 2 ^ e := by positivity
  have hcast : 2 * n < (2 * 2 ^ 53 - 1) * (d * 2 ^ k) ↔
      (2 * n : ℚ) < (2 * 2 ^ 53 - 1) * (d * 2 ^ k) := by
    rw [show 2 * 2 ^ 53 - 1 = 18014398509481983 from rfl,
      show (2 : ℚ) * 2 ^ 53 - 1 = 18014398509481983 by norm_num]
    norm_cast
  calc (n / d : ℚ) * 2 ^ e < overflow
      ↔ 2 * ((n / d : ℚ) * 2 ^ e) < 2 * overflow := by constructor <;> intro h <;> linarith
    _ ↔ (2 * n : ℚ) / d < (2 * 2 ^ 53 - 1) * 2 ^ k := by
        rw [two_mul_overflow, hpow,
          show 2 * ((n / d : ℚ) * 2 ^ e) = 2 * n / d * 2 ^ e by ring,
          show (2 * 2 ^ 53 - 1) * ((2 : ℚ) ^ e * 2 ^ k) = (2 * 2 ^ 53 - 1) * 2 ^ k * 2 ^ e by ring,
          mul_lt_mul_iff_left₀ he]
    _ ↔ (2 * n : ℚ) < (2 * 2 ^ 53 - 1) * (d * 2 ^ k) := by
        rw [div_lt_iff₀ hd']
        ring_nf
    _ ↔ _ := hcast.symm

/-- **A fraction is rounded to a finite number exactly if it is below the overflow.** -/
theorem isFinite_pack_roundWithAccuracy (s : Sign) (hbits : 52 ≤ (n / d).log2 ∨ e ≤ -1074) :
    (Float.Model.pack (roundWithAccuracy Format.binary64 s (n / d) e
      (accuracyOfFraction (n % d) d))).isFinite = true ↔ (n / d : ℚ) * 2 ^ e < overflow := by
  obtain ⟨t, ht⟩ : ∃ t, t = max (((n / d).log2 : Int) + e - 52) (-1074) := ⟨_, rfl⟩
  obtain ⟨hr, hround⟩ := roundWithAccuracy_fraction s hd ht (by omega)
  have hupper := fraction_lt_two_zpow (n := n) hd e
  rw [hround]
  rcases Int.lt_trichotomy t 971 with hlow | hlast | hhigh
  · -- too low for an overflow, even with a carry
    have hlt : (n / d : ℚ) * 2 ^ e < overflow :=
      calc (n / d : ℚ) * 2 ^ e
          < 2 ^ (((n / d).log2 : Int) + 1 + e) := hupper
        _ ≤ 2 ^ (1023 : Int) := zpow_le_zpow_right₀ one_le_two (by omega)
        _ < overflow := two_zpow_lt_overflow
    refine ⟨fun _ => hlt, fun _ => ?_⟩
    split_ifs with h0 hlt
    · exact isFinite_pack_zero s
    · exact (isFinite_pack_finite _).2 (by omega)
    · exact (isFinite_pack_finite _).2 (by omega)
  · -- the last place is that of the greatest numbers: a carry decides
    have hk : ((t - e).toNat : Int) = 971 - e := by omega
    rw [fraction_lt_overflow_iff hd e hk, ← roundHalfEven_lt_iff (by positivity) rfl (by decide)]
    split_ifs with h0 hlt
    · rw [h0]
      exact ⟨fun _ => by decide, fun _ => isFinite_pack_zero s⟩
    · exact ⟨fun _ => hlt, fun _ => (isFinite_pack_finite _).2 (by omega)⟩
    · exact ⟨fun h => by rw [isFinite_pack_finite] at h; omega, fun h => absurd h hlt⟩
  · -- too high for a finite number
    have hlog : 52 ≤ (n / d).log2 := by omega
    have hne : n / d ≠ 0 := by
      intro h
      rw [h, Nat.log2_zero] at hlog
      omega
    have hle : overflow ≤ (n / d : ℚ) * 2 ^ e :=
      calc overflow
          ≤ 2 ^ (1024 : Int) := overflow_le_two_zpow
        _ ≤ 2 ^ (((n / d).log2 : Int) + e) := zpow_le_zpow_right₀ one_le_two (by omega)
        _ ≤ (n / d : ℚ) * 2 ^ e := two_zpow_le_fraction hd e hne
    refine ⟨fun h => ?_, fun h => absurd h (not_lt.2 hle)⟩
    split_ifs at h with h0 hlt
    · have hle : n / d / 2 ^ (t - e).toNat ≤ 0 := by
        rw [Nat.div_div_eq_div_mul, ← h0]
        exact le_roundHalfEven n _
      have hone : 0 < n / d / 2 ^ (t - e).toNat := by
        refine Nat.div_pos (Nat.le_trans ?_ (Nat.log2_self_le hne)) (by positivity)
        exact Nat.pow_le_pow_right (by decide) (by omega)
      omega
    · rw [isFinite_pack_finite] at h
      omega
    · rw [isFinite_pack_finite] at h
      omega

end

end RunningTab.Decimal
