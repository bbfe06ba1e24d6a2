import RunningTab.Proofs.Decimal.Overflow

/-!
# When sums, products and quotients are finite

Exactly if the operands are finite and what comes out of them, taken as rational numbers, is below
the overflow (`RunningTab.Decimal.isFinite_add_iff`, `RunningTab.Decimal.isFinite_mul_iff`,
`RunningTab.Decimal.isFinite_div_iff`). The one exception is a quotient by infinity, which is zero.
-/

namespace RunningTab.Decimal

open Float.Model (Format UnpackedFloat totalExponent)
open Float.Model.UnpackedFloat (Sign accuracyOfFraction roundWithAccuracy)

variable {a b : Float}

/-! ### Products -/

/-- Factors of a finite product are finite. -/
theorem isFinite_of_mul (h : (a * b).isFinite = true) : a.isFinite = true ∧ b.isFinite = true := by
  change (Float.Model.pack (UnpackedFloat.mul Format.binary64 a.toModel.unpack
    b.toModel.unpack)).isFinite = true at h
  change a.toModel.unpack.isFinite = true ∧ b.toModel.unpack.isFinite = true
  cases ha : a.toModel.unpack <;> cases hb : b.toModel.unpack <;>
    simp [ha, hb, UnpackedFloat.mul, UnpackedFloat.isFinite, isFinite_pack_infinity,
      isFinite_pack_notANumber] at h ⊢

/-- **A product of finite numbers is finite exactly if it is below the overflow.** -/
theorem isFinite_mul_iff (ha : a.isFinite = true) (hb : b.isFinite = true) :
    (a * b).isFinite = true ↔ |value a * value b| < overflow := by
  change (Float.Model.pack (UnpackedFloat.mul Format.binary64 a.toModel.unpack
    b.toModel.unpack)).isFinite = true ↔ _
  rcases unpack_cases ha with ⟨s, hform, hvalue⟩ | ⟨s, m, e, hm, hform, hvalue, hbits, hle⟩
  · have hzero : |value a * value b| < overflow := by
      rw [hvalue, zero_mul, abs_zero]
      exact zero_lt_overflow
    rcases unpack_cases hb with ⟨s', hform', -⟩ | ⟨s', m', e', hm', hform', -⟩ <;>
      rw [hform, hform'] <;> exact ⟨fun _ => hzero, fun _ => isFinite_pack_zero _⟩
  · rcases unpack_cases hb with
      ⟨s', hform', hvalue'⟩ | ⟨s', m', e', hm', hform', hvalue', hbits', hle'⟩
    · have hzero : |value a * value b| < overflow := by
        rw [hvalue', mul_zero, abs_zero]
        exact zero_lt_overflow
      rw [hform, hform']
      exact ⟨fun _ => hzero, fun _ => isFinite_pack_zero _⟩
    · -- a product has all its bits, unless both factors are subnormal
      have hproduct : 52 ≤ (m * m' / 1).log2 ∨ e + e' ≤ -1074 := by
        rw [Nat.div_one]
        by_cases hlarge : 2 ^ 52 ≤ m * m'
        · exact Or.inl ((Nat.le_log2 (Nat.mul_pos hm hm').ne').2 hlarge)
        · have hsmall : m < 2 ^ 52 ∧ m' < 2 ^ 52 :=
            ⟨by nlinarith, by nlinarith⟩
          omega
      have hround := isFinite_pack_roundWithAccuracy Nat.one_pos (e + e') (s * s') hproduct
      rw [Nat.div_one, Nat.mod_one, Nat.cast_one, div_one, Nat.cast_mul,
        zpow_add₀ two_ne_zero] at hround
      have hvalues : |value a * value b| = (m : ℚ) * m' * (2 ^ e * 2 ^ e') := by
        rw [abs_mul, hvalue, hvalue', abs_apply_mul, abs_apply_mul]
        ring
      rw [hform, hform', hvalues]
      exact hround

/-! ### Sums -/

/-- Terms of a finite sum are finite. -/
theorem isFinite_of_add (h : (a + b).isFinite = true) : a.isFinite = true ∧ b.isFinite = true := by
  change (Float.Model.pack (UnpackedFloat.add Format.binary64 a.toModel.unpack
    b.toModel.unpack)).isFinite = true at h
  change a.toModel.unpack.isFinite = true ∧ b.toModel.unpack.isFinite = true
  cases ha : a.toModel.unpack <;> cases hb : b.toModel.unpack <;>
    simp [ha, hb, UnpackedFloat.add, UnpackedFloat.isFinite, isFinite_pack_infinity,
      isFinite_pack_notANumber] at h ⊢
  split_ifs at h <;> simp [isFinite_pack_infinity, isFinite_pack_notANumber] at h

/-- Moving the exponent down keeps the number. -/
theorem decreaseExponent_value (s : Sign) (m : Nat) {e t : Int} (h : t ≤ e) :
    ((s.apply (UnpackedFloat.decreaseExponent m e t).1 : Int) : ℚ) * 2 ^ t =
      (s.apply m : Int) * 2 ^ e := by
  have hpow : (2 : ℚ) ^ e = 2 ^ (e - t).toNat * 2 ^ t := by
    rw [← zpow_natCast, ← zpow_add₀ two_ne_zero]
    congr 1
    omega
  rw [hpow]
  change ((s.apply ((m <<< (e - t).toNat : Nat) : Int) : Int) : ℚ) * 2 ^ t = _
  rw [Nat.shiftLeft_eq]
  cases s <;> simp [Sign.apply] <;> ring

/-- Rounding a whole number of units rounds a fraction with all its bits. -/
theorem round_eq_roundWithAccuracy (s : Sign) {m : Nat} (hm : 0 < m) (e : Int) :
    ∃ (n : Nat) (t : Int), UnpackedFloat.round Format.binary64 s m e =
        roundWithAccuracy Format.binary64 s (n / 1) t (accuracyOfFraction (n % 1) 1) ∧
      (52 ≤ (n / 1).log2 ∨ t ≤ -1074) ∧ (n / (1 : Nat) : ℚ) * 2 ^ t = m * 2 ^ e := by
  obtain ⟨t, ht⟩ : ∃ t, t = max ((m.log2 : Int) + e - 52) (-1074) := ⟨_, rfl⟩
  obtain ⟨k, hk⟩ : ∃ k, k = (e - t).toNat := ⟨_, rfl⟩
  refine ⟨m * 2 ^ k, e - k, ?_, ?_, ?_⟩
  · rw [UnpackedFloat.round, targetExponent_binary64, ← ht, UnpackedFloat.decreaseExponent, ← hk,
      Nat.shiftLeft_eq, Nat.div_one, Nat.mod_one]
    rfl
  · have hlog : m.log2 + k ≤ (m * 2 ^ k).log2 := by
      rw [Nat.le_log2 (by positivity), Nat.pow_add]
      exact Nat.mul_le_mul_right _ (Nat.log2_self_le hm.ne')
    rw [Nat.div_one]
    omega
  · rw [zpow_sub₀ two_ne_zero, zpow_natCast]
    push_cast
    field_simp

/-- **A whole number of units is rounded to a finite number exactly if it is below the
overflow.** -/
theorem isFinite_pack_round (s : Sign) {m : Nat} (hm : 0 < m) (e : Int) :
    (Float.Model.pack (UnpackedFloat.round Format.binary64 s m e)).isFinite = true ↔
      (m : ℚ) * 2 ^ e < overflow := by
  obtain ⟨n, t, hround, hbits, hvalue⟩ := round_eq_roundWithAccuracy s hm e
  rw [hround, ← hvalue]
  exact isFinite_pack_roundWithAccuracy Nat.one_pos t s hbits

/-- So is a signed one. -/
theorem isFinite_pack_normalize (m e : Int) (z : Sign) :
    (Float.Model.pack (UnpackedFloat.normalize Format.binary64 m e z)).isFinite = true ↔
      |(m : ℚ) * 2 ^ e| < overflow := by
  have habs : |(m : ℚ) * 2 ^ e| = (m.natAbs : ℚ) * 2 ^ e := by
    rw [abs_mul, abs_of_pos (a := (2 : ℚ) ^ e) (by positivity), Nat.cast_natAbs, Int.cast_abs]
  rw [habs, UnpackedFloat.normalize]
  rcases Int.lt_trichotomy m 0 with hneg | rfl | hpos
  · rw [show compare m 0 = .lt from Int.compare_eq_lt.2 hneg,
      show m.natAbs = (-m).toNat by omega]
    exact isFinite_pack_round .negative (by omega) e
  · rw [Int.natAbs_zero, Nat.cast_zero, zero_mul]
    exact ⟨fun _ => zero_lt_overflow, fun _ => isFinite_pack_zero z⟩
  · rw [show compare m 0 = .gt from Int.compare_eq_gt.2 hpos, show m.natAbs = m.toNat by omega]
    exact isFinite_pack_round .positive (by omega) e

/-- A sum is worked out in whole numbers of units and rounded once. -/
theorem add_eq_normalize {s s' : Sign} {m m' : Nat} {e e' : Int} {hm : 0 < m} {hm' : 0 < m'}
    (ha : a.toModel.unpack = .finite s m e hm) (hb : b.toModel.unpack = .finite s' m' e' hm') :
    ∃ n t : Int, a + b = .ofModel (.pack (UnpackedFloat.normalize Format.binary64 n t .positive)) ∧
      (n : ℚ) * 2 ^ t = (s.apply m : Int) * 2 ^ e + (s'.apply m' : Int) * 2 ^ e' := by
  refine ⟨s.apply (UnpackedFloat.decreaseExponent m e (min e e')).1 +
    s'.apply (UnpackedFloat.decreaseExponent m' e' (min e e')).1, min e e', ?_, ?_⟩
  · change Float.ofModel (.pack (UnpackedFloat.add Format.binary64 a.toModel.unpack
      b.toModel.unpack)) = _
    rw [ha, hb]
    rfl
  · rw [Int.cast_add, add_mul, decreaseExponent_value s m (Int.min_le_left e e'),
      decreaseExponent_value s' m' (Int.min_le_right e e')]

/-- **A sum of finite numbers is finite exactly if it is below the overflow.** -/
theorem isFinite_add_iff (ha : a.isFinite = true) (hb : b.isFinite = true) :
    (a + b).isFinite = true ↔ |value a + value b| < overflow := by
  rcases unpack_cases ha with ⟨s, hform, hvalue⟩ | ⟨s, m, e, hm, hform, hvalue, hbits, hle⟩
  · -- nothing is added
    have hlt : |value a + value b| < overflow := by
      rw [hvalue, zero_add]
      exact abs_value_lt hb
    change (Float.Model.pack (UnpackedFloat.add Format.binary64 a.toModel.unpack
      b.toModel.unpack)).isFinite = true ↔ _
    rcases unpack_cases hb with ⟨s', hform', -⟩ | ⟨s', m', e', hm', hform', -, -, hle'⟩
    · rw [hform, hform']
      refine ⟨fun _ => hlt, fun _ => ?_⟩
      rw [UnpackedFloat.add]
      split <;> exact isFinite_pack_zero _
    · rw [hform, hform']
      exact ⟨fun _ => hlt, fun _ => (isFinite_pack_finite hm').2 hle'⟩
  · rcases unpack_cases hb with ⟨s', hform', hvalue'⟩ | ⟨s', m', e', hm', hform', hvalue', -⟩
    · have hlt : |value a + value b| < overflow := by
        rw [hvalue', add_zero]
        exact abs_value_lt ha
      change (Float.Model.pack (UnpackedFloat.add Format.binary64 a.toModel.unpack
        b.toModel.unpack)).isFinite = true ↔ _
      rw [hform, hform']
      exact ⟨fun _ => hlt, fun _ => (isFinite_pack_finite hm).2 hle⟩
    · obtain ⟨n, t, hsum, hnt⟩ := add_eq_normalize hform hform'
      rw [hsum, hvalue, hvalue', ← hnt]
      exact isFinite_pack_normalize n t .positive

/-! ### Quotients -/

/-- **A quotient of magnitudes is rounded to a finite number exactly if it is below the overflow.**
The quotient is worked out with all the bits that are kept. -/
theorem isFinite_pack_divCore (s : Sign) {m m' : Nat} (hm : 0 < m) (hm' : 0 < m') (e e' : Int) :
    let r := UnpackedFloat.divCore Format.binary64 m e m' e'
    (Float.Model.pack (roundWithAccuracy Format.binary64 s r.1 r.2.1 r.2.2)).isFinite = true ↔
      ((m : ℚ) * 2 ^ e) / (m' * 2 ^ e') < overflow := by
  obtain ⟨t, ht⟩ : ∃ t, t = min (e - e')
      (max ((m.log2 : Int) + e - (m'.log2 + e') - 53) (-1074)) := ⟨_, rfl⟩
  obtain ⟨k, hk⟩ : ∃ k, k = (e - e' - t).toNat := ⟨_, rfl⟩
  have hcore : UnpackedFloat.divCore Format.binary64 m e m' e' =
      (m * 2 ^ k / m', t, accuracyOfFraction (m * 2 ^ k % m') m') := by
    have htarget : min (e - e') (Format.binary64.targetExponent
        (totalExponent m e - totalExponent m' e')) = t := by
      rw [ht]
      simp only [Format.targetExponent, totalExponent, Format.mantissaBits, Format.minExponent]
      norm_num
      omega
    rw [UnpackedFloat.divCore, htarget, ← hk, Nat.shiftLeft_eq]
  have hbits : 52 ≤ (m * 2 ^ k / m').log2 ∨ t ≤ -1074 := by
    by_cases hlow : t ≤ -1074
    · exact Or.inr hlow
    · refine Or.inl ?_
      have hle : 2 ^ 52 ≤ m * 2 ^ k / m' := by
        rw [Nat.le_div_iff_mul_le hm']
        calc 2 ^ 52 * m'
            ≤ 2 ^ 52 * 2 ^ (m'.log2 + 1) := Nat.mul_le_mul_left _ (Nat.le_of_lt Nat.lt_log2_self)
          _ = 2 ^ (52 + (m'.log2 + 1)) := (Nat.pow_add ..).symm
          _ ≤ 2 ^ (m.log2 + k) := Nat.pow_le_pow_right (by decide) (by omega)
          _ = 2 ^ m.log2 * 2 ^ k := Nat.pow_add ..
          _ ≤ m * 2 ^ k := Nat.mul_le_mul_right _ (Nat.log2_self_le hm.ne')
      exact (Nat.le_log2 (Nat.ne_of_gt (Nat.lt_of_lt_of_le (by decide) hle))).2 hle
  have hvalue : ((m * 2 ^ k : Nat) : ℚ) / m' * 2 ^ t = (m * 2 ^ e) / (m' * 2 ^ e') := by
    have hpow : (2 : ℚ) ^ e = 2 ^ k * 2 ^ t * 2 ^ e' := by
      rw [← zpow_natCast, ← zpow_add₀ two_ne_zero, ← zpow_add₀ two_ne_zero]
      congr 1
      omega
    have he' : (2 : ℚ) ^ e' ≠ 0 := by positivity
    have hne : (m' : ℚ) ≠ 0 := by exact_mod_cast hm'.ne'
    rw [hpow]
    push_cast
    field_simp
  intro r
  rw [show r = _ from hcore]
  have hiff := isFinite_pack_roundWithAccuracy (n := m * 2 ^ k) hm' t s hbits
  rw [hvalue] at hiff
  exact hiff

/-- A dividend of a finite quotient is finite, and so is its divisor, and not zero, unless it is
infinite. -/
theorem isFinite_of_div (h : (a / b).isFinite = true) :
    a.isFinite = true ∧ (b.isInf = true ∨ b.isFinite = true ∧ value b ≠ 0) := by
  change (Float.Model.pack (UnpackedFloat.div Format.binary64 a.toModel.unpack
    b.toModel.unpack)).isFinite = true at h
  have hne : ∀ s m e hm, b.toModel.unpack = .finite s m e hm →
      b.isFinite = true ∧ value b ≠ 0 := by
    intro s m e hm hform
    have hb : b.isFinite = true := by
      change b.toModel.unpack.isFinite = true
      rw [hform]
      rfl
    refine ⟨hb, fun hzero => ?_⟩
    have hpos : 0 < |value b| := by
      rcases unpack_cases hb with ⟨s', hform', -⟩ | ⟨s', m', e', hm', -, hvalue, -⟩
      · rw [hform] at hform'
        cases hform'
      · rw [hvalue, abs_apply_mul]
        positivity
    rw [hzero, abs_zero] at hpos
    exact lt_irrefl 0 hpos
  change a.toModel.unpack.isFinite = true ∧ (b.toModel.unpack.isInf = true ∨ _)
  cases ha : a.toModel.unpack <;> cases hb : b.toModel.unpack <;>
    simp [ha, hb, UnpackedFloat.div, UnpackedFloat.isFinite, UnpackedFloat.isInf,
      isFinite_pack_infinity, isFinite_pack_notANumber] at h ⊢ <;> exact hne _ _ _ _ hb

/-- Divided by infinity a finite number is zero. -/
theorem isFinite_div_of_isInf (ha : a.isFinite = true) (hb : b.isInf = true) :
    (a / b).isFinite = true := by
  change a.toModel.unpack.isFinite = true at ha
  change b.toModel.unpack.isInf = true at hb
  change (Float.Model.pack (UnpackedFloat.div Format.binary64 a.toModel.unpack
    b.toModel.unpack)).isFinite = true
  cases hform : a.toModel.unpack <;> cases hform' : b.toModel.unpack <;>
    simp [hform, hform', UnpackedFloat.div, UnpackedFloat.isFinite, UnpackedFloat.isInf,
      isFinite_pack_zero] at ha hb ⊢

/-- **A quotient of finite numbers is finite exactly if it is below the overflow.** -/
theorem isFinite_div_iff (ha : a.isFinite = true) (hb : b.isFinite = true) (hne : value b ≠ 0) :
    (a / b).isFinite = true ↔ |value a / value b| < overflow := by
  change (Float.Model.pack (UnpackedFloat.div Format.binary64 a.toModel.unpack
    b.toModel.unpack)).isFinite = true ↔ _
  rcases unpack_cases hb with ⟨s', -, hvalue'⟩ | ⟨s', m', e', hm', hform', hvalue', -⟩
  · exact absurd hvalue' hne
  rcases unpack_cases ha with ⟨s, hform, hvalue⟩ | ⟨s, m, e, hm, hform, hvalue, -⟩
  · have hlt : |value a / value b| < overflow := by
      rw [hvalue, zero_div, abs_zero]
      exact zero_lt_overflow
    rw [hform, hform']
    exact ⟨fun _ => hlt, fun _ => isFinite_pack_zero _⟩
  · rw [hform, hform', abs_div, hvalue, hvalue', abs_apply_mul, abs_apply_mul]
    exact isFinite_pack_divCore _ hm hm' e e'

end RunningTab.Decimal
