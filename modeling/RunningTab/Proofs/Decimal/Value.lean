import Mathlib
import RunningTab.Decimal.Binary

/-!
# Binary64 numbers as rational numbers

A finite binary64 number is a rational one (`RunningTab.Decimal.value`), read off its bits through
its magnitude. The operations work on something else, the number unpacked into a sign, a mantissa
and an exponent. That both tell the same number is `RunningTab.Decimal.unpack_cases`: a finite
number is unpacked into a zero, and its value is zero, or into a signed product, and that is its
value.

Rounding stops at the greatest mantissa with the greatest exponent. Half a unit of the last place
beyond it is `RunningTab.Decimal.overflow`, and every finite number is below it by that half unit
(`RunningTab.Decimal.abs_value_le`).
-/

namespace RunningTab.Decimal

open Float.Model (Format UnpackedFloat)
open Float.Model.UnpackedFloat (Sign unpackExponent unpackMantissa unpackSign)

/-- **The rational number that a finite binary64 number is.** -/
def value (x : Float) : ℚ :=
  (if isNegative x then -1 else 1) * (Magnitude.ofFloat x).significand *
    2 ^ (Magnitude.ofFloat x).exponent

/-- **The overflow**: what is not below it is not rounded to a finite number. -/
def overflow : ℚ := 2 ^ 1024 - 2 ^ 970

/-! ### Fields of the bits -/

section

variable (b : BitVec 64)

theorem toNat_unpackExponent :
    (@unpackExponent Format.binary64 b).toNat = b.toNat / leastNormal % exponentFields := by
  simp [unpackExponent, leastNormal, exponentFields, Nat.shiftRight_eq_div_pow]

theorem toNat_unpackMantissa :
    (@unpackMantissa Format.binary64 b).toNat = b.toNat % leastNormal := by
  simp [unpackMantissa, leastNormal]

theorem ofBitVec_unpackSign :
    Sign.ofBitVec (@unpackSign Format.binary64 b) =
      if exponentFields * leastNormal ≤ b.toNat then .negative else .positive := by
  have hnat : (@unpackSign Format.binary64 b).toNat = b.toNat / 2 ^ 63 % 2 := by
    simp [unpackSign, Nat.shiftRight_eq_div_pow]
  have hlt : b.toNat < 2 ^ 64 := b.isLt
  have hiff : @unpackSign Format.binary64 b = 0#1 ↔ b.toNat < 2 ^ 63 := by
    rw [← BitVec.toNat_inj, hnat]
    simp
    omega
  rw [Sign.ofBitVec, show exponentFields * leastNormal = 2 ^ 63 from rfl]
  simp only [hiff]
  split_ifs <;> first | rfl | omega

end

/-- The bit in front of the fraction of a normal number. -/
theorem toNat_one_append (m : BitVec 52) : (1#1 ++ m).toNat = leastNormal + m.toNat := by
  rw [BitVec.toNat_append, ← Nat.shiftLeft_add_eq_or_of_lt m.isLt]
  rfl

/-- A number is finite unless all bits of its exponent are set. -/
theorem isFinite_iff (x : Float) :
    x.isFinite = true ↔ x.toBits.toNat / leastNormal % exponentFields ≠ exponentFields - 1 := by
  obtain ⟨b, hb⟩ : ∃ b, b = x.toModel.toBits.toBitVec := ⟨_, rfl⟩
  have hbits : x.toBits.toNat = b.toNat := by rw [hb]; rfl
  have hfinite : x.isFinite = (UnpackedFloat.unpack Format.binary64 b).isFinite := by rw [hb]; rfl
  have hones : @unpackExponent Format.binary64 b = -1#_ ↔
      (@unpackExponent Format.binary64 b).toNat = exponentFields - 1 := by
    rw [← BitVec.toNat_inj]
    rfl
  rw [hfinite, hbits, ← toNat_unpackExponent, Ne, ← hones, UnpackedFloat.unpack]
  dsimp only
  split_ifs <;> simp_all [UnpackedFloat.isFinite]

/-- A finite number is neither infinite nor no number at all. -/
theorem isInf_and_isNaN_of_isFinite {x : Float} (h : x.isFinite = true) :
    x.isInf = false ∧ x.isNaN = false := by
  change x.toModel.unpack.isFinite = true at h
  change x.toModel.unpack.isInf = false ∧ x.toModel.unpack.isNaN = false
  cases hform : x.toModel.unpack <;> rw [hform] at h <;> first | exact ⟨rfl, rfl⟩ | cases h

/-! ### Unpacked numbers -/

/-- Equal parts, equal numbers. -/
theorem exists_finite_eq {s s' : Sign} {m m' : Nat} {e e' : Int} (hm : 0 < m) (hs : s = s')
    (hmm : m = m') (he : e = e') :
    ∃ hm', UnpackedFloat.finite s m e hm = .finite s' m' e' hm' := by
  subst hs hmm he
  exact ⟨hm, rfl⟩

/-- A finite number is unpacked into its sign and its magnitude. -/
theorem unpack_of_isFinite {x : Float} (h : x.isFinite = true) :
    (∃ s, x.toModel.unpack = .zero s ∧ (Magnitude.ofFloat x).significand = 0) ∨
      ∃ hm, x.toModel.unpack = .finite (if isNegative x then .negative else .positive)
        (Magnitude.ofFloat x).significand (Magnitude.ofFloat x).exponent hm := by
  obtain ⟨b, hb⟩ : ∃ b, b = x.toModel.toBits.toBitVec := ⟨_, rfl⟩
  have hbits : x.toBits.toNat = b.toNat := by rw [hb]; rfl
  have hunpack : x.toModel.unpack = UnpackedFloat.unpack Format.binary64 b := by rw [hb]; rfl
  have hfinite : (UnpackedFloat.unpack Format.binary64 b).isFinite = true := hunpack ▸ h
  have hsign : Sign.ofBitVec (@unpackSign Format.binary64 b) =
      if isNegative x then .negative else .positive := by
    rw [ofBitVec_unpackSign, isNegative, hbits]
    simp only [decide_eq_true_eq]
  have hexponent := toNat_unpackExponent b
  have hfraction := toNat_unpackMantissa b
  rw [hunpack, Magnitude.ofFloat, Magnitude.ofBits, hbits]
  rw [UnpackedFloat.unpack] at hfinite ⊢
  dsimp only at hfinite ⊢
  split at hfinite
  · split at hfinite <;> exact absurd hfinite Bool.false_ne_true
  · next hones =>
    rw [if_neg hones]
    split
    · next hzero =>
      -- subnormal, or zero: there is no bit in front of the fraction
      have hfield : b.toNat / leastNormal % exponentFields = 0 := by
        rw [← hexponent, hzero]
        rfl
      rw [if_pos hfield]
      split
      · next hm => exact Or.inl ⟨_, rfl, by rw [← hfraction, hm]; rfl⟩
      · refine Or.inr (exists_finite_eq _ hsign hfraction ?_)
        rw [hzero]
        rfl
    · next hnonzero =>
      have hfield : b.toNat / leastNormal % exponentFields ≠ 0 := by
        rw [← hexponent]
        exact fun hzero => hnonzero (BitVec.toNat_inj.1 hzero)
      rw [if_neg hfield]
      refine Or.inr (exists_finite_eq _ hsign ?_ ?_)
      · rw [toNat_one_append, hfraction]
      · rw [hexponent]
        change _ - ((1023 : Int) + 52) = leastExponent + _
        rw [leastExponent]
        omega

/-! ### Bounds of a magnitude -/

theorem significand_lt (x : Float) : (Magnitude.ofFloat x).significand < 2 ^ 53 := by
  have hlt : x.toBits.toNat % leastNormal < leastNormal := Nat.mod_lt _ (by decide)
  rw [Magnitude.ofFloat, Magnitude.ofBits]
  split
  · exact Nat.lt_trans hlt (by decide)
  · exact Nat.lt_of_lt_of_eq (Nat.add_lt_add_left hlt leastNormal) (by decide)

/-- A number is normal, or it has the least exponent. -/
theorem leastNormal_le_significand (x : Float) :
    leastNormal ≤ (Magnitude.ofFloat x).significand ∨
      (Magnitude.ofFloat x).exponent = leastExponent := by
  rw [Magnitude.ofFloat, Magnitude.ofBits]
  split
  · exact Or.inr rfl
  · exact Or.inl (Nat.le_add_right _ _)

section

variable {x : Float}

theorem exponent_le (h : x.isFinite = true) : (Magnitude.ofFloat x).exponent ≤ 971 := by
  have hne := (isFinite_iff x).1 h
  have hlt : x.toBits.toNat / leastNormal % exponentFields < exponentFields :=
    Nat.mod_lt _ (by decide)
  have hle : x.toBits.toNat / leastNormal % exponentFields ≤ 2046 := by
    change _ ≠ 2047 at hne
    change _ < 2048 at hlt
    omega
  rw [Magnitude.ofFloat, Magnitude.ofBits]
  split
  · exact (by decide : leastExponent ≤ 971)
  · change (-1074 : Int) + _ ≤ 971
    omega

/-- **The forms of a finite number**, and its value in each. -/
theorem unpack_cases (h : x.isFinite = true) :
    (∃ s, x.toModel.unpack = .zero s ∧ value x = 0) ∨
      ∃ s m e hm, x.toModel.unpack = .finite s m e hm ∧ value x = (s.apply m : Int) * 2 ^ e ∧
        (2 ^ 52 ≤ m ∨ e = -1074) ∧ e ≤ 971 := by
  rcases unpack_of_isFinite h with ⟨s, hzero, hm⟩ | ⟨hm, hfinite⟩
  · exact Or.inl ⟨s, hzero, by rw [value, hm]; simp⟩
  · refine Or.inr ⟨_, _, _, hm, hfinite, ?_, leastNormal_le_significand x, exponent_le h⟩
    rw [value]
    split_ifs <;> simp [Sign.apply]

end

/-! ### The overflow -/

theorem overflow_eq : overflow = (2 ^ 54 - 1) * 2 ^ 970 := by
  rw [overflow, sub_mul, ← pow_add, one_mul]

theorem two_zpow_lt_overflow : (2 : ℚ) ^ (1023 : Int) < overflow := by
  have hunit : (0 : ℚ) < 2 ^ 970 := by positivity
  rw [overflow_eq, show (1023 : Int) = ((53 + 970 : Nat) : Int) from rfl, zpow_natCast, pow_add]
  exact mul_lt_mul_of_pos_right (by norm_num) hunit

theorem overflow_le_two_zpow : overflow ≤ (2 : ℚ) ^ (1024 : Int) := by
  have hunit : (0 : ℚ) ≤ 2 ^ 970 := by positivity
  rw [overflow_eq, show (1024 : Int) = ((54 + 970 : Nat) : Int) from rfl, zpow_natCast, pow_add]
  exact mul_le_mul_of_nonneg_right (by norm_num) hunit

theorem zero_lt_overflow : 0 < overflow :=
  lt_trans (by positivity) two_zpow_lt_overflow

/-- The overflow in halves of the last place of the greatest numbers. -/
theorem two_mul_overflow : 2 * overflow = (2 * 2 ^ 53 - 1) * 2 ^ (971 : Int) := by
  rw [overflow_eq, show (971 : Int) = ((970 + 1 : Nat) : Int) from rfl, zpow_natCast,
    pow_succ _ 970]
  generalize (2 : ℚ) ^ 970 = half
  ring

/-- The magnitude of a signed product. -/
theorem abs_apply_mul (s : Sign) (m : Nat) (e : Int) :
    |((s.apply m : Int) : ℚ) * 2 ^ e| = m * 2 ^ e := by
  have happly : |((s.apply m : Int) : ℚ)| = m := by cases s <;> simp [Sign.apply]
  rw [abs_mul, happly, abs_of_pos (a := (2 : ℚ) ^ e) (by positivity)]

theorem abs_value (x : Float) :
    |value x| = (Magnitude.ofFloat x).significand * 2 ^ (Magnitude.ofFloat x).exponent := by
  rw [← abs_apply_mul (if isNegative x then .negative else .positive), value]
  congr 2
  split_ifs <;> simp [Sign.apply]

section

variable {x : Float}

/-- **A finite number is below the overflow by half a unit** of the last place. -/
theorem abs_value_le (h : x.isFinite = true) : |value x| ≤ overflow - 2 ^ 970 := by
  have hm : ((Magnitude.ofFloat x).significand : ℚ) ≤ 2 ^ 53 - 1 := by
    have hle : (Magnitude.ofFloat x).significand + 1 ≤ 2 ^ 53 := significand_lt x
    have hcast : ((Magnitude.ofFloat x).significand : ℚ) + 1 ≤ 2 ^ 53 := by exact_mod_cast hle
    linarith
  calc |value x|
      = (Magnitude.ofFloat x).significand * 2 ^ (Magnitude.ofFloat x).exponent := abs_value x
    _ ≤ (2 ^ 53 - 1) * 2 ^ (971 : Int) :=
        mul_le_mul hm (zpow_le_zpow_right₀ one_le_two (exponent_le h)) (by positivity) (by norm_num)
    _ = overflow - 2 ^ 970 := by
        rw [overflow_eq, show (971 : Int) = ((970 + 1 : Nat) : Int) from rfl, zpow_natCast,
          pow_succ _ 970]
        generalize (2 : ℚ) ^ 970 = half
        ring

theorem abs_value_lt (h : x.isFinite = true) : |value x| < overflow :=
  lt_of_le_of_lt (abs_value_le h) (sub_lt_self overflow (by positivity))

end

end RunningTab.Decimal
