import RunningTab.Proofs.Decimal.Arithmetic

/-!
# What rounding does not go below

Rounding does not make a number negative (`RunningTab.Decimal.zero_le_value_div`), and it does not
bring a number below one that was not
(`RunningTab.Decimal.one_le_value_pack_roundWithAccuracy`): one is a number with all its 53 bits
before the point, and so is whatever is rounded from above it. Put together, one and a number that
is not negative is at least one, and never too large (`RunningTab.Decimal.one_le_value_one_add`).
-/

namespace RunningTab.Decimal

open Float.Model (Format UnpackedFloat)
open Float.Model.UnpackedFloat (Sign Accuracy accuracyOfFraction roundWithAccuracy packComponents
  packedInfinity unpackSign unpackExponent_packComponents unpackMantissa_packComponents
  unpackSign_packComponents)

/-! ### Signs -/

/-- **Packing keeps the sign.** -/
theorem isNegative_pack {m : Nat} {e : Int} (hm : 0 < m) :
    isNegative (.ofModel (.pack (.finite .positive m e hm))) = false := by
  have hsign : Sign.ofBitVec (@unpackSign Format.binary64
      (UnpackedFloat.pack Format.binary64 (.finite .positive m e hm))) = .positive := by
    rw [UnpackedFloat.pack]
    split
    · rw [packedInfinity, unpackSign_packComponents, Sign.ofBitVec_toBitVec]
    · split <;> rw [unpackSign_packComponents, Sign.ofBitVec_toBitVec]
  rw [ofBitVec_unpackSign] at hsign
  rw [isNegative, decide_eq_false_iff_not]
  intro hle
  change exponentFields * leastNormal ≤
    (UnpackedFloat.pack Format.binary64 (.finite .positive m e hm)).toNat at hle
  rw [if_pos hle] at hsign
  cases hsign

theorem zero_le_value_of_isNegative {x : Float} (h : isNegative x = false) : 0 ≤ value x := by
  rw [value, h, if_neg Bool.false_ne_true]
  positivity

theorem value_pack_zero (s : Sign) : value (.ofModel (.pack (.zero s))) = 0 := by
  have hzero : (Magnitude.ofFloat (.ofModel (.pack (.zero s)))).significand = 0 := by
    cases s <;> decide
  rw [value, hzero]
  simp

/-- What is rounded from a positive number is not negative. -/
theorem zero_le_value_pack_roundWithAccuracy (m : Nat) (e : Int) (accuracy : Accuracy) :
    0 ≤ value (.ofModel (.pack
      (roundWithAccuracy Format.binary64 .positive m e accuracy))) := by
  refine zero_le_value_of_isNegative ?_
  rw [roundWithAccuracy]
  dsimp only
  split
  · decide
  · exact isNegative_pack _

/-- A number that is not negative is unpacked into a zero or a positive number. -/
theorem unpack_cases_of_zero_le {x : Float} (h : x.isFinite = true) (hnonneg : 0 ≤ value x) :
    (∃ s, x.toModel.unpack = .zero s) ∨ ∃ m e hm, x.toModel.unpack = .finite .positive m e hm := by
  rcases unpack_cases h with ⟨s, hform, -⟩ | ⟨s, m, e, hm, hform, hvalue, -⟩
  · exact Or.inl ⟨s, hform⟩
  · cases s with
    | positive => exact Or.inr ⟨m, e, hm, hform⟩
    | negative =>
      have hpos : (0 : ℚ) < m * 2 ^ e := by positivity
      rw [hvalue, Sign.apply] at hnonneg
      push_cast at hnonneg
      linarith

/-- **A quotient by a positive number keeps a number from being negative.** -/
theorem zero_le_value_div {a b : Float} (ha : a.isFinite = true) (ha' : 0 ≤ value a)
    (hb : b.isFinite = true) (hb' : 0 < value b) : 0 ≤ value (a / b) := by
  have hform : ∃ m e hm, b.toModel.unpack = .finite .positive m e hm := by
    rcases unpack_cases hb with ⟨s, -, hzero⟩ | ⟨s, m, e, hm, hform, -⟩
    · exact absurd hzero (ne_of_gt hb')
    · rcases unpack_cases_of_zero_le hb (le_of_lt hb') with ⟨s', hzero⟩ | hpositive
      · rw [hform] at hzero
        cases hzero
      · exact hpositive
  obtain ⟨m', e', hm', hform'⟩ := hform
  change 0 ≤ value (.ofModel (.pack (UnpackedFloat.div Format.binary64 a.toModel.unpack
    b.toModel.unpack)))
  rcases unpack_cases_of_zero_le ha ha' with ⟨s, hform⟩ | ⟨m, e, hm, hform⟩
  · rw [hform, hform']
    exact le_of_eq (value_pack_zero _).symm
  · rw [hform, hform']
    exact zero_le_value_pack_roundWithAccuracy _ _ _

/-- A number that compares as not negative is not. -/
theorem zero_le_value_of_le {x : Float} (h : x.isFinite = true) (hle : 0.0 ≤ x) : 0 ≤ value x := by
  have hle' : (Float.toModel 0.0).unpack.le x.toModel.unpack = true := of_decide_eq_true hle
  have hzero : (Float.toModel 0.0).unpack = .zero .positive := by rfl
  rcases unpack_cases h with ⟨s, -, hvalue⟩ | ⟨s, m, e, hm, hform, hvalue, -⟩
  · exact le_of_eq hvalue.symm
  · cases s with
    | positive =>
      rw [hvalue, Sign.apply]
      positivity
    | negative =>
      rw [hzero, hform] at hle'
      cases hle'

/-! ### Numbers that are at least one -/

/-- What is unpacked of the components of a normal number. -/
theorem unpack_packComponents (s : Sign) {e : BitVec 11} (m : BitVec 52) (hzero : e ≠ 0#11)
    (hones : e ≠ -1#11) :
    ∃ h, UnpackedFloat.unpack Format.binary64 (packComponents Format.binary64 s e m) =
      .finite s (leastNormal + m.toNat) ((e.toNat : Int) - 1075) h := by
  rw [UnpackedFloat.unpack, unpackExponent_packComponents]
  dsimp only
  rw [if_neg hones, if_neg hzero]
  have hsign : Sign.ofBitVec (unpackSign (packComponents Format.binary64 s e m)) = s := by
    rw [unpackSign_packComponents, Sign.ofBitVec_toBitVec]
  refine exists_finite_eq _ hsign ?_ rfl
  rw [unpackMantissa_packComponents]
  exact toNat_one_append m

/-- **Packing a normal number and unpacking it gives it back.** -/
theorem unpack_pack_of_normal {s : Sign} {m : Nat} {e : Int} (hm : 0 < m) (hlow : 2 ^ 52 ≤ m)
    (hhigh : m < 2 ^ 53) (he : -1074 ≤ e) (he' : e ≤ 971) :
    (Float.Model.pack (.finite s m e hm)).unpack = .finite s m e hm := by
  have hlog : m.log2 + 1 = Format.binary64.mantissaBits := by
    rw [(Nat.log2_eq_iff hm.ne').2 ⟨hlow, hhigh⟩]
    rfl
  have hexponent : (BitVec.ofNat 11 (e + 1023 + 52).toNat).toNat = (e + 1075).toNat := by
    rw [BitVec.toNat_ofNat, Nat.mod_eq_of_lt (by omega)]
    omega
  have hzero : BitVec.ofNat 11 (e + 1023 + 52).toNat ≠ 0#11 := by
    intro h
    rw [h] at hexponent
    change 0 = _ at hexponent
    omega
  have hones : BitVec.ofNat 11 (e + 1023 + 52).toNat ≠ -1#11 := by
    intro h
    rw [h] at hexponent
    change 2047 = _ at hexponent
    omega
  have hmantissa : leastNormal + (BitVec.ofNat 52 m).toNat = m := by
    rw [BitVec.toNat_ofNat, leastNormal]
    omega
  change UnpackedFloat.unpack Format.binary64
    (UnpackedFloat.pack Format.binary64 (.finite s m e hm)) = _
  rw [UnpackedFloat.pack, if_neg (by change ¬2048 ≤ (e + 1023 + 52).toNat + 1; omega), if_pos hlog]
  obtain ⟨h, hunpack⟩ := unpack_packComponents s (BitVec.ofNat 52 m) hzero hones
  refine hunpack.trans ?_
  obtain ⟨h', heq⟩ := exists_finite_eq h (s := s) rfl hmantissa
    (by omega : ((BitVec.ofNat 11 (e + 1023 + 52).toNat).toNat : Int) - 1075 = e)
  exact heq

/-- A normal number without places after the point is at least one. -/
theorem one_le_value_pack {m : Nat} {e : Int} (hm : 0 < m) (hlow : 2 ^ 52 ≤ m) (hhigh : m < 2 ^ 53)
    (he : -52 ≤ e) (he' : e ≤ 971) :
    1 ≤ value (.ofModel (Float.Model.pack (.finite .positive m e hm))) := by
  have hform := unpack_pack_of_normal (s := .positive) hm hlow hhigh (by omega) he'
  have hfinite : (Float.ofModel (Float.Model.pack (.finite .positive m e hm))).isFinite = true :=
    (isFinite_pack_finite hm).2 he'
  rcases unpack_cases hfinite with ⟨s, hzero, -⟩ | ⟨s, m', e', hm', hform', hvalue, -⟩
  · rw [hform] at hzero
    cases hzero
  · rw [hform] at hform'
    cases hform'
    have hm52 : (2 : ℚ) ^ 52 ≤ m := by exact_mod_cast hlow
    rw [hvalue]
    calc (1 : ℚ) = 2 ^ 52 * 2 ^ (-52 : Int) := by norm_num
      _ ≤ m * 2 ^ e :=
          mul_le_mul hm52 (zpow_le_zpow_right₀ one_le_two he) (by positivity) (by positivity)

/-- **What is at least one is rounded to at least one**, if to a finite number. -/
theorem one_le_value_pack_roundWithAccuracy {n d : Nat} (hd : 0 < d) (e : Int)
    (hbits : 52 ≤ (n / d).log2 ∨ e ≤ -1074) (hone : 1 ≤ (n / d : ℚ) * 2 ^ e)
    (hfinite : (Float.Model.pack (roundWithAccuracy Format.binary64 .positive (n / d) e
      (accuracyOfFraction (n % d) d))).isFinite = true) :
    1 ≤ value (.ofModel (Float.Model.pack (roundWithAccuracy Format.binary64 .positive (n / d) e
      (accuracyOfFraction (n % d) d)))) := by
  obtain ⟨t, ht⟩ : ∃ t, t = max (((n / d).log2 : Int) + e - 52) (-1074) := ⟨_, rfl⟩
  obtain ⟨hr, hround⟩ := roundWithAccuracy_fraction .positive hd ht (by omega)
  have hexponent : (0 : Int) < ((n / d).log2 : Int) + 1 + e := by
    have hlt := lt_of_le_of_lt hone (fraction_lt_two_zpow hd e)
    rwa [← zpow_zero (2 : ℚ), zpow_lt_zpow_iff_right₀ one_lt_two] at hlt
  -- no place after the point is the last one, and there are 53 bits
  have hlow : 2 ^ 52 ≤ roundHalfEven n (d * 2 ^ (t - e).toNat) := by
    refine Nat.le_trans ?_ (le_roundHalfEven n _)
    rw [← Nat.div_div_eq_div_mul, Nat.le_div_iff_mul_le (by positivity), ← Nat.pow_add]
    have hne : n / d ≠ 0 := by
      intro h
      rw [h, Nat.log2_zero] at hbits hexponent
      omega
    exact Nat.le_trans (Nat.pow_le_pow_right (by decide) (by omega)) (Nat.log2_self_le hne)
  rw [hround] at hfinite ⊢
  split_ifs at hfinite ⊢ with h0 hlt
  · omega
  · exact one_le_value_pack _ hlow hlt (by omega) ((isFinite_pack_finite _).1 hfinite)
  · exact one_le_value_pack _ (by decide) (by decide) (by omega)
      ((isFinite_pack_finite _).1 hfinite)

theorem one_le_value_pack_normalize {m e : Int} (hone : 1 ≤ (m : ℚ) * 2 ^ e)
    (hfinite : (Float.Model.pack
      (UnpackedFloat.normalize Format.binary64 m e .positive)).isFinite = true) :
    1 ≤ value (.ofModel (.pack (UnpackedFloat.normalize Format.binary64 m e .positive))) := by
  have hpos : 0 < m := by
    by_contra hle
    have hcast : (m : ℚ) ≤ 0 := by exact_mod_cast not_lt.1 hle
    have hnonpos : (m : ℚ) * 2 ^ e ≤ 0 := mul_nonpos_of_nonpos_of_nonneg hcast (by positivity)
    linarith
  have hnat : ((m.toNat : Nat) : ℚ) = m := by
    exact_mod_cast Int.toNat_of_nonneg (le_of_lt hpos)
  have hnormalize : UnpackedFloat.normalize Format.binary64 m e .positive =
      UnpackedFloat.round Format.binary64 .positive m.toNat e := by
    rw [UnpackedFloat.normalize, show compare m 0 = .gt from Int.compare_eq_gt.2 hpos]
  obtain ⟨n, t, hround, hbits, hvalue⟩ :=
    round_eq_roundWithAccuracy .positive (m := m.toNat) (by omega) e
  rw [hnormalize, hround] at hfinite ⊢
  refine one_le_value_pack_roundWithAccuracy Nat.one_pos t hbits ?_ hfinite
  rw [hvalue, hnat]
  exact hone

theorem value_one : value 1.0 = 1 := by
  have hsign : isNegative 1.0 = false := by decide
  have hmagnitude : Magnitude.ofFloat 1.0 = ⟨leastNormal, -52⟩ := by decide
  rw [value, hsign, hmagnitude, leastNormal]
  norm_num

/-- **One and a number that is not negative is at least one**, and never too large. -/
theorem one_le_value_one_add {y : Float} (hy : y.isFinite = true) (hnonneg : 0 ≤ value y) :
    (1.0 + y).isFinite = true ∧ 1 ≤ value (1.0 + y) := by
  have hfinite : (1.0 + y).isFinite = true := by
    have hle := abs_value_le hy
    have hunit : (1 : ℚ) < 2 ^ 970 := one_lt_pow₀ one_lt_two (by decide)
    rw [abs_of_nonneg hnonneg] at hle
    rw [isFinite_add_iff (by decide) hy, value_one, abs_of_nonneg (by linarith)]
    generalize (2 : ℚ) ^ 970 = unit at hle hunit
    linarith
  refine ⟨hfinite, ?_⟩
  rcases unpack_cases hy with ⟨s, hform, -⟩ | ⟨s, m, e, hm, hform, hvalue, -⟩
  · have hsum : 1.0 + y = 1.0 := by
      change Float.ofModel (Float.Model.pack (UnpackedFloat.add Format.binary64
        (1.0 : Float).toModel.unpack y.toModel.unpack)) = 1.0
      rw [hform]
      rfl
    rw [hsum, value_one]
  · have hone : (1.0 : Float).toModel.unpack =
        .finite .positive leastNormal (-52) (by decide) := by rfl
    obtain ⟨n, t, hsum, hnt⟩ := add_eq_normalize hone hform
    have hnt_one : 1 ≤ (n : ℚ) * 2 ^ t := by
      rw [hnt, ← hvalue]
      have : ((Sign.positive.apply leastNormal : Int) : ℚ) * 2 ^ (-52 : Int) = 1 := by
        norm_num [Sign.apply, leastNormal]
      rw [this]
      linarith
    rw [hsum] at hfinite ⊢
    exact one_le_value_pack_normalize hnt_one hfinite


end RunningTab.Decimal
