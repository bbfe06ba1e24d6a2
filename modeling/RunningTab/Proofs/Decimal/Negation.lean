import RunningTab.Proofs.Decimal.Value

/-!
# Negation and the signs of products and quotients

Negating a binary64 number turns its sign and nothing else (`RunningTab.Decimal.unpack_neg`), and
rounding looks at the magnitude alone, so that a negated factor negates the product
(`RunningTab.Decimal.neg_mul_eq`, `RunningTab.Decimal.mul_neg_eq`) and a negated dividend or divisor
the quotient (`RunningTab.Decimal.neg_div_eq`, `RunningTab.Decimal.div_neg_eq`). All this holds of
every number, of zeros with their signs, infinities and what is no number as well.

What has to be shown is that nothing is lost on the way through the bits. A number is packed again
as it was unpacked (`RunningTab.Decimal.pack_unpack`), because what is no number has one packing
only.
-/

namespace RunningTab.Decimal

open Float.Model (Format UnpackedFloat)
open Float.Model.UnpackedFloat (Sign Accuracy roundWithAccuracy packComponents
  unpackSign unpackExponent unpackMantissa unpackExponent_packComponents
  unpackMantissa_packComponents unpackSign_packComponents)

/-! ### Through the bits and back -/

section

variable {b : BitVec 64}

/-- A word is known by its parts. -/
theorem packComponents_eq {s : Sign} {e : BitVec 11} {m : BitVec 52}
    (hs : Sign.ofBitVec (@unpackSign Format.binary64 b) = s)
    (he : @unpackExponent Format.binary64 b = e) (hm : @unpackMantissa Format.binary64 b = m) :
    packComponents Format.binary64 s e m = b := by
  obtain ⟨c, hc⟩ : ∃ c : BitVec 64, c = packComponents Format.binary64 s e m := ⟨_, rfl⟩
  have hsign : Sign.ofBitVec (@unpackSign Format.binary64 c) = s := by
    rw [hc, unpackSign_packComponents, Sign.ofBitVec_toBitVec]
  have hexponent : (@unpackExponent Format.binary64 c).toNat = e.toNat := by
    rw [hc, unpackExponent_packComponents]
  have hmantissa : (@unpackMantissa Format.binary64 c).toNat = m.toNat := by
    rw [hc, unpackMantissa_packComponents]
  rw [← hs, ofBitVec_unpackSign, ofBitVec_unpackSign] at hsign
  rw [← he, toNat_unpackExponent, toNat_unpackExponent] at hexponent
  rw [← hm, toNat_unpackMantissa, toNat_unpackMantissa] at hmantissa
  have hhalf : exponentFields * leastNormal ≤ c.toNat ↔ exponentFields * leastNormal ≤ b.toNat := by
    split_ifs at hsign with hc hb hb
    · exact iff_of_true hc hb
    · exact iff_of_false hc hb
  have hb := b.isLt
  have hc' := c.isLt
  rw [exponentFields, leastNormal] at hhalf hexponent
  rw [leastNormal] at hmantissa
  rw [← hc]
  exact BitVec.eq_of_toNat_eq (by omega)

/-- A subnormal number is packed into an empty exponent. -/
theorem pack_subnormal (s : Sign) {m : Nat} (hm : 0 < m) (hlt : m < 2 ^ 52) :
    UnpackedFloat.pack Format.binary64 (.finite s m (-1074) hm) =
      packComponents Format.binary64 s 0#11 (.ofNat 52 m) := by
  have hlog : ¬m.log2 + 1 = Format.binary64.mantissaBits := by
    have hbits : m.log2 < 52 := (Nat.log2_lt hm.ne').2 hlt
    change ¬m.log2 + 1 = 53
    omega
  rw [UnpackedFloat.pack]
  dsimp only
  rw [if_neg (by decide), if_neg hlog]

/-- A normal number is packed without the bit in front of the fraction. -/
theorem pack_normal (s : Sign) {m : Nat} (hm : 0 < m) (hlow : 2 ^ 52 ≤ m) (hhigh : m < 2 ^ 53)
    {e : BitVec 11} (he : e ≠ -1#11) :
    UnpackedFloat.pack Format.binary64 (.finite s m ((e.toNat : Int) - 1075) hm) =
      packComponents Format.binary64 s e (.ofNat 52 m) := by
  have hlog : m.log2 + 1 = Format.binary64.mantissaBits := by
    rw [(Nat.log2_eq_iff hm.ne').2 ⟨hlow, hhigh⟩]
    rfl
  have hbiased : ((e.toNat : Int) - 1075 + 1023 + 52).toNat = e.toNat := by omega
  have hfinite : ¬2048 ≤ e.toNat + 1 := by
    have hne : e.toNat ≠ 2047 := fun h => he (BitVec.eq_of_toNat_eq h)
    have hlt := e.isLt
    omega
  rw [UnpackedFloat.pack]
  change (if 2048 ≤ ((e.toNat : Int) - 1075 + 1023 + 52).toNat + 1 then _
    else if m.log2 + 1 = Format.binary64.mantissaBits then
      packComponents Format.binary64 s (.ofNat 11 ((e.toNat : Int) - 1075 + 1023 + 52).toNat)
        (.ofNat 52 m) else _) = _
  rw [hbiased, if_neg hfinite, if_pos hlog, BitVec.ofNat_toNat, BitVec.setWidth_eq]

/-- **A word is packed again as it was unpacked.** What is no number has one word only. -/
theorem pack_unpack_bits (hb : Format.binary64.Valid b) :
    UnpackedFloat.pack Format.binary64 (UnpackedFloat.unpack Format.binary64 b) = b := by
  have hlt := (@unpackMantissa Format.binary64 b).isLt
  rw [UnpackedFloat.unpack]
  dsimp only
  split
  · next hones =>
    split
    · next hm => exact packComponents_eq rfl hones hm
    · next hm => exact (hb.eq_packedNaN hones hm).symm
  · next hones =>
    split
    · next hzero =>
      split
      · next hm => exact packComponents_eq rfl hzero hm
      · next hm =>
        have hpos : 0 < (@unpackMantissa Format.binary64 b).toNat :=
          Nat.pos_of_ne_zero fun h => hm (BitVec.eq_of_toNat_eq h)
        have hpack := pack_subnormal (.ofBitVec (@unpackSign Format.binary64 b)) hpos hlt
        rw [BitVec.ofNat_toNat, BitVec.setWidth_eq, packComponents_eq rfl hzero rfl] at hpack
        rw [hzero]
        exact hpack
    · next hnonzero =>
      have happend := toNat_one_append (@unpackMantissa Format.binary64 b)
      rw [leastNormal] at happend
      have hfraction : BitVec.ofNat 52 (1#1 ++ @unpackMantissa Format.binary64 b).toNat =
          @unpackMantissa Format.binary64 b := by
        refine BitVec.eq_of_toNat_eq ?_
        rw [BitVec.toNat_ofNat, happend]
        change (2 ^ 52 + (@unpackMantissa Format.binary64 b).toNat) % 2 ^ 52 = _
        omega
      have hpack := pack_normal (.ofBitVec (@unpackSign Format.binary64 b))
        (m := (1#1 ++ @unpackMantissa Format.binary64 b).toNat) (by omega) (by omega) (by omega)
        hones
      rw [hfraction, packComponents_eq rfl rfl rfl] at hpack
      exact hpack

/-- What is unpacked of the components with the other sign. -/
theorem unpack_packComponents_neg (s : Sign) (e : BitVec 11) (m : BitVec 52) :
    UnpackedFloat.unpack Format.binary64 (packComponents Format.binary64 (-s) e m) =
      (UnpackedFloat.unpack Format.binary64 (packComponents Format.binary64 s e m)).neg := by
  rw [UnpackedFloat.unpack, UnpackedFloat.unpack]
  simp only [unpackExponent_packComponents, unpackMantissa_packComponents,
    unpackSign_packComponents, Sign.ofBitVec_toBitVec]
  split_ifs <;> rfl

end

/-- **A number is packed again as it was unpacked.** -/
theorem pack_unpack (x : Float) : Float.ofModel (.pack x.toModel.unpack) = x := by
  obtain ⟨⟨bits, hvalid⟩⟩ := x
  have hbits : UnpackedFloat.pack Format.binary64
      (UnpackedFloat.unpack Format.binary64 bits.toBitVec) = bits.toBitVec :=
    pack_unpack_bits hvalid
  refine congrArg Float.ofModel ?_
  simp only [Float.Model.pack, Float.Model.unpack, hbits]

/-- **Packing turns the sign with the number.** -/
theorem unpack_pack_neg (u : UnpackedFloat) :
    (Float.Model.pack u.neg).unpack = (Float.Model.pack u).unpack.neg := by
  change UnpackedFloat.unpack Format.binary64 (UnpackedFloat.pack Format.binary64 u.neg) =
    (UnpackedFloat.unpack Format.binary64 (UnpackedFloat.pack Format.binary64 u)).neg
  cases u with
  | notANumber => rfl
  | infinity s => exact unpack_packComponents_neg s _ _
  | zero s => exact unpack_packComponents_neg s _ _
  | finite s m e hm =>
    rw [UnpackedFloat.neg, UnpackedFloat.pack, UnpackedFloat.pack]
    dsimp only
    split_ifs <;> exact unpack_packComponents_neg s _ _

/-! ### Negation -/

variable (a b : Float)

/-- **A negated number is unpacked with the other sign.** -/
theorem unpack_neg : (-a).toModel.unpack = a.toModel.unpack.neg := by
  change (Float.Model.pack a.toModel.unpack.neg).unpack = _
  rw [unpack_pack_neg]
  exact congrArg (fun x : Float => x.toModel.unpack.neg) (pack_unpack a)

/-- What is packed is negated by turning its sign before. -/
theorem neg_pack (u : UnpackedFloat) :
    -(Float.ofModel (.pack u)) = Float.ofModel (.pack u.neg) := by
  change Float.ofModel (.pack (Float.Model.pack u).unpack.neg) = _
  rw [← unpack_pack_neg]
  exact pack_unpack (.ofModel (.pack u.neg))

theorem sign_neg_neg (s : Sign) : - -s = s := by
  cases s <;> rfl

theorem sign_neg_mul (s t : Sign) : -s * t = -(s * t) := by
  cases s <;> cases t <;> rfl

theorem sign_mul_neg (s t : Sign) : s * -t = -(s * t) := by
  cases s <;> cases t <;> rfl

theorem sign_neg_div (s t : Sign) : -s / t = -(s / t) := by
  cases s <;> cases t <;> rfl

theorem sign_div_neg (s t : Sign) : s / -t = -(s / t) := by
  cases s <;> cases t <;> rfl

/-- **Negating twice is nothing.** -/
theorem neg_neg_eq : - -a = a := by
  have hneg : a.toModel.unpack.neg.neg = a.toModel.unpack := by
    cases a.toModel.unpack <;> simp only [UnpackedFloat.neg, sign_neg_neg]
  change Float.ofModel (.pack (-a).toModel.unpack.neg) = a
  rw [unpack_neg, hneg, pack_unpack]

/-- A negated number is finite exactly if the number is. -/
theorem isFinite_neg : (-a).isFinite = a.isFinite := by
  change (-a).toModel.unpack.isFinite = a.toModel.unpack.isFinite
  rw [unpack_neg]
  cases a.toModel.unpack <;> rfl

/-- **The value of a negated number is negated.** -/
theorem value_neg (h : a.isFinite = true) : value (-a) = -value a := by
  have hneg : (-a).isFinite = true := (isFinite_neg a).trans h
  rcases unpack_cases h with ⟨s, hform, hvalue⟩ | ⟨s, m, e, hm, hform, hvalue, -⟩ <;>
    rcases unpack_cases hneg with ⟨s', hform', hvalue'⟩ | ⟨s', m', e', hm', hform', hvalue', -⟩ <;>
    rw [unpack_neg, hform] at hform' <;> cases hform'
  · rw [hvalue, hvalue', neg_zero]
  · rw [hvalue, hvalue']
    cases s <;> simp [Sign.apply]

/-- A number is zero exactly if the negated one is. -/
theorem neg_beq_zero : (-a == 0.0) = (a == 0.0) := by
  change ((-a).toModel.unpack.compare (Float.toModel 0.0).unpack == some .eq) =
    (a.toModel.unpack.compare (Float.toModel 0.0).unpack == some .eq)
  rw [unpack_neg, show (Float.toModel 0.0).unpack = .zero .positive by rfl]
  cases a.toModel.unpack with
  | notANumber => rfl
  | infinity s => cases s <;> rfl
  | zero s => rfl
  | finite s m e hm => cases s <;> rfl

/-! ### Products and quotients -/

/-- Rounding looks at the magnitude alone. -/
theorem roundWithAccuracy_neg (s : Sign) (m : Nat) (e : Int) (accuracy : Accuracy) :
    roundWithAccuracy Format.binary64 (-s) m e accuracy =
      (roundWithAccuracy Format.binary64 s m e accuracy).neg := by
  rw [roundWithAccuracy, roundWithAccuracy]
  dsimp only
  split <;> rfl

section

variable (op : UnpackedFloat → UnpackedFloat → UnpackedFloat) {f : Float → Float → Float}
  (hf : ∀ a b, f a b = .ofModel (.pack (op a.toModel.unpack b.toModel.unpack)))

include hf

/-- An operation that turns the sign with that of its first operand does so with packed numbers. -/
theorem apply_neg_left (hop : ∀ u v, op u.neg v = (op u v).neg) : f (-a) b = -f a b := by
  rw [hf, hf, unpack_neg, hop, neg_pack]

/-- An operation that turns the sign with that of its second operand does so with packed numbers. -/
theorem apply_neg_right (hop : ∀ u v, op u v.neg = (op u v).neg) : f a (-b) = -f a b := by
  rw [hf, hf, unpack_neg, hop, neg_pack]

end

/-- A negated first factor negates the product. -/
theorem neg_mul_eq : -a * b = -(a * b) := by
  refine apply_neg_left a b (UnpackedFloat.mul Format.binary64) (fun _ _ => rfl) ?_
  intro u v
  cases u <;> cases v <;>
    simp only [UnpackedFloat.neg, UnpackedFloat.mul, sign_neg_mul, roundWithAccuracy_neg]

/-- A negated second factor negates the product. -/
theorem mul_neg_eq : a * -b = -(a * b) := by
  refine apply_neg_right a b (UnpackedFloat.mul Format.binary64) (fun _ _ => rfl) ?_
  intro u v
  cases u <;> cases v <;>
    simp only [UnpackedFloat.neg, UnpackedFloat.mul, sign_mul_neg, roundWithAccuracy_neg]

/-- A negated dividend negates the quotient. -/
theorem neg_div_eq : -a / b = -(a / b) := by
  refine apply_neg_left a b (UnpackedFloat.div Format.binary64) (fun _ _ => rfl) ?_
  intro u v
  cases u <;> cases v <;>
    simp only [UnpackedFloat.neg, UnpackedFloat.div, sign_neg_div, roundWithAccuracy_neg]

/-- A negated divisor negates the quotient. -/
theorem div_neg_eq : a / -b = -(a / b) := by
  refine apply_neg_right a b (UnpackedFloat.div Format.binary64) (fun _ _ => rfl) ?_
  intro u v
  cases u <;> cases v <;>
    simp only [UnpackedFloat.neg, UnpackedFloat.div, sign_div_neg, roundWithAccuracy_neg]

end RunningTab.Decimal
