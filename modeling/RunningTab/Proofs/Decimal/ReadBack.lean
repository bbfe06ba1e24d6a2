import RunningTab.Proofs.Decimal.Figures
import RunningTab.Proofs.Decimal.Negation

/-!
# Numbers read back

The text of a number is read as that number (`RunningTab.Decimal.readRate?_shortText`). This is so
of all of them: the shortest decimal of a finite magnitude lies where it is read back, the sign is
put in front and taken off again, zero has two signs, and the words for what is not finite are among
those a rate may be. What is no number has one form only, so it comes back as well.
-/

namespace RunningTab.Decimal

open Float.Model

variable {x : Float}

/-! ### Signs -/

/-- What is not finite is infinite with one of two signs, or the quotient of two zeros: what is no
number has one form only. -/
theorem eq_infinity_or_quotient (h : x.isFinite = false) :
    x = infinity ∨ x = -infinity ∨ x = 0.0 / 0.0 := by
  change x.toModel.unpack.isFinite = false at h
  have hpacked := pack_unpack x
  cases hform : x.toModel.unpack with
  | notANumber => exact Or.inr (Or.inr (by rw [← hpacked, hform]; rfl))
  | infinity s =>
    rw [← hpacked, hform]
    cases s with
    | positive => exact Or.inl rfl
    | negative => exact Or.inr (Or.inl rfl)
  | zero s => simp [hform, UnpackedFloat.isFinite] at h
  | finite s m e hm => simp [hform, UnpackedFloat.isFinite] at h

/-- A finite number with a sign is the negative zero, or it is negative, and the negated one has the
same magnitude and no sign. -/
theorem eq_negative_zero_or_neg (hfinite : x.isFinite = true) (hsign : isNegative x = true) :
    x = -0.0 ∨ value x < 0 ∧ isNegative (-x) = false ∧
      Magnitude.ofFloat (-x) = Magnitude.ofFloat x := by
  have hpacked := pack_unpack x
  rcases unpack_of_isFinite hfinite with ⟨s, hzero, -⟩ | ⟨hm, hform⟩
  · -- a zero is told by its sign alone
    left
    rw [← hpacked, hzero] at hsign ⊢
    cases s with
    | positive => exact absurd hsign (by decide)
    | negative => rfl
  · right
    have hneg := unpack_neg x
    rw [hform] at hneg
    rcases unpack_of_isFinite ((isFinite_neg x).trans hfinite) with ⟨s, hzero, -⟩ | ⟨hm', hform'⟩
    · rw [hzero] at hneg
      cases hneg
    · rw [hform', if_pos hsign] at hneg
      obtain ⟨hs, hsignificand, hexponent⟩ := UnpackedFloat.finite.inj hneg
      have hvalue : value x < 0 := by
        have hpos : (0 : ℚ) < (Magnitude.ofFloat x).significand := by exact_mod_cast hm
        rw [value, if_pos hsign, neg_one_mul, neg_mul, neg_lt_zero]
        positivity
      refine ⟨hvalue, ?_, congrArg₂ Magnitude.mk hsignificand hexponent⟩
      cases hsign' : isNegative (-x) with
      | false => rfl
      | true =>
        rw [if_pos hsign'] at hs
        cases hs

/-! ### Texts -/

theorem shortText_of_isFinite (hfinite : x.isFinite = true) :
    shortText x = (if isNegative x then ['-'] else []) ++ (Magnitude.ofFloat x).text := by
  obtain ⟨hinf, hnan⟩ := isInf_and_isNaN_of_isFinite hfinite
  rw [shortText, hnan, hinf]
  rfl

/-- **The characters of a number's text**: figures, a sign, and the letters of two words. -/
theorem mem_shortText {c : Char} (h : c ∈ shortText x) :
    isFigure c = true ∨ c ∈ "-NaNinf".toList := by
  rw [shortText] at h
  split at h
  · exact Or.inr ((by decide : "NaN".toList ⊆ "-NaNinf".toList) h)
  · rcases List.mem_append.1 h with hsign | hmagnitude
    · split at hsign
      · exact Or.inr ((by decide : ['-'] ⊆ "-NaNinf".toList) hsign)
      · cases hsign
    · split at hmagnitude
      · exact Or.inr ((by decide : "inf".toList ⊆ "-NaNinf".toList) hmagnitude)
      · obtain ⟨whole, fraction, hplaced, htext, -⟩ := (Magnitude.ofFloat x).exists_placed_text
        rw [htext] at hmagnitude
        exact Or.inl (hplaced.isFigure_of_mem c hmagnitude)

/-- The text of a magnitude is read as the number without a sign. -/
theorem readUnsigned?_text (hfinite : x.isFinite = true) (hsign : isNegative x = false) :
    asciiLower (Magnitude.ofFloat x).text ≠ "nan".toList ∧
      splitSign (Magnitude.ofFloat x).text = (false, (Magnitude.ofFloat x).text) ∧
      readUnsigned? (Magnitude.ofFloat x).text = some x := by
  obtain ⟨whole, fraction, hplaced, htext, hencloses⟩ := (Magnitude.ofFloat x).exists_placed_text
  rw [htext]
  refine ⟨hplaced.asciiLower_ne.1, splitSign_of_isFigure hplaced.isFigure_of_mem, ?_⟩
  rw [hplaced.readUnsigned?_eq, nearestScaled_of_encloses hfinite hsign hencloses]

/-- **Every number is read back from its text.** -/
theorem readRate?_shortText (x : Float) : readRate? (shortText x) = some x := by
  cases hfinite : x.isFinite with
  | false =>
    rcases eq_infinity_or_quotient hfinite with rfl | rfl | rfl <;> rfl
  | true =>
    rw [shortText_of_isFinite hfinite]
    cases hsign : isNegative x with
    | false =>
      obtain ⟨hword, hsplit, hread⟩ := readUnsigned?_text hfinite hsign
      rw [if_neg Bool.false_ne_true, List.nil_append, readRate?, hsplit]
      dsimp only
      rw [if_neg hword, hread]
      rfl
    | true =>
      rcases eq_negative_zero_or_neg hfinite hsign with rfl | ⟨-, hneg, hmagnitude⟩
      · rfl
      · -- behind the sign stands the text of the negated number
        obtain ⟨hword, -, hread⟩ := readUnsigned?_text ((isFinite_neg x).trans hfinite) hneg
        rw [hmagnitude] at hword hread
        change readRate? ('-' :: (Magnitude.ofFloat x).text) = some x
        rw [readRate?, splitSign]
        dsimp only
        rw [if_neg hword, hread, Option.map_some, if_pos rfl, neg_neg_eq]

end RunningTab.Decimal
