import RunningTab.Amount.Show
import RunningTab.Proofs.Decimal.Comparison
import RunningTab.Proofs.Decimal.Figures
import RunningTab.Proofs.Decimal.Rounding
import RunningTab.Proofs.Text.Cutting

/-!
# What is shown of a number

The text of an amount is a sign, the digits of the rounded value around the place of a point, and
commas. The digits are those of the exact binary value, rounded once
(`RunningTab.IsRoundedTo`); the sign is there for a negative number unless all digits are zeros
(`RunningTab.minus`). What comes after that only changes how the digits are set: grouping puts in
commas and nothing else (`RunningTab.Grouping.withoutCommas_apply`), and the policy `auto` takes
zeros off the end, and the point if no digit is left behind it
(`RunningTab.DecimalPlaces.trimZeros_eq`).

So the text without its commas is told completely by the number and the policy
(`RunningTab.withoutCommas_showAmount`).
-/

namespace RunningTab

open Decimal (IsNearestEven IsPlaced Magnitude fractionText ofDigits value)

/-! ### Commas -/

/-- A text without its commas. -/
def withoutCommas (t : Text) : Text :=
  t.filter (· != ',')

theorem withoutCommas_append (t u : Text) :
    withoutCommas (t ++ u) = withoutCommas t ++ withoutCommas u :=
  List.filter_append t u

/-- Figures are no commas. -/
theorem withoutCommas_of_isFigure {t : Text} (h : ∀ c ∈ t, Decimal.isFigure c = true) :
    withoutCommas t = t := by
  refine List.filter_eq_self.2 fun c hc => ?_
  rw [bne_iff_ne]
  rintro rfl
  exact absurd (h ',' hc) (by decide)

/-- Commas between texts can be removed again. -/
theorem withoutCommas_intercalate (ts : List Text) :
    withoutCommas (List.intercalate [','] ts) = withoutCommas ts.flatten := by
  induction ts with
  | nil => rfl
  | cons t ts ih =>
    cases ts with
    | nil => rw [List.intercalate_singleton, List.flatten_singleton]
    | cons u us =>
      have hcomma : withoutCommas [','] = [] := by decide
      rw [List.intercalate_cons_cons, withoutCommas_append, withoutCommas_append, ih, hcomma,
        List.append_nil, ← withoutCommas_append, ← List.flatten_cons]

namespace Grouping

theorem flatten_groupsOf (size : Nat) (t : Text) : (groupsOf size t).flatten = t := by
  induction t using groupsOf.induct size with
  | case1 t h => rw [groupsOf, dif_pos h, List.flatten_singleton]
  | case2 t h ih =>
    rw [groupsOf, dif_neg h, List.flatten_append, ih, List.flatten_singleton, List.take_append_drop]

/-- The groups of digits are the digits. -/
theorem flatten_groups (g : Grouping) (t : Text) : (g.groups t).flatten = t := by
  cases g with
  | indian =>
    rw [groups, groupsEnding]
    split_ifs
    · exact List.flatten_singleton
    · rw [List.flatten_append, flatten_groupsOf, List.flatten_singleton, List.take_append_drop]
  | international => exact flatten_groupsOf 2 t
  | none => exact List.flatten_singleton

/-- **Grouping puts in commas and nothing else.** -/
theorem withoutCommas_apply (g : Grouping) (t : Text) :
    withoutCommas (g.apply t) = withoutCommas t := by
  rw [apply, withoutCommas_intercalate, flatten_groups]

theorem apply_none (t : Text) : Grouping.none.apply t = t :=
  List.intercalate_singleton

end Grouping

/-! ### Zeros at the end -/

/-- Digits are those up to the last that is not zero, and zeros. -/
theorem exists_kept (t : Text) :
    ∃ kept zeros, t = kept ++ List.replicate zeros '0' ∧ kept.getLast? ≠ some '0' := by
  induction t using List.reverseRecOn with
  | nil => exact ⟨[], 0, rfl, by simp⟩
  | append_singleton t c ih =>
    by_cases hc : c = '0'
    · obtain ⟨kept, zeros, ht, hkept⟩ := ih
      refine ⟨kept, zeros + 1, ?_, hkept⟩
      rw [List.replicate_succ', ← List.append_assoc, ← ht, hc]
    · refine ⟨t ++ [c], 0, (List.append_nil _).symm, ?_⟩
      rw [List.getLast?_concat]
      exact fun h => hc (Option.some.inj h)

/-- **The policy `auto` takes zeros off the end, and then a bare point.** -/
theorem DecimalPlaces.trimZeros_eq {whole kept : Text} (h : IsPlaced whole kept)
    (hkept : kept.getLast? ≠ some '0') (zeros : Nat) :
    trimZeros (whole ++ '.' :: (kept ++ List.replicate zeros '0')) =
      whole ++ fractionText kept := by
  have hzeros : ∀ c ∈ List.replicate zeros '0', (c == '0') = true := by
    intro c hc
    rw [List.eq_of_mem_replicate hc]
    rfl
  have hdigit (c : Char) (hc : Text.isDigit c = true) : (c == '.') = false := by
    rw [beq_eq_false_iff_ne]
    rintro rfl
    exact absurd hc (by decide)
  rw [trimZeros]
  rcases kept.eq_nil_or_concat' with rfl | ⟨front, last, rfl⟩
  · -- the point is left behind the whole number, whose zeros are not at the end
    rcases whole.eq_nil_or_concat' with rfl | ⟨front, last, rfl⟩
    · exact absurd rfl h.whole_ne_nil
    · have hlast := hdigit last (h.isDigit_whole last (by simp))
      rw [List.nil_append, Text.trimEndBy_append_cons (· == '0') _ (by decide) hzeros,
        List.append_assoc, List.singleton_append,
        Text.trimEndBy_append_cons (· == '.') front hlast (by simp), fractionText, if_pos rfl,
        List.append_nil]
  · -- the last digit that is kept stops both
    have hne : (last == '0') = false := by
      rw [beq_eq_false_iff_ne]
      rintro rfl
      exact hkept List.getLast?_concat
    have hlast := hdigit last (h.isDigit_fraction last (by simp))
    have htext (u : Text) : whole ++ '.' :: (front ++ [last] ++ u) =
        (whole ++ '.' :: front) ++ last :: u := by simp
    have hkeep : Text.trimEndBy (· == '.') (whole ++ '.' :: front ++ [last]) =
        whole ++ '.' :: front ++ [last] :=
      Text.trimEndBy_append_cons (· == '.') _ hlast (by simp)
    rw [htext, Text.trimEndBy_append_cons (· == '0') _ hne hzeros, hkeep, ← htext, fractionText,
      if_neg (by simp), List.append_nil]

/-! ### The digits and the sign -/

/-- The number itself, or zero if it is not finite. -/
def finitePart (x : Float) : Float :=
  if x.isFinite then x else 0.0

theorem isFinite_finitePart (x : Float) : (finitePart x).isFinite = true := by
  rw [finitePart]
  split_ifs with h
  · exact h
  · decide

/-- **The digits of a number rounded to a number of places**, from the middle between two to the
even one. -/
structure IsRoundedTo (x : Float) (places : ℕ) (whole fraction : Text) : Prop
    extends IsPlaced whole fraction where
  length_fraction : fraction.length = places
  nearest : IsNearestEven (|value (finitePart x)| * 10 ^ places) (ofDigits (whole ++ fraction))

/-- **The sign in front of digits**: a minus for a negative number, but not if all digits are
zeros. -/
def minus (x : Float) (shown : Text) : Text :=
  if x < 0.0 ∧ ∃ c ∈ shown, c ≠ '0' then ['-'] else []

variable {x : Float} {places : ℕ} {whole fraction : Text}

/-- **The exact value is rounded once**, and the digits say what it is rounded to. -/
theorem exists_isRoundedTo (x : Float) (places : ℕ) :
    ∃ whole fraction, IsRoundedTo x places whole fraction ∧
      (Magnitude.ofFloat (finitePart x)).fixedText places = whole ++ fractionText fraction := by
  obtain ⟨whole, fraction, hplaced, hlength, hdigits, htext⟩ :=
    Decimal.exists_placed ((Magnitude.ofFloat (finitePart x)).inUnits places) places
  refine ⟨whole, fraction, ⟨hplaced, hlength, ?_⟩, htext⟩
  rw [hdigits]
  exact Decimal.isNearestEven_inUnits (finitePart x) places

/-- What is not finite has no digits but zeros. -/
theorem IsRoundedTo.eq_zero_of_mem (h : IsRoundedTo x places whole fraction)
    (hx : x.isFinite = false) : ∀ c ∈ whole ++ fraction, c = '0' := by
  have hzero : value (finitePart x) = 0 := by
    have hsignificand : (Magnitude.ofFloat 0.0).significand = 0 := by decide
    rw [finitePart, hx, if_neg Bool.false_ne_true, value, hsignificand]
    simp
  have hnearest := h.nearest
  rw [hzero, abs_zero, zero_mul] at hnearest
  exact (Decimal.ofDigits_eq_zero_iff h.isDigit_of_mem).1 (hnearest.eq Decimal.isNearestEven_zero)

/-- Whether all digits are zeros can be seen with the point among them. -/
theorem Decimal.IsPlaced.all_zero_iff (h : IsPlaced whole fraction) :
    ((whole ++ fractionText fraction).all fun c => c == '0' || c == '.') = true ↔
      ∀ c ∈ whole ++ fraction, c = '0' := by
  simp only [List.all_eq_true, Bool.or_eq_true, beq_iff_eq]
  constructor
  · intro hall c hc
    have hmem : c ∈ whole ++ fractionText fraction := by
      rcases List.mem_append.1 hc with hc | hc
      · exact List.mem_append_left _ hc
      · exact List.mem_append_right _ (Decimal.mem_fractionText.2 (Or.inr hc))
    refine (hall c hmem).resolve_right ?_
    rintro rfl
    exact Decimal.dot_not_mem h.isDigit_of_mem hc
  · intro hzero c hc
    rcases List.mem_append.1 hc with hc | hc
    · exact Or.inl (hzero c (List.mem_append_left _ hc))
    · rcases Decimal.mem_fractionText.1 hc with ⟨-, rfl⟩ | hc
      · exact Or.inr rfl
      · exact Or.inl (hzero c (List.mem_append_right _ hc))

/-- **The text of an amount**: the sign, the groups before the point and the digits behind it. -/
theorem showAmount_eq (policy : DecimalPlaces) (h : IsPlaced whole fraction)
    (hzero : x.isFinite = false → ∀ c ∈ whole ++ fraction, c = '0')
    (htext : policy.magnitudeText (Magnitude.ofFloat (finitePart x)) =
      whole ++ fractionText fraction) (g : Grouping) :
    showAmount policy g x =
      minus x (whole ++ fraction) ++ (g.apply whole ++ fractionText fraction) := by
  have hsign : (finitePart x < 0.0 && !(whole ++ fractionText fraction).all
      fun c => c == '0' || c == '.') = true ↔ x < 0.0 ∧ ∃ c ∈ whole ++ fraction, c ≠ '0' := by
    rw [Bool.and_eq_true, decide_eq_true_eq, Bool.not_eq_true', ← Bool.not_eq_true, h.all_zero_iff]
    simp only [not_forall, exists_prop]
    -- what is not finite may compare as negative, but its digits are all zeros
    cases hx : x.isFinite with
    | true => rw [finitePart, hx, if_pos rfl]
    | false =>
      refine iff_of_false ?_ ?_ <;> rintro ⟨-, c, hc, hne⟩ <;> exact hne (hzero hx c hc)
  change (if (finitePart x < 0.0 && !(policy.magnitudeText (Magnitude.ofFloat (finitePart x))).all
      fun c => c == '0' || c == '.') then ['-'] else []) ++
    groupWhole g (policy.magnitudeText (Magnitude.ofFloat (finitePart x))) = _
  rw [htext, groupWhole, h.takeWhile_ne_dot.1, h.takeWhile_ne_dot.2, minus]
  simp only [hsign]

/-- Commas aside, the text is the sign and the digits. -/
theorem withoutCommas_showAmount (policy : DecimalPlaces) (h : IsPlaced whole fraction)
    (hzero : x.isFinite = false → ∀ c ∈ whole ++ fraction, c = '0')
    (htext : policy.magnitudeText (Magnitude.ofFloat (finitePart x)) =
      whole ++ fractionText fraction) (g : Grouping) :
    withoutCommas (showAmount policy g x) =
      minus x (whole ++ fraction) ++ (whole ++ fractionText fraction) := by
  have hsign : withoutCommas (minus x (whole ++ fraction)) = minus x (whole ++ fraction) := by
    rw [minus]
    split_ifs <;> rfl
  rw [showAmount_eq policy h hzero htext, withoutCommas_append, withoutCommas_append,
    g.withoutCommas_apply, ← withoutCommas_append, hsign,
    withoutCommas_of_isFigure h.isFigure_of_mem]

/-- Zeros more or less do not change the sign. -/
theorem minus_append_zeros (x : Float) (shown : Text) (zeros : Nat) :
    minus x (shown ++ List.replicate zeros '0') = minus x shown := by
  have hdigit : (∃ c ∈ shown ++ List.replicate zeros '0', c ≠ '0') ↔ ∃ c ∈ shown, c ≠ '0' := by
    constructor
    · rintro ⟨c, hc, hne⟩
      rcases List.mem_append.1 hc with hc | hc
      · exact ⟨c, hc, hne⟩
      · exact absurd (List.eq_of_mem_replicate hc) hne
    · rintro ⟨c, hc, hne⟩
      exact ⟨c, List.mem_append_left _ hc, hne⟩
  simp only [minus, hdigit]

/-- The digits that the policy `auto` keeps of those at ten places. -/
theorem exists_isRoundedTo_kept (x : Float) :
    ∃ whole kept zeros, IsRoundedTo x 10 whole (kept ++ List.replicate zeros '0') ∧
      IsPlaced whole kept ∧ kept.getLast? ≠ some '0' ∧
      (Magnitude.ofFloat (finitePart x)).fixedText 10 =
        whole ++ fractionText (kept ++ List.replicate zeros '0') ∧
      DecimalPlaces.auto.magnitudeText (Magnitude.ofFloat (finitePart x)) =
        whole ++ fractionText kept := by
  obtain ⟨whole, fraction, h, htext⟩ := exists_isRoundedTo x 10
  obtain ⟨kept, zeros, rfl, hkept⟩ := exists_kept fraction
  have hplaced : IsPlaced whole kept :=
    ⟨h.whole_ne_nil, h.isDigit_whole, h.no_zero_ahead,
      fun c hc => h.isDigit_fraction c (List.mem_append_left _ hc)⟩
  have hne : kept ++ List.replicate zeros '0' ≠ [] :=
    List.ne_nil_of_length_pos (h.length_fraction ▸ Nat.succ_pos 9)
  refine ⟨whole, kept, zeros, h, hplaced, hkept, htext, ?_⟩
  rw [← DecimalPlaces.trimZeros_eq hplaced hkept zeros]
  rw [fractionText, if_neg hne] at htext
  exact congrArg DecimalPlaces.trimZeros htext

/-- **Displayed numbers are the correctly rounded value.** With a fixed number of places the text
without its commas is the sign and the exact value rounded once, with a point and just so many
digits behind it if there are any. The policy `auto` shows the text at ten places without the zeros
at its end, and without the point if only zeros are behind it. What is not finite is shown as
zero. -/
theorem showAmount_correctly_rounded (x : Float) (g : Grouping) :
    (∀ places, ∃ whole fraction, IsRoundedTo x places whole fraction ∧
      withoutCommas (showAmount (.fixed places) g x) =
        minus x (whole ++ fraction) ++ (whole ++ fractionText fraction)) ∧
    (∃ whole kept zeros, IsRoundedTo x 10 whole (kept ++ List.replicate zeros '0') ∧
      kept.getLast? ≠ some '0' ∧
      withoutCommas (showAmount (.fixed 10) g x) = minus x (whole ++ kept) ++
        (whole ++ fractionText (kept ++ List.replicate zeros '0')) ∧
      withoutCommas (showAmount .auto g x) = minus x (whole ++ kept) ++
        (whole ++ fractionText kept)) ∧
    ∀ policy, showAmount policy g x = showAmount policy g (finitePart x) := by
  refine ⟨fun places => ?_, ?_, fun policy => ?_⟩
  · obtain ⟨whole, fraction, h, htext⟩ := exists_isRoundedTo x places
    exact ⟨whole, fraction, h, withoutCommas_showAmount (.fixed places) h.toIsPlaced
      h.eq_zero_of_mem htext g⟩
  · obtain ⟨whole, kept, zeros, h, hplaced, hkept, hfixed, hauto⟩ := exists_isRoundedTo_kept x
    refine ⟨whole, kept, zeros, h, hkept, ?_, ?_⟩
    · rw [← minus_append_zeros x (whole ++ kept) zeros, List.append_assoc]
      exact withoutCommas_showAmount (.fixed 10) h.toIsPlaced h.eq_zero_of_mem hfixed g
    · refine withoutCommas_showAmount .auto hplaced (fun hx c hc => ?_) hauto g
      refine h.eq_zero_of_mem hx c ?_
      rw [← List.append_assoc]
      exact List.mem_append_left _ hc
  · rw [showAmount, showAmount, if_pos (isFinite_finitePart x)]
    rfl

/-- A tie goes to the even digit, and no sign stands before zeros. -/
example : showAmount (.fixed 2) .indian (-1234567.125) = "-12,34,567.12".toList ∧
    showAmount (.fixed 2) .indian (-0.001) = "0.00".toList := by
  decide +kernel

end RunningTab
