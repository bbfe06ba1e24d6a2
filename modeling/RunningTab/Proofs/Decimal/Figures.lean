import RunningTab.Decimal.Numeral
import RunningTab.Proofs.Decimal.Shortest

/-!
# Digits written and read

Whole numbers are read back from the digits that are written for them
(`RunningTab.Decimal.ofDigits_digits`), and the digits do not begin with a zero unless there is only
one of them. A point among the digits divides what they denote by a power of ten, wherever it
stands, so a shortest decimal keeps its number through the zeros that its positional text adds.
-/

namespace RunningTab

/-- A run of characters that pass a test ends where the first one fails it. -/
theorem Text.takeWhile_dropWhile_append {p : Char → Bool} {run rest : Text}
    (hrun : ∀ c ∈ run, p c = true) (hrest : ∀ c ∈ rest.head?, p c = false) :
    (run ++ rest).takeWhile p = run ∧ (run ++ rest).dropWhile p = rest := by
  rw [List.takeWhile_append_of_pos hrun, List.dropWhile_append_of_pos hrun]
  cases rest with
  | nil => simp
  | cons c rest => simp [hrest c rfl]

namespace Decimal

/-! ### Whole numbers -/

theorem isDigit_eq (c : Char) : Text.isDigit c = c.isDigit := by
  simp [Text.isDigit, Char.isDigit, Char.le_def]

/-- The digits are neighbours in ASCII. -/
theorem toNat_of_isDigit {c : Char} (h : Text.isDigit c = true) : 48 ≤ c.toNat ∧ c.toNat ≤ 57 := by
  simp only [Text.isDigit, Bool.and_eq_true, decide_eq_true_eq, Char.le_def,
    UInt32.le_iff_toNat_le] at h
  exact h

theorem isDigit_of_mem_digits {n : Nat} {c : Char} (h : c ∈ digits n) : Text.isDigit c = true := by
  rw [isDigit_eq]
  exact Nat.isDigit_of_mem_toDigits (by decide) (by decide) h

theorem digits_ne_nil (n : Nat) : digits n ≠ [] :=
  Nat.toDigits_ne_nil

theorem ofDigits_eq_ofDigitChars (t : Text) : ofDigits t = Nat.ofDigitChars 10 t 0 := by
  rw [Nat.ofDigitChars_eq_foldl]
  rfl

/-- **The digits of a number denote it.** -/
theorem ofDigits_digits (n : Nat) : ofDigits (digits n) = n := by
  rw [ofDigits_eq_ofDigitChars]
  exact Nat.ofDigitChars_ten_toDigits

/-- **A number that can be held is read back from its digits**, and a larger one is refused. -/
theorem readWhole?_digits (largest n : Nat) :
    readWhole? largest (digits n) = if n ≤ largest then some n else none := by
  have hdigit : ∀ c ∈ digits n, Text.isDigit c = true := fun c hc => isDigit_of_mem_digits hc
  have hsign : (digits n).head? ≠ some '+' := fun hhead =>
    absurd (hdigit '+' (List.mem_of_mem_head? hhead)) (by decide)
  rw [readWhole?, if_neg hsign, ofDigits_digits]
  simp only [ne_eq, digits_ne_nil, not_false_eq_true, List.all_eq_true.2 hdigit, true_and]

theorem ofDigits_append (t u : Text) :
    ofDigits (t ++ u) = 10 ^ u.length * ofDigits t + ofDigits u := by
  simp only [ofDigits_eq_ofDigitChars, Nat.ofDigitChars_append]
  exact Nat.ofDigitChars_eq_ofDigitChars_zero

theorem ofDigits_replicate_zero (count : Nat) : ofDigits (List.replicate count '0') = 0 := by
  rw [ofDigits_eq_ofDigitChars, Nat.ofDigitChars_replicate_zero, Nat.mul_zero]

/-- Digits denote zero if they are all zero, and only then. -/
theorem ofDigits_eq_zero_iff {t : Text} (h : ∀ c ∈ t, Text.isDigit c = true) :
    ofDigits t = 0 ↔ ∀ c ∈ t, c = '0' := by
  induction t with
  | nil => exact iff_of_true rfl (by simp)
  | cons c t ih =>
    obtain ⟨hc, ht⟩ := List.forall_mem_cons.1 h
    have hdigit : ofDigits [c] = 0 ↔ c = '0' := by
      constructor
      · intro hzero
        have hle : '0'.toNat ≤ c.toNat := by
          rw [Text.isDigit, Bool.and_eq_true, decide_eq_true_eq] at hc
          exact hc.1
        change 10 * 0 + (c.toNat - '0'.toNat) = 0 at hzero
        exact Char.toNat_inj.1 (by omega)
      · rintro rfl
        rfl
    have hpow : 10 ^ t.length * ofDigits [c] = 0 ↔ ofDigits [c] = 0 := by
      rw [Nat.mul_eq_zero, or_iff_right (by positivity)]
    rw [← List.singleton_append, ofDigits_append, Nat.add_eq_zero_iff, hpow, hdigit, ih ht,
      List.singleton_append, List.forall_mem_cons]

/-- The digits of a positive number do not begin with a zero. -/
theorem head?_digits_ne {n : Nat} (hn : 0 < n) : (digits n).head? ≠ some '0' := by
  induction n using Nat.strongRecOn with
  | ind n ih =>
    rw [digits, Nat.toDigits_eq_if (by decide)]
    split_ifs with hlt
    · interval_cases n <;> decide
    · rw [List.head?_append_of_ne_nil _ Nat.toDigits_ne_nil]
      exact ih (n / 10) (by omega) (by omega)

/-! ### Digits with a point -/

/-- **Digits with a point between them**: before it a whole number without superfluous zeros, behind
it at least one digit. -/
structure IsPointed (whole fraction : Text) : Prop where
  whole_ne_nil : whole ≠ []
  isDigit_whole : ∀ c ∈ whole, Text.isDigit c = true
  no_zero_ahead : whole.length = 1 ∨ whole.head? ≠ some '0'
  fraction_ne_nil : fraction ≠ []
  isDigit_fraction : ∀ c ∈ fraction, Text.isDigit c = true

/-- The rational number that digits with a point denote. -/
def pointedValue (whole fraction : Text) : ℚ :=
  ofDigits (whole ++ fraction) * 10 ^ (-fraction.length : ℤ)

/-- Zeros at the end do not change what digits denote. -/
theorem pointedValue_append_zeros (whole kept : Text) (zeros : ℕ) :
    pointedValue whole (kept ++ List.replicate zeros '0') = pointedValue whole kept := by
  rw [pointedValue, pointedValue, ← List.append_assoc, ofDigits_append,
    ofDigits_replicate_zero, List.length_append, List.length_replicate]
  push_cast
  rw [neg_add, zpow_add₀ (by norm_num), zpow_neg _ (zeros : ℤ), zpow_natCast]
  field_simp
  ring

/-- Zeros put in front of digits are digits, and do not change what they denote. -/
theorem isDigit_of_mem_padded {count : Nat} {t : Text} (h : ∀ c ∈ t, Text.isDigit c = true) :
    ∀ c ∈ padded count t, Text.isDigit c = true := by
  intro c hc
  rcases List.mem_append.1 hc with hzero | hc
  · rw [List.eq_of_mem_replicate hzero]
    decide
  · exact h c hc

theorem ofDigits_padded (count : Nat) (t : Text) : ofDigits (padded count t) = ofDigits t := by
  rw [padded, ofDigits_append, ofDigits_replicate_zero, Nat.mul_zero, Nat.zero_add]

theorem length_padded (count : Nat) (t : Text) : (padded count t).length = max count t.length := by
  rw [padded, List.length_append, List.length_replicate]
  omega

/-- The digits behind a point with the point before them, and nothing if there are none. -/
def fractionText (fraction : Text) : Text :=
  if fraction = [] then [] else '.' :: fraction

/-- **Digits around the place of a point**: before it a whole number without superfluous zeros,
behind it any digits, or none and no point. -/
structure IsPlaced (whole fraction : Text) : Prop where
  whole_ne_nil : whole ≠ []
  isDigit_whole : ∀ c ∈ whole, Text.isDigit c = true
  no_zero_ahead : whole.length = 1 ∨ whole.head? ≠ some '0'
  isDigit_fraction : ∀ c ∈ fraction, Text.isDigit c = true

theorem mem_fractionText {fraction : Text} {c : Char} :
    c ∈ fractionText fraction ↔ fraction ≠ [] ∧ c = '.' ∨ c ∈ fraction := by
  rw [fractionText]
  split_ifs with h
  · simp [h]
  · simp [h]

/-- **Every whole number is written with any number of places.** -/
theorem exists_placed (n places : Nat) :
    ∃ whole fraction, IsPlaced whole fraction ∧ fraction.length = places ∧
      ofDigits (whole ++ fraction) = n ∧ pointed n places = whole ++ fractionText fraction := by
  obtain ⟨t, ht⟩ : ∃ t, t = padded (places + 1) (digits n) := ⟨_, rfl⟩
  have hlength : t.length = max (places + 1) (digits n).length := by rw [ht, length_padded]
  have hdigit : ∀ c ∈ t, Text.isDigit c = true := by
    rw [ht]
    exact isDigit_of_mem_padded fun c hc => isDigit_of_mem_digits hc
  have hfraction : (t.drop (t.length - places)).length = places := by
    rw [List.length_drop]
    omega
  refine ⟨t.take (t.length - places), t.drop (t.length - places), ⟨?_, ?_, ?_, ?_⟩, hfraction,
    ?_, ?_⟩
  · rw [← List.length_pos_iff, List.length_take]
    omega
  · exact fun c hc => hdigit c (List.mem_of_mem_take hc)
  · -- either zeros were put in front, and there is one digit before the point, or none were
    rcases Nat.lt_or_ge (digits n).length (places + 1) with hlt | hge
    · left
      rw [List.length_take]
      omega
    · rcases Nat.eq_zero_or_pos n with rfl | hn
      · left
        have hzero : (digits 0).length = 1 := rfl
        rw [List.length_take]
        omega
      · right
        rw [List.head?_take, if_neg (by omega), ht, padded, Nat.sub_eq_zero_of_le hge]
        exact head?_digits_ne hn
  · exact fun c hc => hdigit c (List.mem_of_mem_drop hc)
  · rw [List.take_append_drop, ht, ofDigits_padded, ofDigits_digits]
  · have hnone : t.drop (t.length - places) = [] ↔ places = 0 := by
      rw [← List.length_eq_zero_iff, hfraction]
    simp only [pointed, fractionText, hnone, ← ht]
    split_ifs with hplaces
    · rw [hplaces, Nat.sub_zero, List.take_length, List.append_nil]
    · rfl

/-- The positional text of a whole number has no point. -/
theorem placed_whole {n : Nat} (zeros : Nat) (hn : 0 < n) :
    IsPlaced (digits n ++ List.replicate zeros '0') [] ∧
      pointedValue (digits n ++ List.replicate zeros '0') [] = n * 10 ^ (zeros : ℤ) := by
  refine ⟨⟨?_, ?_, ?_, nofun⟩, ?_⟩
  · exact List.append_ne_nil_of_left_ne_nil (digits_ne_nil n) _
  · intro c hc
    rcases List.mem_append.1 hc with hc | hzero
    · exact isDigit_of_mem_digits hc
    · rw [List.eq_of_mem_replicate hzero]
      decide
  · right
    rw [List.head?_append_of_ne_nil _ (digits_ne_nil n)]
    exact head?_digits_ne hn
  · rw [pointedValue, List.append_nil, ofDigits_append, ofDigits_digits, ofDigits_replicate_zero,
      List.length_replicate]
    simp [mul_comm]

/-- **Every positional text is digits around the place of a point.** -/
theorem exists_placed_positional {n : Nat} (hn : 0 < n) (g : Int) :
    ∃ whole fraction, IsPlaced whole fraction ∧ positional n g = whole ++ fractionText fraction ∧
      pointedValue whole fraction = n * 10 ^ g := by
  rw [positional]
  rcases lt_or_ge g 0 with hg | hg
  · rw [if_neg (not_le.2 hg)]
    obtain ⟨whole, fraction, hplaced, hlength, hdigits, htext⟩ := exists_placed n (-g).toNat
    refine ⟨whole, fraction, hplaced, htext, ?_⟩
    rw [pointedValue, hdigits, hlength, Int.toNat_of_nonneg (by omega), Int.neg_neg]
  · rw [if_pos hg]
    obtain ⟨hplaced, hvalue⟩ := placed_whole g.toNat hn
    refine ⟨_, [], hplaced, (List.append_nil _).symm, ?_⟩
    rw [hvalue, Int.toNat_of_nonneg hg]

/-- **The text of a magnitude is digits around the place of a point**, and what they denote is in
the interval of the magnitude. -/
theorem Magnitude.exists_placed_text (v : Magnitude) :
    ∃ whole fraction, IsPlaced whole fraction ∧ v.text = whole ++ fractionText fraction ∧
      v.Encloses (pointedValue whole fraction) := by
  rw [text]
  by_cases hzero : v.significand = 0
  · refine ⟨['0'], [], ⟨nofun, List.forall_mem_singleton.2 rfl, Or.inl rfl, nofun⟩,
      if_pos hzero, ?_⟩
    have hself := v.encloses_self
    rw [hzero, Nat.cast_zero, zero_mul] at hself
    rwa [pointedValue, show ofDigits (['0'] ++ []) = 0 from rfl, Nat.cast_zero, zero_mul]
  · rw [if_neg hzero]
    have hencloses := v.encloses_search (v.coarsestGrid - v.exactGrid).toNat
    have hpos : 0 < v.shortest.1 := by
      have hvalue := hencloses.pos hzero
      refine Nat.pos_of_ne_zero fun hnone => ?_
      rw [shortest] at hnone
      rw [hnone, Nat.cast_zero, zero_mul] at hvalue
      exact lt_irrefl 0 hvalue
    obtain ⟨whole, fraction, hplaced, htext, hvalue⟩ :=
      exists_placed_positional hpos v.shortest.2
    refine ⟨whole, fraction, hplaced, htext, ?_⟩
    rw [hvalue]
    exact hencloses

/-! ### Reading figures -/

/-- A figure has no capital form. -/
theorem toLower_of_isFigure {c : Char} (h : isFigure c = true) : c.toLower = c := by
  rw [isFigure, Text.isDigit, Bool.or_eq_true, Bool.and_eq_true, decide_eq_true_eq,
    decide_eq_true_eq, beq_iff_eq] at h
  rcases h with h | rfl
  · refine dif_neg fun hupper => ?_
    have h9 : c.val ≤ 57 := h.2
    have hA : 65 ≤ c.val := hupper.1
    grind
  · rfl

section

variable {t : Text}

/-- Figures spell no word. -/
theorem asciiLower_ne_of_isFigure {w : Text} (h : ∀ c ∈ t, isFigure c = true)
    (hw : ∃ c ∈ w, isFigure c = false) : asciiLower t ≠ w := by
  rintro rfl
  obtain ⟨c, hc, hfigure⟩ := hw
  obtain ⟨d, hd, rfl⟩ := List.mem_map.1 hc
  rw [toLower_of_isFigure (h d hd), h d hd] at hfigure
  cases hfigure

/-- Figures have no sign. -/
theorem splitSign_of_isFigure (h : ∀ c ∈ t, isFigure c = true) : splitSign t = (false, t) := by
  rw [splitSign.eq_def]
  split
  · exact absurd (h '-' List.mem_cons_self) (by decide)
  · exact absurd (h '+' List.mem_cons_self) (by decide)
  · rfl

end

theorem dot_not_mem {t : Text} (h : ∀ c ∈ t, Text.isDigit c = true) : '.' ∉ t :=
  fun hdot => absurd (h '.' hdot) (by decide)

section

variable {whole fraction : Text}

namespace IsPlaced

variable (h : IsPlaced whole fraction)

include h

theorem isDigit_of_mem : ∀ c ∈ whole ++ fraction, Text.isDigit c = true :=
  List.forall_mem_append.2 ⟨h.isDigit_whole, h.isDigit_fraction⟩

theorem isFigure_of_mem : ∀ c ∈ whole ++ fractionText fraction, isFigure c = true := by
  intro c hc
  rw [isFigure, Bool.or_eq_true, beq_iff_eq]
  rcases List.mem_append.1 hc with hc | hc
  · exact Or.inl (h.isDigit_whole c hc)
  · rcases mem_fractionText.1 hc with ⟨-, rfl⟩ | hc
    · exact Or.inr rfl
    · exact Or.inl (h.isDigit_fraction c hc)

/-- The digits before the point are found again. -/
theorem takeWhile_ne_dot :
    (whole ++ fractionText fraction).takeWhile (· != '.') = whole ∧
      (whole ++ fractionText fraction).dropWhile (· != '.') = fractionText fraction := by
  refine Text.takeWhile_dropWhile_append (fun c hc => ?_) fun c hc => ?_
  · rw [bne_iff_ne]
    rintro rfl
    exact dot_not_mem h.isDigit_whole hc
  · rw [fractionText] at hc
    split_ifs at hc
    · cases hc
    · obtain rfl := Option.some.inj hc
      rfl

/-- Digits around the place of a point are a numeral. -/
theorem isPlainNumeral : isPlainNumeral (whole ++ fractionText fraction) = true := by
  rw [Decimal.isPlainNumeral, Bool.and_eq_true, decide_eq_true_eq, List.any_eq_true]
  obtain ⟨c, hc⟩ := List.exists_mem_of_ne_nil _ h.whole_ne_nil
  refine ⟨⟨c, List.mem_append_left _ hc, h.isDigit_whole c hc⟩, ?_⟩
  rw [List.count_append, List.count_eq_zero_of_not_mem (dot_not_mem h.isDigit_whole), fractionText]
  split_ifs
  · exact Nat.zero_le 1
  · rw [List.count_cons_self, List.count_eq_zero_of_not_mem (dot_not_mem h.isDigit_fraction)]

/-- **Digits around the place of a point denote the number nearest to what they say.** -/
theorem plainValue_eq :
    plainValue (whole ++ fractionText fraction) 0 =
      nearestScaled (ofDigits (whole ++ fraction)) (-fraction.length : ℤ) := by
  have hbehind : (fractionText fraction).drop 1 = fraction := by
    rw [fractionText]
    split_ifs with hfraction
    · rw [hfraction, List.drop_nil]
    · rfl
  rw [plainValue, splitPoint, h.takeWhile_ne_dot.1, h.takeWhile_ne_dot.2, Int.zero_sub, hbehind]

/-- They spell none of the words that a rate may be. -/
theorem asciiLower_ne :
    asciiLower (whole ++ fractionText fraction) ≠ "nan".toList ∧
      asciiLower (whole ++ fractionText fraction) ≠ "inf".toList ∧
      asciiLower (whole ++ fractionText fraction) ≠ "infinity".toList :=
  ⟨asciiLower_ne_of_isFigure h.isFigure_of_mem ⟨'n', by decide⟩,
    asciiLower_ne_of_isFigure h.isFigure_of_mem ⟨'i', by decide⟩,
    asciiLower_ne_of_isFigure h.isFigure_of_mem ⟨'i', by decide⟩⟩

/-- **Digits around the place of a point are read as the number nearest to what they denote.** -/
theorem readUnsigned?_eq :
    readUnsigned? (whole ++ fractionText fraction) =
      some (nearestScaled (ofDigits (whole ++ fraction)) (-fraction.length : ℤ)) := by
  have hfigure := h.isFigure_of_mem
  obtain ⟨-, hinf, hinfinity⟩ := h.asciiLower_ne
  rw [readUnsigned?, if_neg (not_or.2 ⟨hinf, hinfinity⟩), List.takeWhile_eq_self_iff.2 hfigure,
    if_neg (not_not.2 h.isPlainNumeral), List.dropWhile_eq_nil_iff.2 hfigure, ← h.plainValue_eq]

end IsPlaced

namespace IsPointed

variable (h : IsPointed whole fraction)

include h

theorem isPlaced : IsPlaced whole fraction :=
  ⟨h.whole_ne_nil, h.isDigit_whole, h.no_zero_ahead, h.isDigit_fraction⟩

theorem fractionText_eq : fractionText fraction = '.' :: fraction :=
  if_neg h.fraction_ne_nil

theorem isFigure_of_mem : ∀ c ∈ whole ++ '.' :: fraction, isFigure c = true :=
  h.fractionText_eq ▸ h.isPlaced.isFigure_of_mem

/-- The digits before the point are found again. -/
theorem takeWhile_ne_dot :
    (whole ++ '.' :: fraction).takeWhile (· != '.') = whole ∧
      (whole ++ '.' :: fraction).dropWhile (· != '.') = '.' :: fraction :=
  h.fractionText_eq ▸ h.isPlaced.takeWhile_ne_dot

/-- **Digits with a point are read as the number nearest to what they denote.** -/
theorem readRate?_eq :
    readRate? (whole ++ '.' :: fraction) =
      some (nearestScaled (ofDigits (whole ++ fraction)) (-fraction.length : ℤ)) := by
  rw [← h.fractionText_eq, readRate?, splitSign_of_isFigure h.isPlaced.isFigure_of_mem,
    if_neg h.isPlaced.asciiLower_ne.1, h.isPlaced.readUnsigned?_eq]
  rfl

end IsPointed

end

/-- **What is in the interval of a number is read as that number.** -/
theorem nearestScaled_of_encloses {x : Float} {n : Nat} {g : Int} (hfinite : x.isFinite = true)
    (hsign : isNegative x = false) (h : (Magnitude.ofFloat x).Encloses (n * 10 ^ g)) :
    nearestScaled n g = x := by
  refine nearest_of_encloses hfinite hsign (powFraction_pos 10 (by decide) g).2 ?_
  rwa [mul_powFraction_ten]

end Decimal

end RunningTab
