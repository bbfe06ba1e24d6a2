import RunningTab.Proofs.Decimal.ReadBack
import RunningTab.Proofs.Expr.Blanks
import RunningTab.Proofs.Prompt.Discipline

/-!
# Tax suffixes written and read

A taxed entry is written as its expression, an `@`, the sign of its direction and the text of its
rate, with percent signs behind it or not (`RunningTab.Entry.suffixText`). It is read as that entry
again, whatever blanks stand around the `@` and at the end (`RunningTab.Entry.ofLine_written`).

The suffix itself has no `@` and no blanks, so the line is cut where the suffix begins, even if its
expression looks like a taxed entry, and the blanks around the suffix are taken off without a part
of it. What is left of a rate when its percent signs are gone is its text, because no text of a
number ends with one.
-/

namespace RunningTab

/-- The sign that a tax suffix begins with. -/
def TaxDirection.sign : TaxDirection → Char
  | add => '+'
  | remove => '-'

namespace Entry

open Text (isBlank)

variable {b b' before : Text} {direction : TaxDirection} {rate : Option Float} {percents : Nat}

/-! ### Suffixes -/

/-- The text of a rate; there is none for the default rate. -/
def rateText : Option Float → Text
  | none => []
  | some x => Decimal.shortText x

/-- **A tax suffix as it is written.** -/
def suffixText (direction : TaxDirection) (rate : Option Float) (percents : Nat) : Text :=
  direction.sign :: (rateText rate ++ List.replicate percents '%')

/-- The text of a rate has no blanks, no percent signs and no `@`. -/
theorem of_mem_rateText {c : Char} (h : c ∈ rateText rate) :
    isBlank c = false ∧ (c == '%') = false ∧ c ≠ '@' := by
  cases rate with
  | none => cases h
  | some x =>
    rcases Decimal.mem_shortText h with hfigure | hletter
    · refine ⟨Expr.isBlank_of_isFigure hfigure, beq_eq_false_iff_ne.2 ?_, ?_⟩ <;> rintro rfl <;>
        exact absurd hfigure (by decide)
    · change c ∈ ['-', 'N', 'a', 'N', 'i', 'n', 'f'] at hletter
      simp only [List.mem_cons, List.not_mem_nil, or_false] at hletter
      rcases hletter with rfl | rfl | rfl | rfl | rfl | rfl | rfl <;> decide

/-- Nor has the suffix, apart from the percent signs at its end. -/
theorem of_mem_suffixText {c : Char} (h : c ∈ suffixText direction rate percents) :
    isBlank c = false ∧ c ≠ '@' := by
  rcases List.mem_cons.1 h with rfl | h
  · cases direction <;> decide
  · rcases List.mem_append.1 h with hrate | hpercent
    · obtain ⟨hblank, -, hat⟩ := of_mem_rateText hrate
      exact ⟨hblank, hat⟩
    · rw [List.eq_of_mem_replicate hpercent]
      decide

/-- **A rate is read from its text**, with percent signs or without. -/
theorem readRate_written : readRate (rateText rate ++ List.replicate percents '%') = .ok rate := by
  have hblank : ∀ c ∈ rateText rate ++ List.replicate percents '%', isBlank c = false :=
    fun c hc => (of_mem_suffixText
      (show c ∈ suffixText .add rate percents from List.mem_cons_of_mem _ hc)).1
  have hrate : Text.trimEndBy (· == '%') (rateText rate ++ List.replicate percents '%') =
      rateText rate := by
    rw [Text.trimEndBy_append_of_all _ fun c hc => by rw [List.eq_of_mem_replicate hc]; rfl]
    exact Text.trimEndBy_of_none fun c hc => (of_mem_rateText hc).2.1
  rw [readRate, Text.trim_of_not_blank hblank, hrate]
  cases rate with
  | none => rfl
  | some x =>
    have hread := Decimal.readRate?_shortText x
    have hne : Decimal.shortText x ≠ [] := fun hnil => by
      rw [hnil] at hread
      cases hread
    rw [rateText, if_neg hne, hread]

theorem readSuffix_suffixText :
    readSuffix (suffixText direction rate percents) = .ok (direction, rate) := by
  cases direction <;> rw [suffixText, TaxDirection.sign, readSuffix, readRate_written] <;> rfl

/-! ### Lines -/

/-- **A line with a suffix is a taxed entry**, and what stands before the suffix is its
expression. -/
theorem ofLine_suffixText (hb : ∀ c ∈ b, isBlank c = true) (hb' : ∀ c ∈ b', isBlank c = true) :
    ofLine (before ++ '@' :: (b ++ suffixText direction rate percents ++ b')) =
      .ok (.taxed (Text.trim before) direction rate) := by
  have hnot : '@' ∉ b ++ suffixText direction rate percents ++ b' := by
    have hblanks : ∀ {u : Text}, (∀ c ∈ u, isBlank c = true) → '@' ∉ u :=
      fun hu hat => absurd (hu '@' hat) (by decide)
    intro hat
    rcases List.mem_append.1 hat with hat | hat
    · rcases List.mem_append.1 hat with hat | hat
      · exact hblanks hb hat
      · exact (of_mem_suffixText hat).2 rfl
    · exact hblanks hb' hat
  have htrim : Text.trim (b ++ suffixText direction rate percents ++ b') =
      suffixText direction rate percents := by
    rw [Text.trim_append_blanks _ hb', Text.trim_blanks_append _ hb]
    exact Text.trim_of_not_blank fun c hc => (of_mem_suffixText hc).1
  -- an `@` in what stands before the suffix does not matter, the last one counts
  rw [ofLine, Text.cutLast?_eq_some_iff.2 ⟨rfl, hnot⟩]
  dsimp only
  rw [htrim, readSuffix_suffixText]
  rfl

/-- A line is an entry without tax exactly if it has no `@`. -/
theorem ofLine_eq_plain_iff {t x : Text} : ofLine t = .ok (.plain x) ↔ x = t ∧ '@' ∉ t := by
  constructor
  · intro h
    refine ⟨eq_of_ofLine_eq_plain h, fun hat => ?_⟩
    rcases isExpression_of_ofLine h with ⟨hnot, -⟩ | ⟨before, behind, rfl, hbehind, -⟩
    · exact hnot hat
    · rw [ofLine, Text.cutLast?_eq_some_iff.2 ⟨rfl, hbehind⟩] at h
      dsimp only at h
      cases hsuffix : readSuffix (Text.trim behind) <;> rw [hsuffix] at h <;> cases h
  · rintro ⟨rfl, hnot⟩
    rw [ofLine, Text.cutLast?_of_not_mem hnot]

/-- **Entries are read as they are written.** -/
theorem ofLine_written :
    (∀ (e b₁ b₂ b₃ : Text) (direction : TaxDirection) (rate : Option Float) (percents : Nat),
      Text.trim e = e → (∀ c ∈ b₁, isBlank c = true) → (∀ c ∈ b₂, isBlank c = true) →
      (∀ c ∈ b₃, isBlank c = true) →
      ofLine (e ++ b₁ ++ '@' :: (b₂ ++ suffixText direction rate percents ++ b₃)) =
        .ok (.taxed e direction rate)) ∧
    ∀ t x : Text, ofLine t = .ok (.plain x) ↔ x = t ∧ '@' ∉ t := by
  refine ⟨fun e b₁ b₂ b₃ direction rate percents he h₁ h₂ h₃ => ?_, fun t x => ofLine_eq_plain_iff⟩
  rw [ofLine_suffixText h₂ h₃, Text.trim_append_blanks _ h₁, he]

/-- An expression that has a suffix itself, and a negative rate to take out. -/
theorem ofLine_written_negative :
    ofLine "7 @+ @  --2.5%\t".toList = .ok (.taxed "7 @+".toList .remove (some (-2.5))) ∧
      ofLine "7x2".toList = .ok (.plain "7x2".toList) := by
  have htaxed := ofLine_written.1 "7 @+".toList " ".toList "  ".toList "\t".toList
    .remove (some (-2.5)) 1 (by decide) (List.all_eq_true.1 rfl) (List.all_eq_true.1 rfl)
    (List.all_eq_true.1 rfl)
  exact ⟨htaxed, (ofLine_written.2 _ _).2 ⟨rfl, by decide⟩⟩

end Entry

end RunningTab
