import RunningTab.Editor.Basic
import RunningTab.Proofs.Expr.WrittenOut
import RunningTab.Proofs.Ledger.Selection

/-!
# Pasting an expression

What is pasted goes through a filter, and what the filter drops is dropped without a word. For an
expression that has a value and no blanks there are just two characters that it drops, the keypad
glyphs for multiplication and division (`RunningTab.sanitize_of_evaluate?`): everything else that
expressions are written with gets through. An expression that is written with neither arrives as it
is, and any other does so once its glyphs are replaced by an asterisk and a slash
(`RunningTab.Editor.evaluate?_paste`). With the glyphs the operands on either side of one run
together, so that what arrives is another expression.
-/

namespace RunningTab

open RunningTab.Expr (evaluate? isWritten plainGlyph plainGlyphs pieces strayChar?)
open Text (isBlank)

/-- The keypad glyphs. -/
def isGlyph (c : Char) : Bool :=
  c == 'x' || c == '÷'

variable {s : Text} {x : Float}

/-! ### What the filter keeps -/

/-- An expression that has a value consists of what expressions are written with, and percent
signs. -/
theorem isWritten_of_evaluate? (h : evaluate? s = .ok x) {c : Char} (hc : c ∈ s) :
    isWritten c = true ∨ c = '%' := by
  have hstray : ∀ i c, ¬ Expr.OffendsAt s i c :=
    (Expr.strayChar?_text_eq_none_iff s).1 (Expr.strayChar?_of_evaluate? h)
  obtain ⟨i, hi⟩ := List.mem_iff_getElem?.1 hc
  by_contra hneither
  obtain ⟨hwritten, hpercent⟩ := not_or.1 hneither
  exact hstray i c ⟨hi, Bool.eq_false_iff.2 hwritten, fun h => hpercent h.1⟩

/-- Of these the filter keeps all but blanks and keypad glyphs. -/
theorem kept_iff_not_isGlyph {c : Char} (hc : isWritten c = true ∨ c = '%')
    (hblank : isBlank c = false) :
    (Text.isDigit c || ".+-*/()%".toList.contains c) = !isGlyph c := by
  rcases hc with hwritten | rfl
  · cases hdigit : Text.isDigit c with
    | true =>
      have hx : c ≠ 'x' := by rintro rfl; exact absurd hdigit (by decide)
      have hdiv : c ≠ '÷' := by rintro rfl; exact absurd hdigit (by decide)
      simp [isGlyph, hx, hdiv]
    | false =>
      have hmem : c ∈ ".+-*/()x÷".toList := by
        simpa [isWritten, Decimal.isFigure, hdigit, hblank] using hwritten
      simp at hmem
      rcases hmem with rfl | rfl | rfl | rfl | rfl | rfl | rfl | rfl | rfl <;> decide
  · decide

/-- **Of an expression that has a value and no blanks the filter drops its keypad glyphs** and
nothing else. -/
theorem sanitize_of_evaluate? (hs : ∀ c ∈ s, isBlank c = false) (h : evaluate? s = .ok x) :
    sanitize s = s.filter (!isGlyph ·) :=
  List.filter_congr fun c hc => kept_iff_not_isGlyph (isWritten_of_evaluate? h hc) (hs c hc)

/-! ### Replacing the keypad glyphs -/

theorem isGlyph_plainGlyph (c : Char) : isGlyph (plainGlyph c) = false := by
  unfold plainGlyph
  split
  · rfl
  · next hx =>
    split
    · rfl
    · next hdiv => simp [isGlyph, hx, hdiv]

theorem plainGlyph_plainGlyph (c : Char) : plainGlyph (plainGlyph c) = plainGlyph c := by
  have hglyph := isGlyph_plainGlyph c
  simp only [isGlyph, Bool.or_eq_false_iff, beq_eq_false_iff_ne] at hglyph
  rw [plainGlyph, if_neg hglyph.1, if_neg hglyph.2]

/-- **An expression has the same value with its keypad glyphs replaced.** -/
theorem evaluate?_plainGlyphs (s : Text) : evaluate? (plainGlyphs s) = evaluate? s := by
  have hagain : plainGlyphs (plainGlyphs s) = plainGlyphs s := by
    rw [plainGlyphs, plainGlyphs, List.map_map]
    exact List.map_congr_left fun c _ => plainGlyph_plainGlyph c
  rw [evaluate?, evaluate?, Expr.work, Expr.work, Expr.plainText, Expr.plainText, hagain]

namespace Editor

variable {e : Editor}

/-- What is pasted into an empty input is what the filter keeps. -/
theorem input_paste (hinput : e.input = []) (s : Text) : (e.paste s).input = sanitize s := by
  rw [paste]
  split
  · next hnone => rw [hnone, hinput]
  · change (e.ledger.insert e.cursor (sanitize s)).1.input = sanitize s
    have hempty : e.ledger.input = [] := hinput
    rw [Ledger.insert, Ledger.input_edit, hempty, List.take_nil, List.drop_nil, List.nil_append,
      List.append_nil]

/-- An expression that has a value, no blanks and no keypad glyphs arrives as it is. -/
theorem input_paste_of_not_isGlyph (hinput : e.input = []) (hs : ∀ c ∈ s, isBlank c = false)
    (h : evaluate? s = .ok x) (hglyph : ∀ c ∈ s, isGlyph c = false) : (e.paste s).input = s := by
  rw [input_paste hinput, sanitize_of_evaluate? hs h]
  exact List.filter_eq_self.2 fun c hc => by simp [hglyph c hc]

/-- **Pasting an expression keeps its value, unless it is written with keypad glyphs.** Of an
expression that has a value and no blanks an empty input gets all characters but the keypad glyphs.
So it gets the whole expression, with its value, if there are none, and in any case if they are
replaced first. -/
theorem evaluate?_paste (hinput : e.input = []) (hs : ∀ c ∈ s, isBlank c = false)
    (h : evaluate? s = .ok x) :
    (e.paste s).input = s.filter (!isGlyph ·) ∧
      ((∀ c ∈ s, isGlyph c = false) →
        (e.paste s).input = s ∧ evaluate? (e.paste s).input = .ok x) ∧
      evaluate? (e.paste (plainGlyphs s)).input = .ok x := by
  refine ⟨by rw [input_paste hinput, sanitize_of_evaluate? hs h], fun hglyph => ?_, ?_⟩
  · have hwhole := input_paste_of_not_isGlyph hinput hs h hglyph
    exact ⟨hwhole, by rw [hwhole, h]⟩
  · have hblank : ∀ c ∈ plainGlyphs s, isBlank c = false := by
      intro _ hglyph
      obtain ⟨c, hc, rfl⟩ := List.mem_map.1 hglyph
      rw [Expr.isBlank_plainGlyph, hs c hc]
    have hglyph : ∀ c ∈ plainGlyphs s, isGlyph c = false := by
      intro _ hglyph
      obtain ⟨c, -, rfl⟩ := List.mem_map.1 hglyph
      exact isGlyph_plainGlyph c
    have hvalue : evaluate? (plainGlyphs s) = .ok x := (evaluate?_plainGlyphs s).trans h
    rw [input_paste_of_not_isGlyph hinput hblank hvalue hglyph, hvalue]

/-- Twice the sum of six and half of it, pasted at the start. -/
theorem evaluate?_paste_at_start :
    evaluate? ((ofSettings .standard).paste "(6+50%)*2".toList).input = .ok 18.0 := by
  have hnone (p : Char → Bool) (h : "(6+50%)*2".toList.any p = false) :
      ∀ c ∈ "(6+50%)*2".toList, p c = false :=
    fun c hc => Bool.eq_false_iff.2 (List.any_eq_false.1 h c hc)
  have hvalue : evaluate? "(6+50%)*2".toList = .ok 18.0 := by rfl
  have hpasted := evaluate?_paste (e := ofSettings .standard) rfl (hnone isBlank rfl) hvalue
  exact (hpasted.2.1 (hnone isGlyph rfl)).2

/-- **A keypad glyph is lost**: six times seven, pasted at the start, is sixty-seven. -/
theorem evaluate?_paste_of_glyph :
    let e := ofSettings .standard
    e.input = [] ∧ evaluate? "6x7".toList = .ok 42.0 ∧ (e.paste "6x7".toList).input = "67".toList ∧
      evaluate? (e.paste "6x7".toList).input ≠ .ok 42.0 := by
  intro e
  have hpasted : (e.paste "6x7".toList).input = "67".toList := by rfl
  have hvalue : evaluate? "67".toList = .ok 67.0 := by rfl
  refine ⟨rfl, by rfl, hpasted, fun h => ?_⟩
  rw [hpasted, hvalue] at h
  exact absurd (congrArg Float.toBits (Except.ok.inj h)) (by decide)

end Editor

end RunningTab
