import RunningTab.Display.Spacing
import RunningTab.Proofs.Expr.Blanks

/-!
# What spacing out does to an expression

For display an expression loses its blanks and gets spaces around its binary operators. That keeps
all its other characters (`RunningTab.Display.solid_spaceOut`), but blanks are not without meaning.
Behind a figure the spaced-out text is easily described: an operator has a space before it, and
anything else stands directly there (`RunningTab.Display.behindFigures_spaceOut`). So the blanks of
the spaced-out text are idle, and it has the value of every other text with the same characters and
idle blanks.

The text as it was typed need not be one. In `100+5%` the percent is a share of the hundred, which
it is only as long as there are no blanks around the sign; spaced out it is five hundredths. The
value of a spaced-out expression is therefore the one it has with a space before every sign, and its
own value if no percent in it is a share (`RunningTab.Display.evaluate?_spaceOut`).
-/

namespace RunningTab.Display

open Decimal (isFigure)
open RunningTab.Expr (BehindFigures Clinging IdleBlanks Meets Parted evaluate? hasShare pieces)
open Text (isBlank solid spaced words)

/-- **Signs moved away from what stands before them**: a space before every plus and minus sign, so
that no percent is a share. -/
def partSigns (t : Text) : Text :=
  t.flatMap fun c => if c = '+' ∨ c = '-' then [' ', c] else [c]

variable {P : Char → Bool → Prop} {c : Char} {t : Text}

/-! ### The characters that are kept -/

theorem solid_spreadOperators (before : Option Char) (t : Text) :
    solid (spreadOperators before t) = solid t := by
  induction t generalizing before with
  | nil => rfl
  | cons c t ih =>
    have hspace : solid [' '] = [] := rfl
    rw [spreadOperators, Text.solid_append, ih, Text.solid_cons c t]
    split
    · rw [Text.solid_cons ' ', Text.solid_cons c, hspace, List.nil_append, List.append_nil]
    · rfl

/-- **Spacing out keeps all characters but blanks.** -/
theorem solid_spaceOut (t : Text) : solid (spaceOut t) = solid t := by
  rw [spaceOut, Text.solid_spaced_words, solid_spreadOperators]
  exact Text.solid_solid t

theorem partSigns_cons (c : Char) (t : Text) :
    partSigns (c :: t) = (if c = '+' ∨ c = '-' then [' ', c] else [c]) ++ partSigns t :=
  List.flatMap_cons

theorem solid_partSigns (t : Text) : solid (partSigns t) = solid t := by
  induction t with
  | nil => rfl
  | cons c t ih =>
    rw [partSigns_cons, Text.solid_append, ih, Text.solid_cons c t]
    split
    · rw [Text.solid_cons_of_blank (by decide)]
    · rfl

/-! ### Behind the figures of a spaced-out text -/

/-- Operators have a space before them, and nothing else has. -/
def Spread (d : Char) (close : Bool) : Prop :=
  close = !isOperatorChar d

theorem isOperatorChar_of_isFigure (hc : isFigure c = true) : isOperatorChar c = false := by
  refine Bool.eq_false_iff.2 fun hoperator => ?_
  have hmem : c ∈ "+-*/x÷".toList := by simpa [isOperatorChar] using hoperator
  simp at hmem
  rcases hmem with rfl | rfl | rfl | rfl | rfl | rfl <;> exact absurd hc (by decide)

theorem isOperatorChar_of_clings (hc : Expr.clings c = true) : isOperatorChar c = false := by
  rcases Bool.or_eq_true_iff.1 hc with hfigure | hpercent
  · exact isOperatorChar_of_isFigure hfigure
  · rw [beq_iff_eq.1 hpercent]
    rfl

theorem operandDue_of_isFigure (hc : isFigure c = true) : operandDue (some c) = false := by
  have hparen : c ≠ '(' := by rintro rfl; exact absurd hc (by decide)
  simp [operandDue, isOperatorChar_of_isFigure hc, hparen]

/-- Behind a figure every operator is a binary one. -/
theorem isBinary_of_isFigure (hc : isFigure c = true) (d : Char) :
    isBinary (some c) d = isOperatorChar d := by
  simp [isBinary, operandDue_of_isFigure hc]

theorem meets_spreadOperators (hc : isFigure c = true) (ht : ∀ d ∈ t, isBlank d = false) :
    Meets Spread (spreadOperators (some c) t) := by
  cases t with
  | nil => trivial
  | cons d t =>
    have hd : isBlank d = false := ht d List.mem_cons_self
    rw [spreadOperators, isBinary_of_isFigure hc]
    split
    · next hoperator =>
      exact (Expr.meets_blank_cons (by decide) hd).2 (by simp [Spread, hoperator])
    · next hoperator =>
      exact (Expr.meets_cons_of_not_blank hd).2 (by simp [Spread, hoperator])

theorem behindFigures_spreadOperators (before : Option Char) (ht : ∀ d ∈ t, isBlank d = false) :
    BehindFigures Spread (spreadOperators before t) := by
  induction t generalizing before with
  | nil => trivial
  | cons c t ih =>
    have hrest : ∀ d ∈ t, isBlank d = false := fun d hd => ht d (List.mem_cons_of_mem c hd)
    rw [spreadOperators]
    split
    · next hbinary =>
      -- neither the operator nor the spaces are figures
      have hspace : isFigure ' ' = true → False := by decide
      have hoperator : isOperatorChar c = true := (Bool.and_eq_true_iff.1 hbinary).1
      refine ⟨fun h => (hspace h).elim, fun hc => ?_, fun h => (hspace h).elim, ih _ hrest⟩
      exact absurd (hoperator.symm.trans (isOperatorChar_of_isFigure hc)) Bool.noConfusion
    · exact ⟨fun hc => meets_spreadOperators hc hrest, ih _ hrest⟩

/-- Where no blank comes first, the words start with the text. -/
theorem meets_spaced_words (ht : ∀ d ∈ t.head?, isBlank d = false) (h : Meets P t) :
    Meets P (spaced (words t)) := by
  cases t with
  | nil => trivial
  | cons d t =>
    have hd : isBlank d = false := ht d rfl
    obtain ⟨rest, hrest, -⟩ := Text.exists_spaced_words_cons hd t
    rw [hrest]
    exact (Expr.meets_cons_of_not_blank hd).2 ((Expr.meets_cons_of_not_blank hd).1 h)

/-- Where a blank comes first, a space comes before the words, if there are any. -/
theorem meets_space_words (ht : ∀ d ∈ t.head?, isBlank d = true) (h : Meets P t) :
    Meets P (if solid t = [] then [] else ' ' :: spaced (words t)) := by
  split
  · trivial
  · refine (Expr.meets_cons_of_blank (by decide)).2 fun e he => ?_
    rw [Text.solid_spaced_words] at he
    cases t with
    | nil => exact absurd he nofun
    | cons d t =>
      have hd : isBlank d = true := ht d rfl
      rw [Text.solid_cons_of_blank hd] at he
      exact (Expr.meets_cons_of_blank hd).1 h e he

/-- **What stands behind a figure stays there** when the text is taken apart into words and put
together again. -/
theorem behindFigures_spaced_words (h : BehindFigures P t) :
    BehindFigures P (spaced (words t)) := by
  induction t with
  | nil => trivial
  | cons c t ih =>
    cases hc : isBlank c with
    | true =>
      rw [Text.spaced_words_of_blank hc]
      exact ih h.2
    | false =>
      obtain ⟨rest, hrest, ⟨hhead, rfl⟩ | ⟨hhead, rfl⟩⟩ := Text.exists_spaced_words_cons hc t
      · rw [hrest]
        exact ⟨fun hfigure => meets_spaced_words hhead (h.1 hfigure), ih h.2⟩
      · rw [hrest]
        refine ⟨fun hfigure => meets_space_words hhead (h.1 hfigure), ?_⟩
        split
        · trivial
        · exact ⟨fun hspace => absurd hspace (by decide), ih h.2⟩

/-- **Behind the figures of a spaced-out text** operators have a space before them, and nothing else
has. -/
theorem behindFigures_spaceOut (t : Text) : BehindFigures Spread (spaceOut t) :=
  behindFigures_spaced_words
    (behindFigures_spreadOperators none fun _ hd => Text.isBlank_of_mem_solid hd)

/-- **The blanks of a spaced-out text are idle.** -/
theorem idleBlanks_spaceOut (t : Text) : IdleBlanks (spaceOut t) := by
  refine Expr.idleBlanks_of_parted ((behindFigures_spaceOut t).mono ?_)
    ((behindFigures_spaceOut t).mono ?_)
  · rintro d close rfl hclings
    rw [isOperatorChar_of_clings hclings]
    rfl
  · rintro d close rfl hsign
    rcases hsign with rfl | rfl <;> rfl

/-! ### Signs moved away -/

/-- Behind a figure a sign that is moved away is not close any more, and all else is as it was. -/
theorem meets_partSigns (h : Meets Clinging t) :
    Meets (fun d close => Clinging d close ∧ Parted d close) (partSigns t) := by
  cases t with
  | nil => trivial
  | cons d t =>
    rw [partSigns_cons]
    split
    · next hsign =>
      have hclings : Expr.clings d = false := by rcases hsign with rfl | rfl <;> rfl
      have hd : isBlank d = false := by rcases hsign with rfl | rfl <;> rfl
      exact (Expr.meets_blank_cons (by decide) hd).2
        ⟨fun hc => absurd (hclings.symm.trans hc) Bool.noConfusion, fun _ => rfl⟩
    · next hsign =>
      cases hd : isBlank d with
      | true =>
        refine (Expr.meets_cons_of_blank hd).2 fun e he => ?_
        change e ∈ (solid (partSigns t)).head? at he
        rw [solid_partSigns] at he
        exact ⟨(Expr.meets_cons_of_blank hd).1 h e he, fun _ => rfl⟩
      | false =>
        exact (Expr.meets_cons_of_not_blank hd).2 ⟨fun _ => rfl, fun hd => absurd hd hsign⟩

theorem behindFigures_partSigns (h : BehindFigures Clinging t) :
    BehindFigures (fun d close => Clinging d close ∧ Parted d close) (partSigns t) := by
  induction t with
  | nil => trivial
  | cons c t ih =>
    rw [partSigns_cons]
    split
    · next hsign =>
      have hfigure : isFigure c = false := by rcases hsign with rfl | rfl <;> rfl
      exact ⟨fun hspace => absurd hspace (by decide),
        fun hc => absurd (hfigure.symm.trans hc) Bool.noConfusion, ih h.2⟩
    · exact ⟨fun hc => meets_partSigns (h.1 hc), ih h.2⟩

/-- **With its signs moved away a text has idle blanks**, if no numeral of it is broken and no
percent sign cut off. -/
theorem idleBlanks_partSigns (h : BehindFigures Clinging t) : IdleBlanks (partSigns t) :=
  Expr.idleBlanks_of_parted ((behindFigures_partSigns h).mono fun _ _ => And.left)
    ((behindFigures_partSigns h).mono fun _ _ => And.right)

/-- **The value of a spaced-out expression** that has a value, and in which no blanks break a
numeral: it is the one that the expression has with a space before every plus and minus sign, where
a percent is a hundredth and never a share. It is the expression's own value if no percent of it is
a share. -/
theorem evaluate?_spaceOut {x : Float} (h : evaluate? t = .ok x)
    (hwhole : Expr.WholeNumerals t) :
    evaluate? (spaceOut t) = evaluate? (partSigns t) ∧
      (hasShare (pieces t) = false → evaluate? (spaceOut t) = .ok x) := by
  have hclinging : BehindFigures Clinging t :=
    Expr.clinging_of_whole_of_tight hwhole (Expr.tightPercents_of_evaluate? h)
  refine ⟨Expr.evaluate?_congr (idleBlanks_spaceOut t) (idleBlanks_partSigns hclinging) ?_,
    fun hshare => ?_⟩
  · rw [solid_spaceOut, solid_partSigns]
  · rw [Expr.evaluate?_congr (idleBlanks_spaceOut t) ⟨hclinging, hshare⟩ (solid_spaceOut t), h]

/-- Spaces around a unary minus, within parentheses and before a percent that is no share. -/
theorem evaluate?_spaceOut_difference :
    evaluate? (spaceOut "- 7-(1.5+ 2) x50%".toList) = .ok (-8.75) :=
  (evaluate?_spaceOut (x := -8.75) (by rfl) (by decide)).2 (by decide)

/-- **A share is not one any more** when it is spaced out: `100+5%` is a hundred and five, and
`100 + 5%` a hundred and five hundredths. -/
theorem evaluate?_spaceOut_share :
    evaluate? "100+5%".toList = .ok 105.0 ∧ spaceOut "100+5%".toList = "100 + 5%".toList ∧
      evaluate? (spaceOut "100+5%".toList) ≠ .ok 105.0 := by
  have hspaced : evaluate? (spaceOut "100+5%".toList) = .ok 100.05 := by rfl
  refine ⟨by rfl, by decide, fun h => ?_⟩
  have hvalues : (100.05 : Float) = 105.0 := Except.ok.inj (hspaced.symm.trans h)
  exact absurd (congrArg Float.toBits hvalues) (by decide)

end RunningTab.Display
