import RunningTab.Proofs.Expr.Postfix

/-!
# Phrases joined

Two phrases with a sign between them are a phrase again (`RunningTab.Expr.Phrase.join`), and so is a
phrase with a minus sign before it (`RunningTab.Expr.Phrase.negate`). Nothing of the text changes,
and no parentheses are needed. What changes is the tree: the new sign goes where precedence has it,
`1+2` and `3` joined by `x` are the sum of `1` and `2x3`, and a minus sign negates the first operand
only.

Whether a unary minus may stand before another one makes no difference to this, except that in a
phrase where it may not, none can be put before one (`RunningTab.Expr.Phrase.Apt`).
-/

namespace RunningTab.Expr.Phrase

variable {stacked : Bool} {p l q r : Phrase} {s : Sign}

/-! ### Apt phrases -/

/-- **The phrases with the parentheses that precedence needs**, in which a unary minus may stand
before another one or must not. -/
def Apt (stacked : Bool) : Phrase → Prop
  | numeral _ | percent _ => True
  | parens _ p _ => p.Apt stacked
  | minus _ p => 3 ≤ p.tightness ∧ (stacked = true ∨ p.isMinus = false) ∧ p.Apt stacked
  | binary l _ s _ r =>
    s.tightness ≤ l.tightness ∧ s.tightness < r.tightness ∧ l.Apt stacked ∧ r.Apt stacked

theorem apt_true : Apt true = Stacked := by
  refine funext fun p => propext ?_
  induction p with
  | numeral n => exact Iff.rfl
  | percent n => exact Iff.rfl
  | parens before p behind ih => exact ih
  | minus gap p ih => simp [Apt, Stacked, ih]
  | binary l before s behind r ihl ihr => simp [Apt, Stacked, ihl, ihr]

theorem apt_false : Apt false = WellFormed := by
  refine funext fun p => propext ?_
  induction p with
  | numeral n => exact Iff.rfl
  | percent n => exact Iff.rfl
  | parens before p behind ih => exact ih
  | minus gap p ih =>
    have htight : 3 ≤ p.tightness ∧ p.isMinus = false ↔ p.tightness = 4 :=
      ⟨fun h => tightness_of_not_isMinus h.2 h.1, fun h => ⟨by omega, isMinus_of_tightness h⟩⟩
    simp [Apt, WellFormed, ih, ← htight, and_assoc]
  | binary l before s behind r ihl ihr => simp [Apt, WellFormed, ihl, ihr]

/-! ### A minus sign in front -/

/-- Whether the text of a phrase starts with a minus sign. -/
def startsWithMinus : Phrase → Bool
  | minus _ _ => true
  | binary l _ _ _ _ => l.startsWithMinus
  | _ => false

/-- **The phrase with a minus sign in front**, which negates its first operand. -/
def negate : Phrase → Phrase
  | binary l before s behind r => binary l.negate before s behind r
  | p => minus .none p

theorem text_negate (p : Phrase) : p.negate.text = '-' :: p.text := by
  induction p with
  | binary l before s behind r ihl ihr =>
    rw [negate, text, ihl, text]
    rfl
  | _ => rfl

/-- A sign that binds no more tightly than the phrase does not with the minus in front either. -/
theorem tightness_le_negate (h : s.tightness ≤ p.tightness) :
    s.tightness ≤ p.negate.tightness := by
  cases p with
  | binary l before s' behind r => exact h
  | numeral _ | percent _ | parens _ _ _ | minus _ _ => exact Nat.le_of_lt s.tightness_lt

theorem Apt.negate (h : p.Apt stacked) (hfree : stacked = true ∨ p.startsWithMinus = false) :
    p.negate.Apt stacked := by
  induction p with
  | binary l before s behind r ihl ihr =>
    obtain ⟨hsl, hsr, hl, hr⟩ := h
    exact ⟨tightness_le_negate hsl, hsr, ihl hl hfree, hr⟩
  | minus gap p => exact ⟨show 3 ≤ 3 by decide, hfree, h⟩
  | numeral _ | percent _ | parens _ _ _ => exact ⟨show 3 ≤ 4 by decide, Or.inr rfl, h⟩

/-! ### An operand behind -/

/-- **The phrase with one more operand behind a sign.** A sign that binds more tightly than the
phrase takes its last operand. -/
def extend (l : Phrase) (before : Blanks) (s : Sign) (behind : Blanks) (r : Phrase) : Phrase :=
  match l with
  | binary l' before' s' behind' r' =>
    if s.tightness ≤ s'.tightness then binary l before s behind r
    else binary l' before' s' behind' (binary r' before s behind r)
  | l => binary l before s behind r

theorem text_extend (l : Phrase) (before : Blanks) (s : Sign) (behind : Blanks) (r : Phrase) :
    (l.extend before s behind r).text =
      l.text ++ before.chars ++ s.char :: (behind.chars ++ r.text) := by
  cases l with
  | binary l' before' s' behind' r' =>
    rw [extend]
    split
    · rfl
    · simp [text]
  | _ => rfl

theorem Apt.extend (hl : l.Apt stacked) (hr : r.Apt stacked) (htight : s.tightness < r.tightness)
    (before behind : Blanks) : (l.extend before s behind r).Apt stacked := by
  cases l with
  | binary l' before' s' behind' r' =>
    obtain ⟨hsl, hsr, hl', hr'⟩ := hl
    rw [Phrase.extend]
    split
    · next hle => exact ⟨hle, htight, ⟨hsl, hsr, hl', hr'⟩, hr⟩
    · next hlt =>
      -- there are two levels of signs only, so this one does not bind more tightly than `r'`
      have hpos : 0 < s'.tightness := by cases s' <;> decide
      have hs : s.tightness < 3 := s.tightness_lt
      exact ⟨hsl, show s'.tightness < s.tightness by omega, hl',
        show s.tightness ≤ r'.tightness by omega, htight, hr', hr⟩
  | minus gap p => exact ⟨Nat.le_of_lt s.tightness_lt, htight, hl, hr⟩
  | numeral _ | percent _ | parens _ _ _ =>
    exact ⟨Nat.le_succ_of_le (Nat.le_of_lt s.tightness_lt), htight, hl, hr⟩

/-! ### Two phrases -/

/-- **Two phrases joined by a sign.** The operands of the second one go behind the first one after
the other. -/
def join (l : Phrase) (s : Sign) : Phrase → Phrase
  | binary q before s' behind r => (l.join s q).extend before s' behind r
  | r => l.extend .none s .none r

theorem text_join (l : Phrase) (s : Sign) (r : Phrase) :
    (l.join s r).text = l.text ++ s.char :: r.text := by
  induction r with
  | binary q before s' behind r ihq ihr =>
    rw [join, text_extend, ihq, text]
    simp
  | numeral _ | percent _ | parens _ _ _ | minus _ _ =>
    change (l.extend .none s .none _).text = _
    rw [text_extend]
    simp [Blanks.none]

theorem Apt.join (hl : l.Apt stacked) (hr : r.Apt stacked) (s : Sign) :
    (l.join s r).Apt stacked := by
  induction r with
  | binary q before s' behind r ihq ihr =>
    obtain ⟨-, hsr, hq, hr⟩ := hr
    exact (ihq hq).extend hr hsr before behind
  | minus gap p => exact hl.extend hr s.tightness_lt .none .none
  | numeral _ | percent _ | parens _ _ _ =>
    exact hl.extend hr (Nat.lt_succ_of_lt s.tightness_lt) .none .none

end RunningTab.Expr.Phrase
