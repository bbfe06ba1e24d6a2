import Mathlib.Algebra.Ring.Parity
import RunningTab.Proofs.Decimal.Negation
import RunningTab.Proofs.Expr.Meaning

/-!
# The value of stacked minus signs

What an expression with stacked minus signs works out to. It is the value of the tree that the
phrase is read as (`RunningTab.Expr.Phrase.treeRead`), in which the loose minuses of a right operand
have gone to the left one; if loose minuses are left at the start, they find nothing to negate and
the expression is refused (`RunningTab.Expr.evaluate?_stackedWriting`).

That need not be the value of the tree that is meant: `2+--3` is `-2 + -3`. Whether it is depends on
the operations and on whether the loose minuses are even or odd in number. Signs move freely through
a product, and out of both operands of a quotient; a sum needs both of its operands as they are
(`RunningTab.Expr.Arithmetic.Bears`). If every operation of a phrase bears the loose minuses of its
operands, the two trees have the same value up to the loose minuses of the phrase itself
(`RunningTab.Expr.value_treeRead`).
-/

namespace RunningTab.Expr

/-- **A way of writing a tree in which minus signs may be stacked**, with blanks around. -/
structure StackedWriting (t : Tree) where
  before : Blanks
  phrase : Phrase
  behind : Blanks
  stacked : phrase.Stacked
  tree_eq : phrase.tree none = t

/-- The text of a writing. -/
def StackedWriting.text {t : Tree} (w : StackedWriting t) : Text :=
  w.before.chars ++ w.phrase.text ++ w.behind.chars

/-- **The operation bears the loose minuses of its operands**, of which there are `l` at the left
one and `r` at the right one. -/
def Arithmetic.Bears (l r : Nat) : Arithmetic → Prop
  | sum | difference => Even l ∧ Even r
  | product => True
  -- a quotient by zero is zero, and does not turn its sign with the dividend
  | quotient => Even l

/-- **The phrases whose operations all bear the loose minuses of their operands.** -/
def Phrase.Harmless : Phrase → Prop
  | numeral _ | percent _ => True
  | parens _ p _ => p.Harmless
  | minus _ p => p.Harmless
  | binary l _ s _ r =>
    s.operation.Bears l.looseMinuses r.looseMinuses ∧ l.Harmless ∧ r.Harmless

/-! ### Signs of values -/

theorem involutive_neg : Function.Involutive (Neg.neg : Float → Float) :=
  Decimal.neg_neg_eq

/-- Negating several times is negating once, or nothing. -/
theorem iterate_neg (n : Nat) :
    (Neg.neg : Float → Float)^[n] = id ∨ (Neg.neg : Float → Float)^[n] = Neg.neg :=
  (Nat.even_or_odd n).imp involutive_neg.iterate_even involutive_neg.iterate_odd

theorem neg_iterate_neg (n : Nat) (x : Float) : -(Neg.neg^[n] x) = Neg.neg^[n] (-x) :=
  (Function.iterate_succ_apply' Neg.neg n x).symm.trans (Function.iterate_succ_apply Neg.neg n x)

theorem Tree.value_negations (t : Tree) (n : Nat) :
    (Tree.negation^[n] t).value = Neg.neg^[n] t.value := by
  induction n with
  | zero => rfl
  | succ n ih => rw [Function.iterate_succ_apply', Function.iterate_succ_apply', value, ih]

/-- **A quotient of negated operands** is the quotient, also by zero. -/
theorem Arithmetic.value_quotient_neg (a b : Float) :
    Arithmetic.quotient.value (-a) (-b) = Arithmetic.quotient.value a b := by
  rw [value, value, Decimal.neg_beq_zero, Decimal.neg_div_eq, Decimal.div_neg_eq,
    Decimal.neg_neg_eq]

/-- **What an operation bears makes no difference**: the loose minuses of the right operand, which
go to the left one, and those of the left one, which come out of the operation. -/
theorem Arithmetic.Bears.value_eq {op : Arithmetic} {l r : Nat} (h : op.Bears l r) (a b : Float) :
    op.value (Neg.neg^[r] (Neg.neg^[l] a)) (Neg.neg^[r] b) = Neg.neg^[l] (op.value a b) := by
  cases op with
  | sum => rw [involutive_neg.iterate_even h.1, involutive_neg.iterate_even h.2]; rfl
  | difference => rw [involutive_neg.iterate_even h.1, involutive_neg.iterate_even h.2]; rfl
  | product =>
    rcases iterate_neg l with hl | hl <;> rcases iterate_neg r with hr | hr <;>
      simp only [hl, hr, id_eq, value, Decimal.neg_mul_eq, Decimal.mul_neg_eq, Decimal.neg_neg_eq]
  | quotient =>
    rw [involutive_neg.iterate_even h]
    rcases iterate_neg r with hr | hr <;> rw [hr]
    · rfl
    · exact value_quotient_neg a b

/-- **A harmless phrase is read as a tree with the value that is meant**, but for the loose minuses
of the phrase. -/
theorem value_treeRead {p : Phrase} (h : p.Harmless) (whole : Option Numeral) :
    (p.treeRead whole).value = Neg.neg^[p.looseMinuses] (p.tree whole).value := by
  induction p generalizing whole with
  | numeral n => rfl
  | percent n => rfl
  | parens before p behind ih => exact ih h none
  | minus gap p ih =>
    have hoperand := ih h none
    rw [Phrase.treeRead, Phrase.looseMinuses, Phrase.tree, Tree.value]
    cases p.isMinus with
    | true =>
      rw [if_pos rfl, if_pos rfl, Function.iterate_succ_apply, Decimal.neg_neg_eq, hoperand]
    | false =>
      rw [if_neg Bool.false_ne_true, if_neg Bool.false_ne_true, Tree.value, hoperand,
        neg_iterate_neg]
  | binary l before s behind r ihl ihr =>
    obtain ⟨hbears, hl, hr⟩ := h
    rw [Phrase.treeRead, Tree.value, Tree.value_negations, ihl hl, ihr hr, hbears.value_eq]
    rfl

/-! ### From the text to the value -/

/-- Loose minuses at the start find nothing to negate. -/
theorem outcome_runPostfix_loose {n : Nat} (hn : n ≠ 0) (ts : List Token) :
    (runPostfix (List.replicate n (.operator .neg) ++ ts)).outcome = .error .missingOperand := by
  cases n with
  | zero => exact absurd rfl hn
  | succ n => rfl

/-- **An expression with stacked minus signs is worked out as the tree that it is read as**, or
refused if it starts with loose minuses. -/
theorem evaluate?_text {t : Tree} (w : StackedWriting t) :
    evaluate? w.text =
      if w.phrase.looseMinuses = 0 then finiteOutcome (w.phrase.treeRead none).value
      else .error .missingOperand := by
  have hpostfix : postfixOrder (w.phrase.tokens none) =
      List.replicate w.phrase.looseMinuses (.operator .neg) ++
        ((w.phrase.treeRead none).postorder ++ []) := by
    have h : postfixFrom [] (w.phrase.tokens none ++ []) =
        List.replicate w.phrase.looseMinuses (.operator .neg) ++
          (w.phrase.treeRead none).postorder ++ postfixFrom [] [] :=
      postfixFrom_stacked w.stacked none trivial trivial
    rwa [List.append_nil, List.append_assoc] at h
  rw [evaluate?, StackedWriting.text, outcome_work (readTokens_phrase ..), hpostfix]
  split
  · next hloose =>
    rw [hloose, List.replicate_zero, List.nil_append, runPostfix, outcome_runFrom_postorder]
    rfl
  · next hloose =>
    rw [outcome_runPostfix_loose hloose]
    rfl

/-- A well-formed phrase is worked out to the value of its tree. -/
theorem evaluate?_phrase {p : Phrase} (h : p.WellFormed) :
    evaluate? p.text = finiteOutcome (p.tree none).value := by
  have hwriting := evaluate?_text ⟨.none, p, .none, h.stacked, rfl⟩
  rw [h.looseMinuses_eq, h.treeRead_eq, if_pos rfl] at hwriting
  rwa [StackedWriting.text, Blanks.none, List.nil_append, List.append_nil] at hwriting

/-- A finite outcome is the value itself. -/
theorem eq_of_finiteOutcome {x v : Float} (h : finiteOutcome x = .ok v) : v = x := by
  rw [finiteOutcome] at h
  split at h
  · exact (Except.ok.inj h).symm
  · cases h

/-- **The value of an expression with stacked minus signs** is that of the tree that it is read as.
It is refused if it starts with loose minuses. If its operations bear the loose minuses of their
operands, a value that it has is the one that is meant. -/
theorem evaluate?_stackedWriting (t : Tree) (w : StackedWriting t) :
    (evaluate? w.text =
      if w.phrase.looseMinuses = 0 then finiteOutcome (w.phrase.treeRead none).value
      else .error .missingOperand) ∧
    ∀ v, w.phrase.Harmless → evaluate? w.text = .ok v → v = t.value := by
  refine ⟨evaluate?_text w, fun v hharmless hv => ?_⟩
  rw [evaluate?_text] at hv
  split at hv
  · next hloose =>
    have hvalue := value_treeRead hharmless none
    rw [hloose, w.tree_eq] at hvalue
    exact (eq_of_finiteOutcome hv).trans hvalue
  · cases hv

/-- A product bears the loose minus of its right operand: `3*--2` is six. -/
theorem three_times_two_stacked :
    ∃ (t : Tree) (w : StackedWriting t), w.text = "3*--2".toList ∧ w.phrase.Harmless ∧
      evaluate? w.text = .ok 6.0 ∧ (6.0 : Float) = t.value := by
  let w : StackedWriting (.combination .product (.numeral ⟨['3'], by decide, by decide⟩)
      (.negation (.negation (.numeral ⟨['2'], by decide, by decide⟩)))) :=
    ⟨.none, .binary (.numeral ⟨['3'], by decide, by decide⟩) .none .asterisk .none
      (.minus .none (.minus .none (.numeral ⟨['2'], by decide, by decide⟩))), .none,
      ⟨by decide, by decide, trivial, by decide, by decide, trivial⟩, rfl⟩
  have hharmless : w.phrase.Harmless := ⟨trivial, trivial, trivial⟩
  exact ⟨_, w, rfl, hharmless, by rfl,
    (evaluate?_stackedWriting _ w).2 6.0 hharmless (by rfl)⟩

/-- **A sum does not bear the loose minus of its right operand**: `2+--3` means five and works out
to minus five. -/
theorem two_plus_three_stacked :
    ∃ (t : Tree) (w : StackedWriting t), w.text = "2+--3".toList ∧ t.value = 5.0 ∧
      evaluate? w.text = .ok (-5.0) ∧ (-5.0 : Float) ≠ 5.0 := by
  let w : StackedWriting (.combination .sum (.numeral ⟨['2'], by decide, by decide⟩)
      (.negation (.negation (.numeral ⟨['3'], by decide, by decide⟩)))) :=
    ⟨.none, .binary (.numeral ⟨['2'], by decide, by decide⟩) .none .plus .none
      (.minus .none (.minus .none (.numeral ⟨['3'], by decide, by decide⟩))), .none,
      ⟨by decide, by decide, trivial, by decide, by decide, trivial⟩, rfl⟩
  refine ⟨_, w, rfl, by rfl, by rfl, fun h => ?_⟩
  exact absurd (congrArg Float.toBits h) (by decide)

end RunningTab.Expr
