import Mathlib.Logic.Function.Iterate
import RunningTab.Proofs.Expr.Reading

/-!
# The postfix order of a phrase

Postfix order puts every operator behind its operands, but for one thing: a unary minus releases an
equal one that waits on the stack. So of several minus signs before one operand only the last gets
it. The others come out before the operand is there, and the machine will negate with them what it
has worked out last.

Here this is followed through phrases in which minus signs may be stacked
(`RunningTab.Expr.Phrase.Stacked`). Such a phrase sends the minuses that are not its own ahead
(`RunningTab.Expr.Phrase.looseMinuses`), and they end up at the left operand of the operator that
the phrase stands behind. What is left is the postfix order of another tree
(`RunningTab.Expr.Phrase.treeRead`), as `RunningTab.Expr.postfixFrom_stacked` says. A well-formed
phrase has no loose minuses and is read as the tree that it means.

What carries the induction is what the operators on the stack and the tokens behind the phrase may
be: a phrase comes out whole if the operator on top of the stack binds less tightly than it
(`RunningTab.Expr.Below`) and an operator behind it no more tightly than it
(`RunningTab.Expr.Follows`).
-/

namespace RunningTab.Expr

/-! ### Stacked minus signs -/

namespace Phrase

/-- Whether the phrase is a unary minus with its operand. -/
def isMinus : Phrase → Bool
  | minus _ _ => true
  | _ => false

/-- **The phrases with the parentheses that precedence needs, in which a unary minus may also stand
before another one.** -/
def Stacked : Phrase → Prop
  | numeral _ | percent _ => True
  | parens _ p _ => p.Stacked
  | minus _ p => 3 ≤ p.tightness ∧ p.Stacked
  | binary l _ s _ r =>
    s.tightness ≤ l.tightness ∧ s.tightness < r.tightness ∧ l.Stacked ∧ r.Stacked

/-- **The loose minuses of a phrase**: those that stand before another one with no operand of the
phrase before them, and so come out ahead of everything else in it. -/
def looseMinuses : Phrase → Nat
  | numeral _ | percent _ => 0
  | parens _ p _ => p.looseMinuses
  | minus _ p => if p.isMinus then p.looseMinuses + 1 else p.looseMinuses
  | binary l _ _ _ _ => l.looseMinuses

/-- **The tree that a phrase is read as**: the loose minuses of a right operand negate the left one,
and those of the phrase itself are left out. -/
def treeRead : Option Numeral → Phrase → Tree
  | _, numeral n => .numeral n
  | whole, percent n => .percent whole n
  | _, parens _ p _ => treeRead none p
  | _, minus _ p => if p.isMinus then treeRead none p else .negation (treeRead none p)
  | whole, binary l before s behind r =>
    .combination s.operation (Tree.negation^[r.looseMinuses] (treeRead whole l))
      (treeRead (whole? l before s behind) r)

theorem isMinus_of_tightness {p : Phrase} (h : p.tightness = 4) : p.isMinus = false := by
  cases p with
  | minus gap p => exact absurd h (by decide : ¬3 = 4)
  | _ => rfl

theorem tightness_of_isMinus {p : Phrase} (h : p.isMinus = true) : p.tightness = 3 := by
  cases p with
  | minus gap p => rfl
  | _ => exact absurd h Bool.false_ne_true

theorem tightness_of_not_isMinus {p : Phrase} (h : p.isMinus = false) (htight : 3 ≤ p.tightness) :
    p.tightness = 4 := by
  cases p with
  | minus gap p => exact absurd h.symm Bool.false_ne_true
  | binary l before s behind r => exact absurd htight (Nat.not_le.2 s.tightness_lt)
  | _ => rfl

/-- A well-formed phrase is a stacked one. -/
theorem WellFormed.stacked {p : Phrase} (h : p.WellFormed) : p.Stacked := by
  induction p with
  | numeral n => trivial
  | percent n => trivial
  | parens before p behind ih => exact ih h
  | minus gap p ih => exact ⟨by rw [h.1]; decide, ih h.2⟩
  | binary l before s behind r ihl ihr =>
    obtain ⟨hsl, hsr, hl, hr⟩ := h
    exact ⟨hsl, hsr, ihl hl, ihr hr⟩

/-- **A well-formed phrase has no loose minuses.** -/
theorem WellFormed.looseMinuses_eq {p : Phrase} (h : p.WellFormed) : p.looseMinuses = 0 := by
  induction p with
  | numeral n => rfl
  | percent n => rfl
  | parens before p behind ih => exact ih h
  | minus gap p ih =>
    rw [looseMinuses, isMinus_of_tightness h.1, if_neg Bool.false_ne_true, ih h.2]
  | binary l before s behind r ihl ihr => exact ihl h.2.2.1

/-- **A well-formed phrase is read as the tree that it means.** -/
theorem WellFormed.treeRead_eq {p : Phrase} (h : p.WellFormed) (whole : Option Numeral) :
    p.treeRead whole = p.tree whole := by
  induction p generalizing whole with
  | numeral n => rfl
  | percent n => rfl
  | parens before p behind ih => exact ih h none
  | minus gap p ih =>
    rw [treeRead, isMinus_of_tightness h.1, if_neg Bool.false_ne_true, ih h.2, tree]
  | binary l before s behind r ihl ihr =>
    obtain ⟨-, -, hl, hr⟩ := h
    rw [treeRead, hr.looseMinuses_eq, ihl hl, ihr hr, tree]
    rfl

end Phrase

/-! ### Postfix order -/

/-- The postfix order of a percent. -/
def percentPostfix : Option Numeral → Numeral → List Token
  | none, n => [.number n.value, .number 100.0, .operator .div]
  | some a, n =>
    [.number a.value, .number n.value, .number 100.0, .operator .div, .operator .mul]

/-- The postfix order of a tree. -/
def Tree.postorder : Tree → List Token
  | numeral n => [.number n.value]
  | percent whole n => percentPostfix whole n
  | negation t => t.postorder ++ [.operator .neg]
  | combination op l r => l.postorder ++ r.postorder ++ [.operator op.operator]

/-- The operator on top of the stack, if there is one, binds less tightly than `k`. -/
def Below (k : Nat) : List Waiting → Prop
  | .operator top :: _ => top.precedence < k
  | _ => True

/-- Behind an operand that binds with tightness `k` there may be nothing, a closing parenthesis, or
an operator that binds no more tightly. -/
def Follows (k : Nat) : List Token → Prop
  | [] => True
  | .closing :: _ => True
  | .operator op :: _ => op.precedence ≤ k
  | _ => False

theorem Below.mono {k m : Nat} {st : List Waiting} (h : Below k st) (hkm : k ≤ m) :
    Below m st := by
  rcases st with _ | ⟨⟨top⟩ | _, st⟩
  · trivial
  · exact Nat.lt_of_lt_of_le h hkm
  · trivial

theorem Follows.mono {k m : Nat} {ts : List Token} (h : Follows k ts) (hkm : k ≤ m) :
    Follows m ts := by
  rcases ts with _ | ⟨_ | op | _ | _, ts⟩
  · trivial
  · exact h
  · exact Nat.le_trans h hkm
  · exact h
  · trivial

/-- An operator that binds more tightly than the top of the stack releases nothing. -/
theorem postfixFrom_operator_of_below {op : Operator} {st : List Waiting}
    (h : Below op.precedence st) (ts : List Token) :
    postfixFrom st (.operator op :: ts) = postfixFrom (.operator op :: st) ts := by
  rcases st with _ | ⟨⟨top⟩ | _, st⟩
  · rfl
  · have htop : top.precedence < op.precedence := h
    rw [postfixFrom, Waiting.released, Waiting.kept, if_pos htop, if_pos htop]
    rfl
  · rfl

/-- **An operator comes out** as soon as its second operand is complete. -/
theorem postfixFrom_of_follows {op : Operator} {ts : List Token}
    (h : Follows op.precedence ts) (st : List Waiting) :
    postfixFrom (.operator op :: st) ts = .operator op :: postfixFrom st ts := by
  rcases ts with _ | ⟨_ | next | _ | _, ts⟩
  · rfl
  · exact h.elim
  · have hnext : ¬op.precedence < next.precedence := Nat.not_lt.2 h
    rw [postfixFrom, Waiting.released, Waiting.kept, if_neg hnext, if_neg hnext]
    rfl
  · exact h.elim
  · rfl

/-- What is in parentheses comes out before what is behind them. -/
theorem postfixFrom_parens {ts us : List Token} {st : List Waiting} {rest : List Token}
    (h : postfixFrom (.paren :: st) (ts ++ .closing :: rest) =
      us ++ postfixFrom (.paren :: st) (.closing :: rest)) :
    postfixFrom st (.opening :: (ts ++ [.closing]) ++ rest) = us ++ postfixFrom st rest := by
  have htokens : Token.opening :: (ts ++ [.closing]) ++ rest =
      .opening :: (ts ++ .closing :: rest) := by simp
  rw [htokens]
  exact h

/-- A percent comes out in the postfix order of its arithmetic. -/
theorem postfixFrom_percentTokens (whole : Option Numeral) (n : Numeral) (st : List Waiting)
    (ts : List Token) :
    postfixFrom st (percentTokens whole n ++ ts) = percentPostfix whole n ++ postfixFrom st ts := by
  cases whole <;> rfl

theorem Sign.precedence_operator (s : Sign) : s.operation.operator.precedence = s.tightness := by
  cases s <;> rfl

/-- The loose minuses of a right operand come out behind the left one. -/
theorem Tree.postorder_negations (t : Tree) (n : Nat) :
    (Tree.negation^[n] t).postorder = t.postorder ++ List.replicate n (.operator .neg) := by
  induction n with
  | zero => exact (List.append_nil _).symm
  | succ n ih =>
    rw [Function.iterate_succ_apply', postorder, ih, List.replicate_succ', List.append_assoc]

/-- **The tokens of a stacked phrase come into the postfix order of the tree that it is read as,
behind its loose minuses.** -/
theorem postfixFrom_stacked {p : Phrase} (hp : p.Stacked) (whole : Option Numeral)
    {st : List Waiting} {ts : List Token} (hst : Below p.tightness st)
    (hts : Follows p.tightness ts) :
    postfixFrom st (p.tokens whole ++ ts) =
      List.replicate p.looseMinuses (.operator .neg) ++ (p.treeRead whole).postorder ++
        postfixFrom st ts := by
  induction p generalizing whole st ts with
  | numeral n => rfl
  | percent n => exact postfixFrom_percentTokens whole n st ts
  | parens before p behind ih => exact postfixFrom_parens (ih hp none trivial trivial)
  | minus gap p ih =>
    obtain ⟨htight, hp⟩ := hp
    have hminus : Below Operator.neg.precedence st := hst
    have hbehind : Follows Operator.neg.precedence ts := hts
    rw [Phrase.tokens, List.cons_append, postfixFrom_operator_of_below hminus, Phrase.looseMinuses,
      Phrase.treeRead]
    cases hisMinus : p.isMinus with
    | true =>
      -- the next token is a unary minus, and it releases this one
      have hequal := Phrase.tightness_of_isMinus hisMinus
      have hreleased : postfixFrom (.operator .neg :: st) (p.tokens none ++ ts) =
          .operator .neg :: postfixFrom st (p.tokens none ++ ts) := by
        cases p with
        | minus gap p => exact postfixFrom_of_follows (Nat.le_refl _) st
        | _ => exact absurd hisMinus Bool.false_ne_true
      rw [hreleased, ih hp none (by rwa [hequal]) (by rwa [hequal]), if_pos rfl, if_pos rfl,
        List.replicate_succ]
      rfl
    | false =>
      -- the operand binds more tightly than anything: neither the minus nor what follows cuts it
      have htight := Phrase.tightness_of_not_isMinus hisMinus htight
      have hbelow : Below p.tightness (.operator .neg :: st) := by
        rw [htight]
        exact (by decide : Operator.neg.precedence < 4)
      have hfollows : Follows p.tightness ts :=
        hts.mono (by rw [htight]; exact (by decide : 3 ≤ 4))
      rw [ih hp none hbelow hfollows, postfixFrom_of_follows hbehind, if_neg Bool.false_ne_true,
        if_neg Bool.false_ne_true, Tree.postorder]
      simp only [List.append_assoc, List.cons_append, List.nil_append]
  | binary l before s behind r ihl ihr =>
    obtain ⟨hsl, hsr, hl, hr⟩ := hp
    rw [← s.precedence_operator] at hsl hsr
    -- the sign is what follows the left operand, and what the right one finds on the stack: there
    -- it must bind less tightly, or it would come out before its operand
    have hbelow : Below s.operation.operator.precedence st := by
      rw [s.precedence_operator]
      exact hst
    have hfollows : Follows s.operation.operator.precedence ts := by
      rw [s.precedence_operator]
      exact hts
    have hleft : ∀ us, Follows l.tightness (.operator s.operation.operator :: us) := fun _ => hsl
    have hright : Below r.tightness (.operator s.operation.operator :: st) := hsr
    simp only [Phrase.tokens, Phrase.treeRead, Phrase.looseMinuses, Tree.postorder,
      Tree.postorder_negations, List.append_assoc, List.cons_append, List.nil_append]
    rw [ihl hl whole (hbelow.mono hsl) (hleft _), postfixFrom_operator_of_below hbelow,
      ihr hr _ hright (hfollows.mono (Nat.le_of_lt hsr)), postfixFrom_of_follows hfollows]
    simp only [List.append_assoc]

end RunningTab.Expr
