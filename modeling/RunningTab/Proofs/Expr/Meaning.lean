import RunningTab.Proofs.Expr.Postfix

/-!
# The value of what is written

The tokens of a well-formed phrase come into the postfix order of its tree
(`RunningTab.Expr.postfixFrom_tokens`), and the stack machine runs the postfix order of a tree to
its value (`RunningTab.Expr.outcome_runFrom_postorder`). With the reading of a phrase this makes
every writing of a tree work out to the value of the tree (`RunningTab.Expr.outcome_work_writing`).
-/

namespace RunningTab.Expr

/-! ### Postfix order -/

/-- **The tokens of a well-formed phrase come into the postfix order of its tree.** -/
theorem postfixFrom_tokens {p : Phrase} (hp : p.WellFormed) (whole : Option Numeral)
    {st : List Waiting} {ts : List Token} (hst : Below p.tightness st)
    (hts : Follows p.tightness ts) :
    postfixFrom st (p.tokens whole ++ ts) = (p.tree whole).postorder ++ postfixFrom st ts := by
  have hread := postfixFrom_stacked hp.stacked whole hst hts
  rwa [hp.looseMinuses_eq, hp.treeRead_eq, List.replicate_zero, List.nil_append] at hread

/-! ### The machine -/

/-- An operator of two operands takes them from the stack. -/
theorem outcome_runFrom_operator (op : Arithmetic) (a b : Float) (st : List Float)
    (ts : List Token) :
    (runFrom (b :: a :: st) (.operator op.operator :: ts)).outcome =
      (runFrom (op.value a b :: st) ts).outcome := by
  cases op <;> rfl

/-- **The postfix order of a tree runs to its value**, whatever is on the stack and comes next. -/
theorem outcome_runFrom_postorder (t : Tree) (st : List Float) (ts : List Token) :
    (runFrom st (t.postorder ++ ts)).outcome = (runFrom (t.value :: st) ts).outcome := by
  induction t generalizing st ts with
  | numeral n => rfl
  | percent whole n =>
    cases whole with
    | none => exact outcome_runFrom_operator .quotient n.value 100.0 st ts
    | some a =>
      exact (outcome_runFrom_operator .quotient n.value 100.0 (a.value :: st)
        (.operator .mul :: ts)).trans (outcome_runFrom_operator .product a.value _ st ts)
  | negation t ih =>
    rw [Tree.postorder, List.append_assoc, ih]
    rfl
  | combination op l r ihl ihr =>
    simp only [Tree.postorder, List.append_assoc]
    rw [ihl, ihr]
    exact outcome_runFrom_operator op l.value r.value st ts

/-! ### From the text to the value -/

/-- **Every writing of a tree works out to the value of the tree.** The work fails only if the value
is not a finite number, and then it says so. -/
theorem outcome_work_writing (t : Tree) (w : Writing t) :
    (work w.text).outcome =
      if t.value.isFinite then .ok t.value else .error (.nonFinite t.value) := by
  have hpostfix : postfixOrder (w.phrase.tokens none) = t.postorder := by
    have h : postfixFrom [] (w.phrase.tokens none ++ []) =
        (w.phrase.tree none).postorder ++ postfixFrom [] [] :=
      postfixFrom_tokens w.wellFormed none trivial trivial
    rw [List.append_nil, w.tree_eq] at h
    exact h.trans (List.append_nil _)
  have hrun : (runPostfix t.postorder).outcome = .ok t.value := by
    have h := outcome_runFrom_postorder t [] []
    rwa [List.append_nil] at h
  rw [outcome_work (readTokens_writing w), hpostfix, hrun]
  rfl

/-- A share is one of the numeral before the sign, not of the product that ends with it; a blank
makes the percent one of one. -/
example : (work "2*5+3%".toList).outcome = .ok 10.15 ∧
    (work "2*5 +3%".toList).outcome = .ok 10.03 :=
  ⟨by rfl, by rfl⟩

end RunningTab.Expr
