import Mathlib.Data.List.DropRight
import RunningTab.Proofs.Expr.Conservation
import RunningTab.Proofs.Expr.Reading

/-!
# Parentheses without a partner

Opening parentheses before an expression and closing ones behind it change nothing: not the value,
not the cause of a failure, not one step of the work (`RunningTab.Expr.work_enclosed`). This holds
of every text, whether or not it is an expression.

The first passes carry the parentheses through untouched. A percent is never a share of anything
across one, and a minus sign is a unary one behind an opening parenthesis as it is at the start. So
the tokens of the enclosed text are those of the text, enclosed. In the conversion to postfix order
the opening parentheses lie at the bottom of the stack, where nothing but a closing parenthesis
without a partner sees them, and that one finds no operator there
(`RunningTab.Expr.postfixFrom_append_parens`). The closing ones release at once what the end of the
tokens would release anyway (`RunningTab.Expr.postfixFrom_append_closings`).
-/

namespace RunningTab.Expr

/-! ### The enclosed text -/

/-- The text with opening parentheses before it and closing ones behind it. -/
def enclose (opened closed : Nat) (t : Text) : Text :=
  List.replicate opened '(' ++ t ++ List.replicate closed ')'

theorem plainGlyphs_enclose (m n : Nat) (t : Text) :
    plainGlyphs (enclose m n t) = enclose m n (plainGlyphs t) := by
  have hopening : plainGlyph '(' = '(' := by decide
  have hclosing : plainGlyph ')' = ')' := by decide
  simp only [plainGlyphs, enclose, List.map_append, List.map_replicate, hopening, hclosing]

/-- Behind a text the closing parentheses are pieces of their own. -/
theorem pieces_closings (n : Nat) :
    pieces (List.replicate n ')') = List.replicate n (.mark ')') := by
  induction n with
  | zero => rfl
  | succ n ih =>
    rw [List.replicate_succ, pieces_cons_of_mark (by decide), ih, List.replicate_succ]

/-- The parentheses are pieces of their own. -/
theorem pieces_enclose (m n : Nat) (t : Text) :
    pieces (enclose m n t) =
      List.replicate m (.mark '(') ++ (pieces t ++ List.replicate n (.mark ')')) := by
  have hstart : startsWithRun (pieces (List.replicate n ')')) = false := by
    rw [pieces_closings]
    cases n <;> rfl
  rw [enclose, List.append_assoc]
  induction m with
  | zero => rw [List.replicate_zero, List.nil_append, pieces_append hstart, pieces_closings]; rfl
  | succ m ih =>
    rw [List.replicate_succ, List.cons_append, pieces_cons_of_mark (by decide), ih,
      List.replicate_succ, List.cons_append]

/-! ### Percents -/

/-- Opening parentheses are passed, and nothing that a share hangs on is behind them. -/
theorem sweep_openings (m : Nat) (ps : List Piece) :
    sweep .other (List.replicate m (.mark '(') ++ ps) =
      List.replicate m (.mark '(') ++ sweep .other ps := by
  induction m with
  | zero => rfl
  | succ m ih =>
    rw [List.replicate_succ, List.cons_append, sweep_mark, Behind.past_other, ih, List.cons_append]

/-- Marks without a percent sign are passed. -/
theorem sweep_closings (k : Behind) (n : Nat) :
    sweep k (List.replicate n (.mark ')')) = List.replicate n (.mark ')') := by
  induction n generalizing k with
  | zero => cases k <;> rfl
  | succ n ih => rw [List.replicate_succ, sweep_mark, ih]

/-- Closing parentheses make no percent out of the run before them. -/
theorem sweep_append_closings (k : Behind) (ps : List Piece) (n : Nat) :
    sweep k (ps ++ List.replicate n (.mark ')')) = sweep k ps ++ List.replicate n (.mark ')') := by
  fun_induction sweep k ps with
  | case1 k => exact sweep_closings k n
  | case2 k c ps ih => rw [List.cons_append, sweep_mark, ih, List.cons_append]
  | case3 k b ps ih =>
    rw [List.cons_append, List.cons_append, sweep_percent, ih, List.append_assoc]
  | case4 k b c ps hc ih =>
    have hnext : ∀ qs, (.mark c :: (ps ++ List.replicate n (.mark ')')) : List Piece) ≠
        .mark '%' :: qs := fun qs hqs => hc (by simpa using (List.cons.inj hqs).1)
    rw [List.cons_append, List.cons_append, sweep_run k b hnext, sweep_mark, ih,
      List.cons_append, List.cons_append]
  | case5 k b ps hmark ih =>
    have hnext : ∀ qs, ps ++ List.replicate n (.mark ')') ≠ .mark '%' :: qs := by
      intro qs hqs
      rcases ps with _ | ⟨p, ps⟩
      · cases n <;> simp [List.replicate_succ] at hqs
      · exact hmark '%' ps (by rw [(List.cons.inj hqs).1])
    rw [List.cons_append, sweep_run k b hnext, ih, List.cons_append]

/-- **The parentheses are carried through to the text that the tokens are read from.** -/
theorem plainText_enclose (m n : Nat) (t : Text) :
    plainText (enclose m n t) = enclose m n (plainText t) := by
  rw [plainText, plainText, expandPercents, expandPercents, plainGlyphs_enclose, pieces_enclose,
    writeOutPercents_eq_sweep, writeOutPercents_eq_sweep, sweep_openings, sweep_append_closings]
  simp [join, enclose, Piece.text, List.flatMap_append, List.flatMap_replicate]

/-! ### Tokens -/

/-- Parentheses belong to the alphabet. -/
theorem withinAlphabet_enclose (m n : Nat) (t : Text) :
    withinAlphabet (enclose m n t) = withinAlphabet t := by
  have hopening : isAllowed '(' = true := by decide
  have hclosing : isAllowed ')' = true := by decide
  simp [withinAlphabet, enclose, List.find?_append, hopening, hclosing]

/-- Where an operand is due, opening parentheses are read, and an operand is due again. -/
theorem Reads.openings (m : Nat) (ps : List Piece) :
    Reads true (List.replicate m (.mark '(') ++ ps) (List.replicate m .opening) true ps := by
  induction m with
  | zero => exact Reads.nothing true ps
  | succ m ih => exact (Reads.opening _).trans ih

theorem readTokens_closings (due : Bool) (n : Nat) :
    readTokens due (List.replicate n (.mark ')')) = .ok (List.replicate n .closing) := by
  induction n generalizing due with
  | zero => rfl
  | succ n ih =>
    have hcons : Reads due (.mark ')' :: List.replicate n (.mark ')')) [.closing] false
        (List.replicate n (.mark ')')) := Reads.mark (by decide) rfl _
    rw [List.replicate_succ, hcons, ih]
    rfl

/-- What is read before the closing parentheses is read as without them. -/
theorem readTokens_append_closings (due : Bool) (ps : List Piece) (n : Nat) :
    readTokens due (ps ++ List.replicate n (.mark ')')) =
      (readTokens due ps).map (· ++ List.replicate n .closing) := by
  fun_induction readTokens due ps with
  | case1 due => exact readTokens_closings due n
  | case2 due r ps hr => rw [List.cons_append, readTokens, hr]; rfl
  | case3 due r ps x hr ih =>
    rw [List.cons_append, readTokens, hr]
    dsimp only
    rw [ih]
    cases readTokens false ps <;> rfl
  | case4 due c ps hc ih => rw [List.cons_append, readTokens, if_pos hc, ih]
  | case5 due c ps hc ht => rw [List.cons_append, readTokens, if_neg hc, ht]; rfl
  | case6 due c ps hc t ht ih =>
    rw [List.cons_append, readTokens, if_neg hc, ht]
    dsimp only
    rw [ih]
    cases readTokens t.beforeOperand ps <;> rfl

/-- **The tokens of the enclosed text** are those of the text, enclosed. -/
theorem allowedTokens_enclose (m n : Nat) (t : Text) :
    allowedTokens (enclose m n t) =
      (allowedTokens t).map fun ts =>
        List.replicate m .opening ++ (ts ++ List.replicate n .closing) := by
  rw [allowedTokens, allowedTokens, withinAlphabet_enclose, tokensOf, tokensOf, pieces_enclose,
    Reads.openings m, readTokens_append_closings]
  cases withinAlphabet t with
  | error e => rfl
  | ok _ => cases readTokens true (pieces t) <;> rfl

/-! ### Postfix order -/

namespace Waiting

/-- Parentheses at the bottom of the stack hold no operator. -/
theorem flush_append_parens (st : List Waiting) (j : Nat) :
    flush (st ++ List.replicate j .paren) = flush st := by
  induction st with
  | nil =>
    induction j with
    | zero => rfl
    | succ j ih => exact ih
  | cons w st ih => cases w <;> simp [flush, ih]

theorem released_append_parens (op : Operator) (st : List Waiting) (j : Nat) :
    released op (st ++ List.replicate j .paren) = released op st := by
  induction st with
  | nil => cases j <;> rfl
  | cons w st ih => cases w <;> simp [released, ih]

theorem kept_append_parens (op : Operator) (st : List Waiting) (j : Nat) :
    kept op (st ++ List.replicate j .paren) = kept op st ++ List.replicate j .paren := by
  induction st with
  | nil => cases j <;> rfl
  | cons w st ih =>
    cases w with
    | operator top =>
      simp only [List.cons_append, kept, ih]
      split <;> rfl
    | paren => rfl

theorem enclosed_append_parens (st : List Waiting) (j : Nat) :
    enclosed (st ++ List.replicate j .paren) = enclosed st := by
  induction st with
  | nil => cases j <;> rfl
  | cons w st ih => cases w <;> simp [enclosed, ih]

/-- A closing parenthesis takes its partner from the stack, or else the topmost of the parentheses
at the bottom, if there is one. -/
theorem outside_append_parens (st : List Waiting) (j : Nat) :
    ∃ i, outside (st ++ List.replicate j .paren) = outside st ++ List.replicate i .paren := by
  induction st with
  | nil =>
    cases j with
    | zero => exact ⟨0, rfl⟩
    | succ j => exact ⟨j, rfl⟩
  | cons w st ih =>
    cases w with
    | operator top => exact ih
    | paren => exact ⟨j, rfl⟩

end Waiting

/-- **Parentheses at the bottom of the stack do not matter.** -/
theorem postfixFrom_append_parens (ts : List Token) (st : List Waiting) (j : Nat) :
    postfixFrom (st ++ List.replicate j .paren) ts = postfixFrom st ts := by
  induction ts generalizing st j with
  | nil => exact Waiting.flush_append_parens st j
  | cons t ts ih =>
    cases t with
    | number x => exact congrArg (Token.number x :: ·) (ih st j)
    | opening => exact ih (.paren :: st) j
    | closing =>
      obtain ⟨i, hi⟩ := Waiting.outside_append_parens st j
      rw [postfixFrom, postfixFrom, Waiting.enclosed_append_parens, hi, ih]
    | operator op =>
      rw [postfixFrom, postfixFrom, Waiting.released_append_parens, Waiting.kept_append_parens,
        ← List.cons_append, ih]

/-- Opening parentheses before the tokens end up at the bottom of the stack. -/
theorem postfixFrom_openings (m : Nat) (ts : List Token) :
    postfixFrom [] (List.replicate m .opening ++ ts) = postfixFrom [] ts := by
  have hstack : ∀ st, postfixFrom st (List.replicate m .opening ++ ts) =
      postfixFrom (List.replicate m .paren ++ st) ts := by
    induction m with
    | zero => exact fun st => rfl
    | succ m ih =>
      intro st
      rw [List.replicate_succ, List.cons_append, postfixFrom, ih, List.replicate_succ',
        List.append_assoc, List.singleton_append]
  rw [hstack, List.append_nil]
  exact postfixFrom_append_parens ts [] m

/-- Closing parentheses alone release all operators on the stack. -/
theorem postfixFrom_closings (st : List Waiting) (n : Nat) :
    postfixFrom st (List.replicate n .closing) = Waiting.flush st := by
  induction n generalizing st with
  | zero => rfl
  | succ n ih =>
    rw [List.replicate_succ, postfixFrom, ih]
    exact Waiting.enclosed_append_flush_outside st

/-- **Closing parentheses behind the tokens do not matter**: they release what the end releases. -/
theorem postfixFrom_append_closings (st : List Waiting) (ts : List Token) (n : Nat) :
    postfixFrom st (ts ++ List.replicate n .closing) = postfixFrom st ts := by
  induction ts generalizing st with
  | nil => exact postfixFrom_closings st n
  | cons t ts ih => cases t <;> simp only [List.cons_append, postfixFrom, ih]

/-! ### The work -/

/-- Parentheses around a text change nothing in the work on it. -/
theorem work_enclose (m n : Nat) (t : Text) : work (enclose m n t) = work t := by
  rw [work, work, plainText_enclose, allowedTokens_enclose]
  cases allowedTokens (plainText t) with
  | error e => rfl
  | ok ts =>
    have hpostfix : postfixOrder (List.replicate m .opening ++ (ts ++ List.replicate n .closing)) =
        postfixOrder ts := by
      rw [postfixOrder, postfixFrom_openings, postfixFrom_append_closings, postfixOrder]
    simp only [Except.map, hpostfix]

/-- A text ends with closing parentheses, or none, behind what is left without them. -/
theorem exists_rdropWhile_append (t : Text) :
    ∃ n, t = t.rdropWhile (· == ')') ++ List.replicate n ')' := by
  induction t using List.reverseRecOn with
  | nil => exact ⟨0, rfl⟩
  | append_singleton t c ih =>
    rw [List.rdropWhile_concat]
    split
    · next hc =>
      obtain ⟨n, hn⟩ := ih
      refine ⟨n + 1, ?_⟩
      rw [List.replicate_succ', ← List.append_assoc, ← hn, beq_iff_eq.1 hc]
    · exact ⟨0, (List.append_nil _).symm⟩

/-- **Parentheses without a partner never matter.** However many opening parentheses come before a
text and closing ones behind it, all of the work on it stays: its steps, and the value or the cause
why there is none. So the closing parentheses at the end of a text can be left out. -/
theorem work_enclosed (t : Text) :
    (∀ m n, work (List.replicate m '(' ++ t ++ List.replicate n ')') = work t) ∧
      work (t.rdropWhile (· == ')')) = work t := by
  refine ⟨fun m n => work_enclose m n t, ?_⟩
  obtain ⟨n, hn⟩ := exists_rdropWhile_append t
  calc work (t.rdropWhile (· == ')'))
      = work (enclose 0 n (t.rdropWhile (· == ')'))) := (work_enclose 0 n _).symm
    _ = work t := congrArg work hn.symm

end RunningTab.Expr
