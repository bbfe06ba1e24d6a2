import Mathlib.Data.List.Count
import RunningTab.Proofs.Expr.Conservation
import RunningTab.Proofs.Expr.Depth
import RunningTab.Proofs.Expr.Fault

/-!
# Numbers next to each other

No pass of an evaluation looks whether two numbers stand next to each other. Such a text is refused
because an operator is missing, and that is noticed by the machine at the end, when more than one
value is left. What the machine counts is the depth of its stack: a run succeeds only if there is
one number more than there are operators of two operands
(`RunningTab.Expr.countP_isNumber_of_ok`), and postfix order changes neither count
(`RunningTab.Expr.postfixFrom_perm`).

So an operator that is missing between two numbers may be made up for by one elsewhere. Among the
numbers and the operators of two operands alone (`RunningTab.Expr.spine`) that is a stray operator:
one at the start, or one with no number behind it (`RunningTab.Expr.Stray`). A text with two numbers
next to each other is refused as malformed unless there is one
(`RunningTab.Expr.malformed_or_stray`); and `1 2+` is three.
-/

namespace RunningTab.Expr

/-- Two numbers stand next to each other. -/
def Adjacent (ts : List Token) : Prop :=
  ∃ before x y behind, ts = before ++ .number x :: .number y :: behind

/-- **The numbers and the operators of two operands**, in their order. -/
def spine (ts : List Token) : List Token :=
  ts.filter fun t => t.isNumber || t.isBinary

/-- **A stray operator**: of the numbers and the operators of two operands it is the first, or the
next one is no number. -/
def Stray (ts : List Token) : Prop :=
  ∃ before op behind, spine ts = before ++ .operator op :: behind ∧
    (before = [] ∨ behind.head?.any Token.isNumber = false)

/-! ### What the machine counts -/

/-- What passes a test is counted among what passes a weaker one. -/
theorem countP_filter_of_imp {p q : Token → Bool} (h : ∀ t, p t = true → q t = true)
    (ts : List Token) : (ts.filter q).countP p = ts.countP p := by
  rw [List.countP_filter]
  refine List.countP_congr fun t _ => ?_
  rw [Bool.and_eq_true, and_iff_left_of_imp (h t)]

/-- The count of numbers, or of operators, is the same in postfix order. -/
theorem countP_postfixOrder {p : Token → Bool} (hp : ∀ t, p t = true → (!t.isParen) = true)
    (ts : List Token) : (postfixOrder ts).countP p = ts.countP p := by
  rw [postfixOrder, (postfixFrom_perm [] ts).countP_eq]
  exact countP_filter_of_imp hp ts

theorem Token.not_isParen_of_isNumber (t : Token) (h : t.isNumber = true) :
    (!t.isParen) = true := by
  cases t with
  | number x => rfl
  | operator op => exact absurd h Bool.false_ne_true
  | opening => exact absurd h Bool.false_ne_true
  | closing => exact absurd h Bool.false_ne_true

theorem Token.not_isParen_of_isBinary (t : Token) (h : t.isBinary = true) :
    (!t.isParen) = true := by
  cases t with
  | number x => rfl
  | operator op => rfl
  | opening => exact absurd h Bool.false_ne_true
  | closing => exact absurd h Bool.false_ne_true

/-- Tokens that work out have one number more than operators of two operands. -/
theorem countP_isNumber_of_ok {ts : List Token} {x : Float}
    (h : (runPostfix (postfixOrder ts)).outcome = .ok x) :
    ts.countP Token.isNumber = ts.countP Token.isBinary + 1 := by
  have hdepth := ((outcome_runPostfix_iff _).2.1.1 ⟨x, h⟩).2
  rw [depth_eq_countP, countP_postfixOrder Token.not_isParen_of_isNumber,
    countP_postfixOrder Token.not_isParen_of_isBinary] at hdepth
  omega

/-! ### Stray operators -/

/-- Behind every operator there is a number. -/
def Served (ts : List Token) : Prop :=
  ∀ before op behind, ts = before ++ .operator op :: behind →
    behind.head?.any Token.isNumber = true

/-- Operators with a number behind each are no more than the numbers, and fewer if a number is the
first. -/
theorem countP_isBinary_add_le {ts : List Token} (h : Served ts) :
    ts.countP Token.isBinary + (if ts.head?.any Token.isNumber then 1 else 0) ≤
      ts.countP Token.isNumber := by
  induction ts with
  | nil => exact Nat.le_refl 0
  | cons t ts ih =>
    have hrest : Served ts := fun before op behind hts =>
      h (t :: before) op behind (by rw [hts, List.cons_append])
    have hle := ih hrest
    rw [List.head?_cons, Option.any_some, List.countP_cons, List.countP_cons]
    cases t with
    | number x =>
      rw [if_neg (show ¬Token.isBinary (.number x) = true from Bool.false_ne_true)]
      exact Nat.add_le_add_right (Nat.le_trans (Nat.le_add_right _ _) hle) 1
    | operator op =>
      rw [if_pos (h [] op ts rfl)] at hle
      rw [if_neg (show ¬Token.isNumber (.operator op) = true from Bool.false_ne_true)]
      split <;> omega
    | opening => exact Nat.le_trans (Nat.le_add_right _ _) hle
    | closing => exact Nat.le_trans (Nat.le_add_right _ _) hle

theorem Served.behind {ts us : List Token} (h : Served (ts ++ us)) : Served us :=
  fun ahead op rest hsplit =>
    h (ts ++ ahead) op rest (by rw [hsplit, List.append_assoc])

/-- Up to a number the operators stay served: the number itself serves the last one. -/
theorem Served.upTo {ts us : List Token} {x : Float} (h : Served (ts ++ .number x :: us)) :
    Served (ts ++ [.number x]) := by
  intro ahead op rest hsplit
  have hnext := h ahead op (rest ++ us) (by
    rw [← List.cons_append, ← List.append_assoc, ← hsplit, List.append_assoc]
    rfl)
  cases rest with
  | nil => exact absurd (List.append_inj_right' hsplit rfl) (by simp)
  | cons t rest => exact hnext

theorem served_spine {ts : List Token} (h : ¬Stray ts) : Served (spine ts) := by
  intro before op behind hsplit
  by_contra hnext
  exact h ⟨before, op, behind, hsplit, Or.inr (Bool.eq_false_iff.2 hnext)⟩

theorem isNumber_head?_spine {ts : List Token} (h : ¬Stray ts) (hne : spine ts ≠ []) :
    (spine ts).head?.any Token.isNumber = true := by
  cases hspine : spine ts with
  | nil => exact absurd hspine hne
  | cons t rest =>
    have hmem : t ∈ spine ts := by rw [hspine]; exact List.mem_cons_self
    have ht := (List.mem_filter.1 hmem).2
    cases t with
    | number z => rfl
    | operator op => exact absurd ⟨[], op, rest, hspine, Or.inl rfl⟩ h
    | opening => exact absurd ht Bool.false_ne_true
    | closing => exact absurd ht Bool.false_ne_true

theorem countP_isNumber_spine (ts : List Token) :
    (spine ts).countP Token.isNumber = ts.countP Token.isNumber :=
  countP_filter_of_imp (fun t h => by rw [h, Bool.true_or]) ts

theorem countP_isBinary_spine (ts : List Token) :
    (spine ts).countP Token.isBinary = ts.countP Token.isBinary :=
  countP_filter_of_imp (fun t h => by rw [h, Bool.or_true]) ts

/-- **Two numbers next to each other and no stray operator**: an operator of two operands is
missing. -/
theorem countP_isBinary_add_two_le {ts : List Token} (hadjacent : Adjacent ts)
    (hstray : ¬Stray ts) : ts.countP Token.isBinary + 2 ≤ ts.countP Token.isNumber := by
  have hserved := served_spine hstray
  have hfirst := isNumber_head?_spine hstray
  rw [← countP_isNumber_spine, ← countP_isBinary_spine]
  obtain ⟨before, x, y, behind, rfl⟩ := hadjacent
  -- the spine comes apart between the two numbers, and each part has a number to spare
  have hspine : spine (before ++ .number x :: .number y :: behind) =
      (spine before ++ [.number x]) ++ .number y :: spine behind := by
    simp [spine, Token.isNumber]
  rw [hspine] at hserved hfirst ⊢
  have hleft : Served (spine before ++ [.number x]) := by
    rw [List.append_assoc] at hserved
    exact hserved.upTo
  have hne : spine before ++ [.number x] ≠ [] :=
    List.append_ne_nil_of_right_ne_nil _ (List.cons_ne_nil _ _)
  have hhead := hfirst (List.append_ne_nil_of_left_ne_nil hne _)
  rw [List.head?_append_of_ne_nil _ hne] at hhead
  have hcount := Nat.add_le_add (countP_isBinary_add_le hleft)
    (countP_isBinary_add_le hserved.behind)
  rw [if_pos hhead, List.head?_cons, Option.any_some,
    if_pos (show Token.isNumber (.number y) = true from rfl)] at hcount
  simp only [List.countP_append] at hcount ⊢
  omega

/-! ### What is refused -/

/-- **A text with two numbers next to each other is refused as malformed, unless a stray operator
stands in for the one that is missing between them.** Then the numbers are one more than the
operators of two operands, as in a text without a fault, and the text has a value or one that is not
finite. -/
theorem malformed_or_stray {t : Text} {ts : List Token} (htokens : tokensOf (plainText t) = .ok ts)
    (hadjacent : Adjacent ts) :
    (∃ e, evaluate? t = .error e ∧ e.kind = .structural) ∨
      Stray ts ∧ ts.countP Token.isNumber = ts.countP Token.isBinary + 1 ∧
        ∃ x, evaluate? t = finiteOutcome x := by
  have hwork : evaluate? t = (runPostfix (postfixOrder ts)).outcome.bind finiteOutcome := by
    rw [evaluate?, work, allowedTokens_of_tokensOf htokens]
  cases houtcome : (runPostfix (postfixOrder ts)).outcome with
  | error e =>
    rw [houtcome] at hwork
    exact Or.inl ⟨e, hwork, kind_of_outcome_runFrom houtcome⟩
  | ok x =>
    rw [houtcome] at hwork
    have hcount := countP_isNumber_of_ok houtcome
    refine Or.inr ⟨?_, hcount, x, hwork⟩
    by_contra hstray
    have hmissing := countP_isBinary_add_two_le hadjacent hstray
    omega

/-- Two numbers alone are refused. -/
theorem malformed_twelve_three :
    ∃ e, evaluate? "12 3".toList = .error e ∧ e.kind = .structural := by
  have htokens : tokensOf (plainText "12 3".toList) = .ok [.number 12.0, .number 3.0] := by rfl
  refine (malformed_or_stray htokens ⟨[], 12.0, 3.0, [], rfl⟩).resolve_right ?_
  exact fun h => absurd h.2.1 (by decide)

/-- The sign behind two numbers adds them. -/
theorem adjacent_and_accepted :
    ∃ ts, tokensOf (plainText "1 2+".toList) = .ok ts ∧ Adjacent ts ∧
      evaluate? "1 2+".toList = .ok 3.0 :=
  ⟨[.number 1.0, .number 2.0, .operator .add], by rfl, ⟨[], 1.0, 2.0, [.operator .add], rfl⟩,
    by rfl⟩

end RunningTab.Expr
