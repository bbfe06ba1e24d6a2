import RunningTab.Ledger.Typing
import RunningTab.Proofs.Expr.Completion

/-!
# The parenthesis key

What the parenthesis key inserts (`RunningTab.parenFor`) is chosen by three things: whether more
parentheses are open than closed, and whether the last character is one of some that an operand has
to follow, or one of some that an operand may end with. It does not read the expression. Still, an
expression that can be completed can be completed with the inserted text as well
(`RunningTab.completable_append_parenFor`), unless the last character tells it something wrong
(`RunningTab.Misleading`): the asterisk and the slash are not among the first characters, the
percent sign and the dot not among the second. In all these cases the inserted text is wrong
(`RunningTab.not_completable_append_parenFor`); behind a lone dot any would be.
-/

namespace RunningTab

open Decimal (isFigure)
open RunningTab.Expr (Completable Numeral Phrase Place Sign Stage)
open RunningTab.Expr.Stage (Runs)
open Text (isBlank isDigit)

variable {stacked : Bool} {g g' : Stage} {c : Char} {s : Text}

/-! ### What is inserted -/

/-- More parentheses are open than closed. -/
def IsOpen (t : Text) : Prop :=
  t.count ')' < t.count '('

instance (t : Text) : Decidable (IsOpen t) :=
  inferInstanceAs (Decidable (_ < _))

/-- **The last character is misleading**: with a parenthesis open it is a sign that is not looked
for, or a dot with no digit before it; otherwise it is one that ends an operand and is not looked
for. -/
def Misleading (s : Text) : Prop :=
  ∃ t c, s = t ++ [c] ∧
    if IsOpen s then
      c = '*' ∨ c = '/' ∨ c = '.' ∧ ∀ d ∈ t.getLast?, isDigit d = false
    else c = '%' ∨ c = '.'

/-- **The choice of the parenthesis key**, by the last character. -/
theorem parenFor_concat (t : Text) (c : Char) :
    parenFor (t ++ [c]) =
      if IsOpen (t ++ [c]) ∧ c ∉ ['(', '+', '-', 'x', '÷'] then [')']
      else if isDigit c = true ∨ c = ')' then ['x', '('] else ['('] := by
  have hchars : "(+-x÷".toList = ['(', '+', '-', 'x', '÷'] := rfl
  simp only [parenFor, List.getLast?_concat, Option.any_some, hchars, IsOpen, Bool.and_eq_true,
    Bool.not_eq_true', decide_eq_true_eq, Bool.or_eq_true, beq_iff_eq, ← Bool.not_eq_true,
    List.contains_iff_mem]
  rfl

theorem isDigit_or_of_isFigure (hc : isFigure c = true) : isDigit c = true ∨ c = '.' := by
  rwa [isFigure, Bool.or_eq_true, beq_iff_eq] at hc

/-- Where an operand is due, an opening parenthesis is inserted. -/
theorem parenFor_of_due {free : Bool} (h : (Place.due free).Ends s) (hs : ¬ Misleading s) :
    parenFor s = ['('] := by
  rcases h with rfl | ⟨before, c, rfl, hc⟩
  · rfl
  · have hopen : IsOpen (before ++ [c]) → c ≠ '*' ∧ c ≠ '/' := fun hopen =>
      not_or.1 fun hbad => hs ⟨before, c, rfl, by
        rw [if_pos hopen]
        exact hbad.imp_right Or.inl⟩
    rw [parenFor_concat]
    rcases hc with rfl | ⟨s, rfl⟩
    · simp [isDigit]
    · cases s <;> simp_all [Sign.char, isDigit]

/-- A numeral at the end is whole: a dot with no digit in the numeral would be misleading. -/
theorem exists_numeral_of_figures {f : Text} (h : (Place.figures f).Ends s)
    (hs : ¬ Misleading s) : ∃ n : Numeral, n.chars = f := by
  obtain ⟨before, rfl, hbefore, hf, hdots, hne⟩ := h
  obtain ⟨front, c, rfl⟩ := f.eq_nil_or_concat'.resolve_left hne
  -- all figures are dots otherwise, so there is one, and what stands before it is no figure
  have hdigit : ∃ d ∈ front ++ [c], isDigit d = true := by
    by_contra hnone
    simp only [not_exists, not_and, Bool.not_eq_true] at hnone
    obtain rfl : c = '.' := (isDigit_or_of_isFigure (hf c (by simp))).resolve_left
      (by rw [hnone c (by simp)]; exact Bool.false_ne_true)
    have hlast : ∀ d ∈ (before ++ front).getLast?, isDigit d = false := by
      intro d hd
      rcases front.eq_nil_or_concat' with rfl | ⟨front, last, rfl⟩
      · rw [List.append_nil] at hd
        exact (Bool.or_eq_false_iff.1 (hbefore d hd)).1
      · rw [← List.append_assoc, List.getLast?_concat, Option.mem_some_iff] at hd
        exact hnone d (by simp [hd])
    refine hs ⟨before ++ front, '.', (List.append_assoc ..).symm, ?_⟩
    split
    · exact Or.inr (Or.inr ⟨rfl, hlast⟩)
    · exact Or.inr rfl
  refine ⟨⟨front ++ [c], List.all_eq_true.2 hf, ?_⟩, rfl⟩
  rw [Decimal.isPlainNumeral, Bool.and_eq_true, decide_eq_true_eq, List.any_eq_true]
  exact ⟨hdigit, hdots⟩

/-- Behind a numeral a closing parenthesis is inserted, or an opening one with a multiplication. -/
theorem parenFor_of_figures {f : Text} (h : (Place.figures f).Ends s) (hs : ¬ Misleading s) :
    parenFor s = if IsOpen s then [')'] else ['x', '('] := by
  obtain ⟨before, rfl, -, hf, -, hne⟩ := h
  obtain ⟨front, c, rfl⟩ := f.eq_nil_or_concat'.resolve_left hne
  have hc : isFigure c = true := hf c (by simp)
  rw [← List.append_assoc] at hs ⊢
  rw [parenFor_concat]
  by_cases hopen : IsOpen (before ++ front ++ [c])
  · have hnot : c ∉ ['(', '+', '-', 'x', '÷'] := by
      simp only [List.mem_cons, List.not_mem_nil, or_false]
      rintro (rfl | rfl | rfl | rfl | rfl) <;> exact absurd hc (by decide)
    rw [if_pos hopen, if_pos ⟨hopen, hnot⟩]
  · have hdot : c ≠ '.' := fun hbad => hs ⟨before ++ front, c, rfl, by
      rw [if_neg hopen]
      exact Or.inr hbad⟩
    rw [if_neg (fun h => hopen h.1), if_neg hopen,
      if_pos (Or.inl ((isDigit_or_of_isFigure hc).resolve_right hdot))]

/-- So behind any other operand. -/
theorem parenFor_of_done (h : Place.done.Ends s) (hs : ¬ Misleading s) :
    parenFor s = if IsOpen s then [')'] else ['x', '('] := by
  obtain ⟨before, c, rfl, hc⟩ := h
  rw [parenFor_concat]
  by_cases hopen : IsOpen (before ++ [c])
  · rw [if_pos hopen, if_pos ⟨hopen, by rcases hc with rfl | rfl <;> decide⟩]
  · have hpercent : c ≠ '%' := fun hbad => hs ⟨before, c, rfl, by
      rw [if_neg hopen]
      exact Or.inl hbad⟩
    rw [if_neg (fun h => hopen h.1), if_neg hopen, if_pos (Or.inr (hc.resolve_left hpercent))]

/-! ### Completing with it -/

/-- Behind a whole operand, what is inserted can be read. -/
theorem exists_runs_of_whole (hg : g.Matches s) (hwhole : g.place.Whole)
    (hparen : parenFor s = if IsOpen s then [')'] else ['x', '(']) :
    ∃ g', Runs stacked g (parenFor s) g' := by
  obtain ⟨d, place⟩ := g
  have hdepth := hg.depth
  rw [hparen]
  by_cases hopen : IsOpen s
  · rw [if_pos hopen]
    rw [IsOpen] at hopen
    obtain ⟨d, rfl⟩ : ∃ e, d = e + 1 := ⟨d - 1, by dsimp only at hdepth; omega⟩
    exact ⟨_, _, .closing d hwhole, rfl⟩
  · rw [if_neg hopen]
    exact ⟨_, _, .sign d hwhole .cross, _, .opening d true, rfl⟩

/-- **What is inserted can be read**, unless the last character is misleading. -/
theorem exists_runs_parenFor (hg : g.Matches s) (hs : ¬ Misleading s) :
    ∃ g', Runs stacked g (parenFor s) g' := by
  obtain ⟨d, place⟩ := g
  have hends := hg.ends
  cases place with
  | due free =>
    rw [parenFor_of_due hends hs]
    exact ⟨_, _, .opening d free, rfl⟩
  | figures f =>
    obtain ⟨n, rfl⟩ := exists_numeral_of_figures hends hs
    exact exists_runs_of_whole hg (.figures n) (parenFor_of_figures hends hs)
  | done => exact exists_runs_of_whole hg .done (parenFor_of_done hends hs)

/-- A dot at the end of a numeral stands behind a digit. -/
theorem exists_digit_before_dot (n : Numeral) {front : Text} (h : n.chars = front ++ ['.']) :
    ∃ d ∈ front.getLast?, isDigit d = true := by
  have hplain := n.plain
  rw [Decimal.isPlainNumeral, Bool.and_eq_true, decide_eq_true_eq, List.any_eq_true, h] at hplain
  obtain ⟨⟨e, he, hdigit⟩, hdots⟩ := hplain
  rcases front.eq_nil_or_concat' with rfl | ⟨front, d, rfl⟩
  · rw [List.nil_append, List.mem_singleton] at he
    rw [he] at hdigit
    exact absurd hdigit (by decide)
  · have hd : isFigure d = true := n.isFigure_of_mem d (by rw [h]; simp)
    refine ⟨d, by simp, (isDigit_or_of_isFigure hd).resolve_right ?_⟩
    rintro rfl
    simp at hdots

/-- **What is inserted behind a misleading character cannot be read.** -/
theorem not_runs_parenFor (hg : g.Matches s) (hs : Misleading s) :
    ¬ Runs stacked g (parenFor s) g' := by
  obtain ⟨t, c, rfl, hc⟩ := hs
  obtain ⟨d, place⟩ := g
  have hends := hg.ends
  rw [parenFor_concat]
  by_cases hopen : IsOpen (t ++ [c])
  · -- a closing parenthesis, and no whole operand before it
    rw [if_pos hopen] at hc
    have hnot : c ∉ ['(', '+', '-', 'x', '÷'] := by
      rcases hc with rfl | rfl | ⟨rfl, -⟩ <;> decide
    rw [if_pos ⟨hopen, hnot⟩]
    rintro ⟨between, hnext, -⟩
    have hwhole : place.Whole := hnext.whole_of_closing
    cases hwhole with
    | figures n =>
      obtain ⟨before, htext, -⟩ := hends
      obtain ⟨front, e, hn⟩ := n.chars.eq_nil_or_concat'.resolve_left n.chars_ne_nil
      have he : isFigure e = true := n.isFigure_of_mem e (by rw [hn]; simp)
      rw [hn, ← List.append_assoc] at htext
      obtain ⟨rfl, hce⟩ := List.append_inj' htext rfl
      obtain rfl : c = e := List.singleton_inj.1 hce
      rcases hc with rfl | rfl | ⟨rfl, hlone⟩
      · exact absurd he (by decide)
      · exact absurd he (by decide)
      · obtain ⟨digit, hlast, hdigit⟩ := exists_digit_before_dot n hn
        have hlast' : digit ∈ (before ++ front).getLast? := by
          rw [List.getLast?_append, hlast]
          rfl
        rw [hlone digit hlast'] at hdigit
        cases hdigit
    | done =>
      obtain ⟨before, e, htext, he⟩ := hends
      obtain rfl : c = e := List.singleton_inj.1 (List.append_inj' htext rfl).2
      rcases he with rfl | rfl <;> simp at hc
  · -- an opening parenthesis behind an operand
    rw [if_neg hopen] at hc
    have hnot : ¬ (isDigit c = true ∨ c = ')') := by
      rcases hc with rfl | rfl <;> decide
    rw [if_neg fun h => hopen h.1, if_neg hnot]
    rintro ⟨between, hnext, -⟩
    obtain ⟨free, rfl⟩ : ∃ free, place = .due free := hnext.due_of_opening
    rcases hends with hnil | ⟨before, e, htext, he⟩
    · simp at hnil
    · obtain rfl : c = e := List.singleton_inj.1 (List.append_inj' htext rfl).2
      rcases he with rfl | ⟨sign, rfl⟩
      · exact absurd hc (by decide)
      · cases sign <;> exact absurd hc (by decide)

/-- No blank is inserted. -/
theorem isBlank_of_mem_parenFor (hc : c ∈ parenFor s) : isBlank c = false := by
  rw [parenFor] at hc
  split at hc
  · obtain rfl : c = ')' := by simpa using hc
    rfl
  · split at hc
    · obtain rfl | rfl : c = 'x' ∨ c = '(' := by simpa using hc
      · rfl
      · rfl
    · obtain rfl : c = '(' := by simpa using hc
      rfl

theorem not_blank_append_parenFor (h : ∀ c ∈ s, isBlank c = false) :
    ∀ c ∈ s ++ parenFor s, isBlank c = false :=
  List.forall_mem_append.2 ⟨h, fun _ hc => isBlank_of_mem_parenFor hc⟩

theorem completable_apt_append_parenFor (hblank : ∀ c ∈ s, isBlank c = false)
    (hs : ¬ Misleading s) (h : Completable (Phrase.Apt stacked) s) :
    Completable (Phrase.Apt stacked) (s ++ parenFor s) := by
  rw [Expr.completable_iff_exists_runs (not_blank_append_parenFor hblank)]
  obtain ⟨g, hrun⟩ := (Expr.completable_iff_exists_runs hblank).1 h
  obtain ⟨g', hparen⟩ := exists_runs_parenFor (Expr.matches_of_runs hrun) hs
  exact ⟨g', Expr.runs_append.2 ⟨g, hrun, hparen⟩⟩

theorem not_completable_apt_append_parenFor (hblank : ∀ c ∈ s, isBlank c = false)
    (hs : Misleading s) : ¬ Completable (Phrase.Apt stacked) (s ++ parenFor s) := by
  rw [Expr.completable_iff_exists_runs (not_blank_append_parenFor hblank)]
  rintro ⟨g', hrun⟩
  obtain ⟨g, hrun, hparen⟩ := Expr.runs_append.1 hrun
  exact not_runs_parenFor (Expr.matches_of_runs hrun) hs hparen

/-- **Behind a misleading character the parenthesis key spoils the expression**, whether a unary
minus may stand before another one or not. -/
theorem not_completable_append_parenFor (hblank : ∀ c ∈ s, isBlank c = false)
    (hs : Misleading s) :
    ¬ Completable Phrase.WellFormed (s ++ parenFor s) ∧
      ¬ Completable Phrase.Stacked (s ++ parenFor s) := by
  rw [← Phrase.apt_false, ← Phrase.apt_true]
  exact ⟨not_completable_apt_append_parenFor hblank hs,
    not_completable_apt_append_parenFor hblank hs⟩

/-- **Behind any other text the parenthesis key keeps an expression completable**, whether a unary
minus may stand before another one or not. -/
theorem completable_append_parenFor (hblank : ∀ c ∈ s, isBlank c = false)
    (hs : ¬ Misleading s) :
    (Completable Phrase.WellFormed s → Completable Phrase.WellFormed (s ++ parenFor s)) ∧
      (Completable Phrase.Stacked s → Completable Phrase.Stacked (s ++ parenFor s)) := by
  rw [← Phrase.apt_false, ← Phrase.apt_true]
  exact ⟨completable_apt_append_parenFor hblank hs, completable_apt_append_parenFor hblank hs⟩

/-- Behind a number in parentheses the key closes them: `5x(2` becomes `5x(2)`. -/
theorem completable_append_parenFor_product :
    let s := "5x(2".toList
    (∀ c ∈ s, isBlank c = false) ∧ ¬ Misleading s ∧ Completable Phrase.WellFormed s ∧
      s ++ parenFor s = "5x(2)".toList ∧ Completable Phrase.WellFormed (s ++ parenFor s) := by
  intro s
  have hblank : ∀ c ∈ s, isBlank c = false := Text.solid_eq_self_iff.1 rfl
  have hs : ¬ Misleading s := by
    rintro ⟨t, c, htext, hc⟩
    obtain rfl : c = '2' := by simpa [s] using congrArg List.getLast? htext.symm
    rw [if_pos (by decide)] at hc
    exact absurd hc (by simp)
  let product : Phrase := .binary (.numeral ⟨['5'], by decide, by decide⟩) .none .cross .none
    (.parens .none (.numeral ⟨['2'], by decide, by decide⟩) .none)
  have h : Completable Phrase.WellFormed s := ⟨product, by decide, [')'], rfl⟩
  exact ⟨hblank, hs, h, rfl, (completable_append_parenFor hblank hs).1 h⟩

/-- The key closes a parenthesis behind an asterisk, and puts an opening one directly behind a
percent and behind the dot of a numeral. -/
theorem parenFor_spoils :
    (∀ s ∈ ["(2*".toList, "5%".toList, "5.".toList], (∀ c ∈ s, isBlank c = false) ∧
      Completable Phrase.WellFormed s ∧ ¬ Completable Phrase.WellFormed (s ++ parenFor s) ∧
      ¬ Completable Phrase.Stacked (s ++ parenFor s)) ∧
    parenFor "(2*".toList = ")".toList ∧ parenFor "5%".toList = "(".toList ∧
      parenFor "5.".toList = "(".toList := by
  have hblank : ∀ s ∈ ["(2*".toList, "5%".toList, "5.".toList], ∀ c ∈ s, isBlank c = false := by
    simp only [List.forall_mem_cons, List.not_mem_nil, false_imp_iff, implies_true, and_true]
    exact ⟨Text.solid_eq_self_iff.1 rfl, Text.solid_eq_self_iff.1 rfl, Text.solid_eq_self_iff.1 rfl⟩
  have hmisleading : ∀ s ∈ ["(2*".toList, "5%".toList, "5.".toList], Misleading s := by
    simp only [List.forall_mem_cons, List.not_mem_nil, false_imp_iff, implies_true, and_true]
    exact ⟨⟨"(2".toList, '*', rfl, by rw [if_pos (by decide)]; exact Or.inl rfl⟩,
      ⟨"5".toList, '%', rfl, by rw [if_neg (by decide)]; exact Or.inl rfl⟩,
      ⟨"5".toList, '.', rfl, by rw [if_neg (by decide)]; exact Or.inr rfl⟩⟩
  have hcompletable : ∀ s ∈ ["(2*".toList, "5%".toList, "5.".toList],
      Completable Phrase.WellFormed s := by
    simp only [List.forall_mem_cons, List.not_mem_nil, false_imp_iff, implies_true, and_true]
    let two : Phrase := .numeral ⟨['2'], by decide, by decide⟩
    exact ⟨⟨.parens .none (.binary two .none .asterisk .none two) .none, by decide,
        ['2', ')'], rfl⟩,
      ⟨.percent ⟨['5'], by decide, by decide⟩, trivial, [], rfl⟩,
      ⟨.numeral ⟨['5', '.'], by decide, by decide⟩, trivial, [], rfl⟩⟩
  refine ⟨fun s hs => ⟨hblank s hs, hcompletable s hs, ?_⟩, rfl, rfl, rfl⟩
  exact not_completable_append_parenFor (hblank s hs) (hmisleading s hs)

end RunningTab
