import RunningTab.Expr.Evaluate
import RunningTab.Proofs.Expr.Pieces

/-!
# Percents, looking back

Writing percents out looks ahead: a numeral is followed up to the percent sign that makes what comes
next a share of it. Here the same pass is told looking back (`RunningTab.Expr.sweep`): it remembers
what stands directly behind it (`RunningTab.Expr.Behind`), and a percent asks that memory what it is
a share of. The two agree on all pieces (`RunningTab.Expr.writeOutPercents_eq_sweep`), and the
second form goes through a text phrase by phrase. It leaves no run with a percent sign behind it
(`RunningTab.Expr.spent_sweep`), and does nothing where there is none.

With it the first passes of an evaluation are one (`RunningTab.Expr.outcome_work`): the tokens are
read off the swept pieces, and the test of the alphabet refuses nothing that has tokens.
-/

namespace RunningTab.Expr

open Decimal (isFigure isPlainNumeral readPlain?)

/-! ### What stands behind -/

/-- What has just been passed. -/
inductive Behind where
  /-- Nothing that a share hangs on. -/
  | other
  /-- A run that no percent sign follows. -/
  | run (a : Text)
  /-- Such a run and, directly after it, a plus or a minus sign. -/
  | sign (a : Text)

/-- What stands behind after a mark. -/
def Behind.past : Behind → Char → Behind
  | .run a, c => if c = '+' ∨ c = '-' then .sign a else .other
  | _, _ => .other

/-- The pieces of `(a*(b/100))`. -/
def share (a b : Text) : List Piece :=
  [.mark '(', .run a, .mark '*'] ++ hundredth b ++ [.mark ')']

/-- What is written for the percent `b`. -/
def Behind.percent : Behind → Text → List Piece
  | .sign a, b => if isPlainNumeral a && isPlainNumeral b then share a b else hundredth b
  | _, b => hundredth b

/-- The pieces with their percents written out, given what stands behind. -/
def sweep : Behind → List Piece → List Piece
  | _, [] => []
  | k, .mark c :: ps => .mark c :: sweep (k.past c) ps
  | k, .run b :: .mark c :: ps =>
    if c = '%' then k.percent b ++ sweep .other ps
    else .run b :: .mark c :: sweep (Behind.past (.run b) c) ps
  | _, .run b :: ps => .run b :: sweep (.run b) ps

@[simp] theorem Behind.past_other (c : Char) : Behind.other.past c = .other := rfl

@[simp] theorem Behind.percent_other (b : Text) : Behind.other.percent b = hundredth b := rfl

@[simp] theorem sweep_mark (k : Behind) (c : Char) (ps : List Piece) :
    sweep k (.mark c :: ps) = .mark c :: sweep (k.past c) ps := by
  simp [sweep]

@[simp] theorem sweep_percent (k : Behind) (b : Text) (ps : List Piece) :
    sweep k (.run b :: .mark '%' :: ps) = k.percent b ++ sweep .other ps := by
  simp [sweep]

/-- A run that no percent sign follows is passed. -/
theorem sweep_run (k : Behind) (b : Text) {ps : List Piece} (h : ∀ qs, ps ≠ .mark '%' :: qs) :
    sweep k (.run b :: ps) = .run b :: sweep (.run b) ps := by
  rcases ps with _ | ⟨⟨r⟩ | ⟨c⟩, ps⟩
  · rfl
  · rfl
  · have hc : c ≠ '%' := fun hc => h ps (by rw [hc])
    simp [sweep, hc]

/-! ### Pieces without percents -/

/-- **No run has a percent sign directly behind it.** The first argument tells whether a run stands
directly before the pieces. -/
def Spent : Bool → List Piece → Prop
  | _, [] => True
  | _, .run _ :: ps => Spent true ps
  | afterRun, .mark c :: ps => (afterRun = true → c ≠ '%') ∧ Spent false ps

/-- Behind a run there is a mark or nothing. -/
theorem Apart.eq_nil_of_run {b : Text} {ps : List Piece} (h : Apart (.run b :: ps))
    (hmark : ∀ c qs, ps = .mark c :: qs → False) : ps = [] := by
  rcases ps with _ | ⟨⟨r⟩ | ⟨c⟩, ps⟩
  · rfl
  · exact absurd h.2.2.1 (by simp [startsWithRun])
  · exact (hmark c ps rfl).elim

/-- What is written for a percent has none, and separates what follows from what is before. -/
theorem spent_percent (k : Behind) (b : Text) {ps : List Piece} (h : Spent false ps) :
    Spent false (k.percent b ++ ps) := by
  have hhundredth : Spent false (hundredth b ++ ps) := by simpa [hundredth, Spent] using h
  cases k with
  | other => exact hhundredth
  | run a => exact hhundredth
  | sign a =>
    rw [Behind.percent]
    split
    · simpa [share, hundredth, Spent] using h
    · exact hhundredth

/-- **Writing percents out leaves no percents.** -/
theorem spent_sweep (k : Behind) {ps : List Piece} (h : Apart ps) : Spent false (sweep k ps) := by
  fun_induction sweep k ps with
  | case1 => trivial
  | case2 k c ps ih => exact ⟨fun hrun => absurd hrun Bool.false_ne_true, ih h.2⟩
  | case3 k b ps ih => exact spent_percent k b (ih h.2.2.2.2)
  | case4 k b c ps hc ih => exact ⟨fun _ => hc, ih h.2.2.2.2⟩
  | case5 k b ps hmark ih =>
    obtain rfl := h.eq_nil_of_run hmark
    trivial

/-- **Where there are no percents, writing them out does nothing.** -/
theorem sweep_of_spent (k : Behind) {ps : List Piece} (h : Spent false ps) : sweep k ps = ps := by
  fun_induction sweep k ps with
  | case1 => rfl
  | case2 k c ps ih => rw [ih h.2]
  | case3 k b ps ih => exact absurd rfl (h.1 rfl)
  | case4 k b c ps hc ih => rw [ih h.2]
  | case5 k b ps hmark ih =>
    rcases ps with _ | ⟨⟨r⟩ | ⟨c⟩, ps⟩
    · rfl
    · rw [ih h]
    · exact (hmark c ps rfl).elim

/-! ### Looking ahead and looking back -/

/-- Only a percent asks what stands behind. -/
theorem sweep_congr {k k' : Behind} {ps : List Piece}
    (h : ∀ b qs, ps = .run b :: .mark '%' :: qs → k.percent b = k'.percent b)
    (hmark : ∀ c qs, ps = .mark c :: qs → k.past c = k'.past c) : sweep k ps = sweep k' ps := by
  rcases ps with _ | ⟨⟨r⟩ | ⟨c⟩, ps⟩
  · rfl
  · by_cases hp : ∃ qs, ps = .mark '%' :: qs
    · obtain ⟨qs, rfl⟩ := hp
      rw [sweep_percent, sweep_percent, h r qs rfl]
    · have hne : ∀ qs, ps ≠ .mark '%' :: qs := fun qs hq => hp ⟨qs, hq⟩
      rw [sweep_run k r hne, sweep_run k' r hne]
  · rw [sweep_mark, sweep_mark, hmark c ps rfl]

/-- A run matters to what comes next only through a sign and a percent. -/
theorem sweep_past_run {a : Text} {s : Char} {ps : List Piece}
    (h : ∀ b qs, ps = .run b :: .mark '%' :: qs → isShare a s b '%' = false) :
    sweep (Behind.past (.run a) s) ps = sweep .other ps := by
  by_cases hs : s = '+' ∨ s = '-'
  · -- the sign keeps the numeral in mind, but the percent that would ask for it is no share
    rw [Behind.past, if_pos hs]
    refine sweep_congr (fun b qs hps => ?_) fun c qs _ => rfl
    have hab := h b qs hps
    have hplain : (isPlainNumeral a && isPlainNumeral b) = false := by
      rcases hs with rfl | rfl <;> simpa [isShare] using hab
    rw [Behind.percent, hplain]
    rfl
  · rw [Behind.past, if_neg hs]

/-- **Looking ahead and looking back write the same pieces.** -/
theorem writeOutPercents_eq_sweep (ps : List Piece) : writeOutPercents ps = sweep .other ps := by
  fun_induction writeOutPercents ps with
  | case1 => rfl
  | case2 c ps ih => rw [sweep_mark, ih, Behind.past_other]
  | case3 a s b l ps hshare ih =>
    simp only [isShare, Bool.and_eq_true, Bool.or_eq_true, beq_iff_eq] at hshare
    obtain ⟨⟨⟨rfl, hs⟩, ha⟩, hb⟩ := hshare
    have hne : ∀ qs, (.mark s :: .run b :: .mark '%' :: ps : List Piece) ≠ .mark '%' :: qs := by
      rintro qs hq
      rcases hs with rfl | rfl <;> simp at hq
    rw [sweep_run .other a hne, sweep_mark, Behind.past, if_pos hs, sweep_percent,
      Behind.percent, ha, hb, ih]
    simp [shareOf, share]
  | case4 a b l ps hshare ih => rw [sweep_percent, Behind.percent_other, ih]
  | case5 a s b l ps hshare hs ih =>
    -- four pieces without a share: the rest may still start with a percent, of one
    have hne : ∀ qs, (.mark s :: .run b :: .mark l :: ps : List Piece) ≠ .mark '%' :: qs :=
      fun qs hq => hs (by simpa using (List.cons.inj hq).1)
    rw [sweep_run .other a hne, sweep_mark, sweep_past_run, ih]
    intro b' qs hq
    obtain ⟨rfl, rfl, -⟩ : b = b' ∧ l = '%' ∧ ps = qs := by simpa using hq
    simpa using hshare
  | case6 a ps hform ih => rw [sweep_percent, Behind.percent_other, ih]
  | case7 a s ps hform hs ih =>
    have hne : ∀ qs, (.mark s :: ps : List Piece) ≠ .mark '%' :: qs :=
      fun qs hq => hs (by simpa using (List.cons.inj hq).1)
    rw [sweep_run .other a hne, sweep_mark, sweep_past_run, ih]
    exact fun b qs hq => (hform b '%' qs hq).elim
  | case8 a ps hlong hshort ih =>
    rw [sweep_run .other a fun qs hq => hshort '%' qs hq, ih]
    exact congrArg _ (sweep_congr (fun _ _ _ => rfl) fun c qs hq => (hshort c qs hq).elim)

/-! ### The first passes in one -/

/-- A piece that a token is read from is allowed. -/
theorem isAllowed_of_markToken {b : Bool} {c : Char} {t : Token}
    (h : markToken? b c = some t) : isAllowed c = true := by
  have hc : "+-*/()".toList.contains c = true := by
    unfold markToken? at h
    repeat' split at h
    all_goals first | (subst_vars; decide) | exact absurd h (by simp)
  rw [isAllowed, hc, Bool.or_true, Bool.true_or]

/-- What can be read behind a map over its outcome can be read without it. -/
theorem exists_ok_of_map {α β : Type} {x : Except Failure α} {f : α → β} {y : β}
    (h : x.map f = .ok y) : ∃ a, x = .ok a := by
  cases x with
  | error e => exact absurd h (by simp [Except.map])
  | ok a => exact ⟨a, rfl⟩

/-- A mark that can be read is allowed, and the pieces behind it can be read. -/
theorem readTokens_mark_eq_ok {b : Bool} {c : Char} {ps : List Piece} {ts : List Token}
    (h : readTokens b (.mark c :: ps) = .ok ts) :
    isAllowed c = true ∧ ∃ b' ts', readTokens b' ps = .ok ts' := by
  rw [readTokens] at h
  split at h
  · next hc => exact ⟨by simp [isAllowed, hc], b, ts, h⟩
  · split at h
    · exact absurd h (by simp)
    · next t ht =>
      obtain ⟨ts', hts⟩ := exists_ok_of_map h
      exact ⟨isAllowed_of_markToken ht, t.beforeOperand, ts', hts⟩

/-- The pieces behind a run can be read if the run and they can. -/
theorem readTokens_run_eq_ok {b : Bool} {r : Text} {ps : List Piece} {ts : List Token}
    (h : readTokens b (.run r :: ps) = .ok ts) : ∃ ts', readTokens false ps = .ok ts' := by
  rw [readTokens] at h
  split at h
  · exact absurd h (by simp)
  · exact exists_ok_of_map h

/-- **What can be read belongs to the alphabet.** -/
theorem isAllowed_of_readTokens {b : Bool} {ps : List Piece} {ts : List Token} (hps : Apart ps)
    (h : readTokens b ps = .ok ts) : ∀ c ∈ join ps, isAllowed c = true := by
  induction ps generalizing b ts with
  | nil =>
    intro c hc
    exact absurd hc (by simp [join])
  | cons p ps ih =>
    cases p with
    | mark d =>
      obtain ⟨hd, b', ts', hrest⟩ := readTokens_mark_eq_ok h
      change ∀ c ∈ d :: join ps, _
      exact List.forall_mem_cons.2 ⟨hd, ih hps.2 hrest⟩
    | run r =>
      obtain ⟨ts', hrest⟩ := readTokens_run_eq_ok h
      obtain ⟨-, hr, -, hps⟩ := hps
      change ∀ c ∈ r ++ join ps, _
      refine List.forall_mem_append.2 ⟨fun c hc => ?_, ih hps hrest⟩
      simp [isAllowed, hr c hc]

/-- The test of the alphabet lets through what passes it. -/
theorem withinAlphabet_eq_ok {t : Text} (h : ∀ c ∈ t, isAllowed c = true) :
    withinAlphabet t = .ok () := by
  have hfind : t.find? (fun c => !isAllowed c) = none :=
    List.find?_eq_none.2 fun c hc => by simp [h c hc]
  rw [withinAlphabet, hfind]

/-- The tokens of a text with its percents written out are read off the swept pieces. -/
theorem tokensOf_plainText (t : Text) :
    tokensOf (plainText t) = readTokens true (sweep .other (pieces (plainGlyphs t))) := by
  rw [tokensOf, plainText, pieces_expandPercents, writeOutPercents_eq_sweep]

/-- **The test of the alphabet refuses nothing that has tokens.** -/
theorem allowedTokens_of_tokensOf {t : Text} {ts : List Token} (h : tokensOf t = .ok ts) :
    allowedTokens t = .ok ts := by
  have hall : ∀ c ∈ join (pieces t), isAllowed c = true :=
    isAllowed_of_readTokens (apart_pieces t) h
  rw [join_pieces] at hall
  rw [allowedTokens, withinAlphabet_eq_ok hall]
  exact h

/-- The work on a text whose swept pieces have tokens. -/
theorem outcome_work {t : Text} {ts : List Token}
    (h : readTokens true (sweep .other (pieces (plainGlyphs t))) = .ok ts) :
    (work t).outcome = (runPostfix (postfixOrder ts)).outcome.bind finiteOutcome := by
  rw [work, allowedTokens_of_tokensOf ((tokensOf_plainText t).trans h)]

end RunningTab.Expr
