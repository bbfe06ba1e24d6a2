import Mathlib.Data.List.Basic
import RunningTab.Proofs.Expr.Fault

/-!
# What is refused of a text

The lexical failures of an evaluation, stated on the text as it was typed and without a word about
percents being written out. A character offends (`RunningTab.Expr.OffendsAt`) unless expressions are
written with it, or it is a percent sign directly behind a digit or a dot. A maximal run of digits
and dots is faulty (`RunningTab.Expr.FaultyRunAt`) unless it has a digit and at most one dot. The
first offending character is refused, and if there is none, the first faulty run
(`RunningTab.Expr.evaluate?_lexical`).

Both inductions go along the text, or its pieces, with what has been passed before it; what carries
them is that nothing passed was at fault, so that the first fault of the whole text is the first one
from there on (`RunningTab.Expr.FirstFrom`).
-/

namespace RunningTab.Expr

open Decimal (isFigure isPlainNumeral)

/-! ### Faults of a text -/

/-- The characters that expressions are written with. -/
def isWritten (c : Char) : Bool :=
  isFigure c || "+-*/()x÷".toList.contains c || Text.isBlank c

/-- A digit or a dot stands directly before an index. -/
def FigureBefore (t : Text) (i : Nat) : Prop :=
  ∃ j c, i = j + 1 ∧ t[j]? = some c ∧ isFigure c = true

/-- **The character at an index offends**: expressions are not written with it, and it is not a
percent sign directly behind a digit or a dot. -/
def OffendsAt (t : Text) (i : Nat) (c : Char) : Prop :=
  t[i]? = some c ∧ isWritten c = false ∧ ¬(c = '%' ∧ FigureBefore t i)

/-- A maximal run of digits and dots starts at an index. -/
def RunAt (t : Text) (i : Nat) (r : Text) : Prop :=
  r ≠ [] ∧ ¬FigureBefore t i ∧ (t.drop i).takeWhile isFigure = r

/-- **The maximal run at an index is faulty**: it has no digit, or more than one dot. -/
def FaultyRunAt (t : Text) (i : Nat) (r : Text) : Prop :=
  RunAt t i r ∧ ((∀ c ∈ r, Text.isDigit c = false) ∨ 1 < r.count '.')

/-- What is the case at the first index, from `n` on, where something is the case. -/
def FirstFrom {α : Type} (n : Nat) (P : Nat → α → Prop) (x : α) : Prop :=
  ∃ i, n ≤ i ∧ P i x ∧ ∀ j y, n ≤ j → j < i → ¬P j y

/-! ### The first from an index on -/

section

variable {α : Type} {n m : Nat} {P : Nat → α → Prop} {x y : α}

/-- What is the case at the start is the first. -/
theorem firstFrom_iff_eq (hx : P n x) (hunique : ∀ y, P n y → y = x) :
    FirstFrom n P y ↔ y = x := by
  constructor
  · rintro ⟨i, hi, hP, hfirst⟩
    rcases Nat.eq_or_lt_of_le hi with rfl | hlt
    · exact hunique y hP
    · exact absurd hx (hfirst n x (Nat.le_refl n) hlt)
  · rintro rfl
    exact ⟨n, Nat.le_refl n, hx, fun j y hj hlt => absurd hlt (Nat.not_lt.2 hj)⟩

/-- What is not the case can be passed. -/
theorem firstFrom_iff_of_le (hnm : n ≤ m) (hno : ∀ i y, n ≤ i → i < m → ¬P i y) :
    FirstFrom n P x ↔ FirstFrom m P x := by
  constructor
  · rintro ⟨i, hi, hP, hfirst⟩
    have hmi : m ≤ i := Nat.not_lt.1 fun hlt => hno i x hi hlt hP
    exact ⟨i, hmi, hP, fun j y hj => hfirst j y (Nat.le_trans hnm hj)⟩
  · rintro ⟨i, hi, hP, hfirst⟩
    refine ⟨i, Nat.le_trans hnm hi, hP, fun j y hj hlt => ?_⟩
    rcases Nat.lt_or_ge j m with hjm | hjm
    · exact hno j y hj hjm
    · exact hfirst j y hjm hlt

theorem not_firstFrom (hno : ∀ i y, n ≤ i → ¬P i y) : ¬FirstFrom n P x :=
  fun ⟨i, hi, hP, _⟩ => hno i x hi hP

/-- Where something is the case there is a first index where it is. -/
theorem forall_not_firstFrom_iff : (∀ x, ¬FirstFrom 0 P x) ↔ ∀ i x, ¬P i x := by
  refine ⟨fun h i => ?_, fun h x => not_firstFrom fun i y _ => h i y⟩
  induction i using Nat.strongRecOn with
  | ind i ih => exact fun x hx => h x ⟨i, Nat.zero_le i, hx, fun j y _ hj => ih j hj y⟩

end

/-! ### Along a text -/

section

variable {t v : Text} {i : Nat} {c : Char}

theorem not_figureBefore_zero (t : Text) : ¬FigureBefore t 0 := by
  rintro ⟨j, c, hj, -⟩
  omega

theorem figureBefore_succ_iff (hc : t[i]? = some c) :
    FigureBefore t (i + 1) ↔ isFigure c = true := by
  constructor
  · rintro ⟨j, d, hj, hd, hfigure⟩
    obtain rfl : i = j := by omega
    rw [hc] at hd
    rwa [Option.some.inj hd]
  · exact fun hfigure => ⟨i, c, rfl, hc, hfigure⟩

theorem getElem?_of_drop (h : t.drop i = c :: v) : t[i]? = some c := by
  have h0 : (t.drop i)[0]? = some c := by rw [h]; rfl
  rwa [List.getElem?_drop, Nat.add_zero] at h0

theorem drop_succ_of_drop (h : t.drop i = c :: v) : t.drop (i + 1) = v := by
  rw [← List.tail_drop, h, List.tail_cons]

end

/-! ### Stray characters -/

/-- With its keypad glyphs replaced, what expressions are written with is the alphabet. -/
theorem isAllowed_plainGlyph (c : Char) : isAllowed (plainGlyph c) = isWritten c := by
  unfold plainGlyph
  split
  · next h => rw [h]; decide
  · next hx =>
    split
    · next h => rw [h]; decide
    · next hdiv => simp [isAllowed, isWritten, hx, hdiv]

theorem plainGlyph_of_not_isWritten {c : Char} (h : isWritten c = false) : plainGlyph c = c := by
  have hx : c ≠ 'x' := by rintro rfl; exact absurd h (by decide)
  have hdiv : c ≠ '÷' := by rintro rfl; exact absurd h (by decide)
  rw [plainGlyph, if_neg hx, if_neg hdiv]

/-- Only whether a figure stands behind is remembered from one character to the next. -/
theorem strayChar?_pieces_cons (afterFigure : Bool) (c : Char) (t : Text) :
    strayChar? afterFigure (pieces (plainGlyphs (c :: t))) =
      if isWritten c || (afterFigure && c == '%') then
        strayChar? (isFigure c) (pieces (plainGlyphs t))
      else some c := by
  rw [plainGlyphs_cons]
  cases hc : isFigure c with
  | true =>
    have hwritten : isWritten c = true := by simp [isWritten, hc]
    rw [plainGlyph_of_isFigure hc, hwritten, Bool.true_or, if_pos rfl]
    -- a run that goes on is one run more or the same: neither matters
    rcases hp : pieces (plainGlyphs t) with _ | ⟨⟨r⟩ | ⟨d⟩, ps⟩
    · rw [pieces_cons_of_figure hc (by rw [hp]; rfl), hp]
      rfl
    · rw [pieces_cons_of_run hc hp]
      rfl
    · rw [pieces_cons_of_figure hc (by rw [hp]; rfl), hp]
      rfl
  | false =>
    rw [pieces_cons_of_mark (by rw [isFigure_plainGlyph, hc]), strayChar?, isAllowed_plainGlyph]
    cases hwritten : isWritten c with
    | true => simp
    | false => rw [plainGlyph_of_not_isWritten hwritten]

/-- **The first stray character is the first one that offends.** -/
theorem strayChar?_eq_some_iff {t v : Text} {i : Nat} {afterFigure : Bool} (hv : t.drop i = v)
    (hafter : afterFigure = true ↔ FigureBefore t i) (c : Char) :
    strayChar? afterFigure (pieces (plainGlyphs v)) = some c ↔ FirstFrom i (OffendsAt t) c := by
  induction v generalizing i afterFigure with
  | nil =>
    have hlength : t.length ≤ i := List.drop_eq_nil_iff.1 hv
    have hno : ∀ j d, i ≤ j → ¬OffendsAt t j d := by
      rintro j d hj ⟨hd, -⟩
      rw [List.getElem?_eq_none (Nat.le_trans hlength hj)] at hd
      exact absurd hd (by simp)
    exact ⟨fun h => absurd h (by simp [plainGlyphs, pieces, strayChar?]),
      fun h => absurd h (not_firstFrom hno)⟩
  | cons d v ih =>
    have hd : t[i]? = some d := getElem?_of_drop hv
    rw [strayChar?_pieces_cons]
    by_cases hpass : (isWritten d || (afterFigure && d == '%')) = true
    · -- nothing offends here, so the search goes on behind this character
      have hno : ∀ j e, i ≤ j → j < i + 1 → ¬OffendsAt t j e := by
        rintro j e hj hlt ⟨he, hwritten, hpercent⟩
        obtain rfl : i = j := by omega
        rw [hd] at he
        obtain rfl : d = e := Option.some.inj he
        simp only [hwritten, Bool.false_or, Bool.and_eq_true, beq_iff_eq] at hpass
        exact hpercent ⟨hpass.2, hafter.1 hpass.1⟩
      rw [if_pos hpass, ih (drop_succ_of_drop hv) (figureBefore_succ_iff hd).symm]
      exact (firstFrom_iff_of_le (Nat.le_succ i) hno).symm
    · have hoffends : OffendsAt t i d := by
        simp only [Bool.or_eq_true, Bool.and_eq_true, beq_iff_eq, not_or, not_and,
          Bool.not_eq_true] at hpass
        exact ⟨hd, hpass.1, fun hp => hpass.2 (hafter.2 hp.2) hp.1⟩
      have hunique : ∀ e, OffendsAt t i e → e = d := fun e he =>
        Option.some.inj (he.1.symm.trans hd)
      rw [if_neg hpass, firstFrom_iff_eq hoffends hunique, Option.some_inj, eq_comm]

/-! ### Faulty runs -/

/-- A run is faulty exactly if it is no plain numeral. -/
theorem not_isPlainNumeral_iff (r : Text) :
    isPlainNumeral r = false ↔ (∀ c ∈ r, Text.isDigit c = false) ∨ 1 < r.count '.' := by
  rw [isPlainNumeral, Bool.and_eq_false_iff, List.any_eq_false, decide_eq_false_iff_not, Nat.not_le]
  simp only [Bool.not_eq_true]

/-- The piece with its keypad glyph replaced. -/
def Piece.plain : Piece → Piece
  | .run r => .run r
  | .mark c => .mark (plainGlyph c)

/-- Keypad glyphs are no figures, so they are replaced piece by piece. -/
theorem pieces_plainGlyphs (t : Text) : pieces (plainGlyphs t) = (pieces t).map Piece.plain := by
  induction t with
  | nil => rfl
  | cons c t ih =>
    rw [plainGlyphs_cons]
    cases hc : isFigure c with
    | true =>
      rw [plainGlyph_of_isFigure hc]
      rcases hp : pieces t with _ | ⟨⟨r⟩ | ⟨d⟩, ps⟩
      · rw [hp] at ih
        rw [pieces_cons_of_figure hc (by rw [ih]; rfl), pieces_cons_of_figure hc (by rw [hp]; rfl),
          ih, hp]
        rfl
      · rw [hp] at ih
        rw [pieces_cons_of_run hc ih, pieces_cons_of_run hc hp]
        rfl
      · rw [hp] at ih
        rw [pieces_cons_of_figure hc (by rw [ih]; rfl), pieces_cons_of_figure hc (by rw [hp]; rfl),
          ih, hp]
        rfl
    | false =>
      rw [pieces_cons_of_mark (by rw [isFigure_plainGlyph, hc]), pieces_cons_of_mark hc, ih]
      rfl

theorem faultyRun?_map_plain (ps : List Piece) :
    faultyRun? (ps.map Piece.plain) = faultyRun? ps := by
  induction ps with
  | nil => rfl
  | cons p ps ih =>
    cases p with
    | run r => exact congrArg (if isPlainNumeral r then · else some r) ih
    | mark c => exact ih

/-- The figures at the start of a run and pieces that do not go on with it are the run. -/
theorem takeWhile_join {r : Text} {ps : List Piece} (h : Apart (.run r :: ps)) :
    (join (.run r :: ps)).takeWhile isFigure = r := by
  obtain ⟨-, hr, hstart, hps⟩ := h
  have hrest : (join ps).takeWhile isFigure = [] := by
    rcases ps with _ | ⟨⟨r'⟩ | ⟨c⟩, ps⟩
    · rfl
    · exact absurd hstart (by simp [startsWithRun])
    · exact List.takeWhile_cons_of_neg (by simp [hps.1])
  change (r ++ join ps).takeWhile isFigure = r
  rw [List.takeWhile_append_of_pos hr, hrest, List.append_nil]

/-- **The first faulty run of the pieces is the first one of the text.** The pieces may be those of
any rest of the text that does not start inside a run. -/
theorem faultyRun?_eq_some_iff {t : Text} {ps : List Piece} {i : Nat} (hps : Apart ps)
    (hdrop : t.drop i = join ps) (hstart : startsWithRun ps = true → ¬FigureBefore t i) (r : Text) :
    faultyRun? ps = some r ↔ FirstFrom i (FaultyRunAt t) r := by
  induction ps generalizing i with
  | nil =>
    have hlength : t.length ≤ i := List.drop_eq_nil_iff.1 hdrop
    have hno : ∀ j s, i ≤ j → ¬FaultyRunAt t j s := by
      rintro j s hj ⟨⟨hne, -, hs⟩, -⟩
      rw [List.drop_eq_nil_of_le (Nat.le_trans hlength hj)] at hs
      exact hne hs.symm
    exact ⟨fun h => absurd h (by simp [faultyRun?]), fun h => absurd h (not_firstFrom hno)⟩
  | cons p ps ih =>
    cases p with
    | mark c =>
      obtain ⟨hc, hps⟩ := hps
      have hdrop' : t.drop i = c :: join ps := hdrop
      have hno : ∀ j s, i ≤ j → j < i + 1 → ¬FaultyRunAt t j s := by
        rintro j s hj hlt ⟨⟨hne, -, hs⟩, -⟩
        obtain rfl : i = j := by omega
        rw [hdrop', List.takeWhile_cons_of_neg (by simp [hc])] at hs
        exact hne hs.symm
      have hbefore : ¬FigureBefore t (i + 1) := by
        rw [figureBefore_succ_iff (getElem?_of_drop hdrop'), hc]
        exact Bool.false_ne_true
      rw [faultyRun?, ih hps (drop_succ_of_drop hdrop') fun _ => hbefore]
      exact (firstFrom_iff_of_le (Nat.le_succ i) hno).symm
    | run q =>
      have htake : (t.drop i).takeWhile isFigure = q := by rw [hdrop, takeWhile_join hps]
      obtain ⟨hne, hq, hnext, hps⟩ := hps
      have hrun : RunAt t i q := ⟨hne, hstart rfl, htake⟩
      rw [faultyRun?]
      by_cases hplain : isPlainNumeral q = true
      · -- no run starts inside this one, and this one is a numeral
        have hno : ∀ j s, i ≤ j → j < i + q.length → ¬FaultyRunAt t j s := by
          rintro j s hj hlt ⟨⟨-, hbefore, hs⟩, hfaulty⟩
          rcases Nat.eq_or_lt_of_le hj with rfl | hij
          · obtain rfl : q = s := htake.symm.trans hs
            rw [(not_isPlainNumeral_iff q).2 hfaulty] at hplain
            exact Bool.false_ne_true hplain
          · obtain ⟨k, rfl⟩ : ∃ k, j = i + k + 1 := ⟨j - i - 1, by omega⟩
            have hk : k < q.length := by omega
            have hfigure : t[i + k]? = some q[k] := by
              rw [← List.getElem?_drop, hdrop]
              change (q ++ join ps)[k]? = some q[k]
              rw [List.getElem?_append_left hk, List.getElem?_eq_getElem hk]
            exact hbefore ((figureBefore_succ_iff hfigure).2 (hq _ (List.getElem_mem hk)))
        have hrest : t.drop (i + q.length) = join ps := by
          rw [← List.drop_drop, hdrop]
          change (q ++ join ps).drop q.length = join ps
          rw [List.drop_left]
        rw [if_pos hplain, ih hps hrest fun h => absurd (hnext.symm.trans h) Bool.false_ne_true]
        exact (firstFrom_iff_of_le (Nat.le_add_right i _) hno).symm
      · have hfaulty : FaultyRunAt t i q :=
          ⟨hrun, (not_isPlainNumeral_iff q).1 (Bool.eq_false_iff.2 hplain)⟩
        have hunique : ∀ s, FaultyRunAt t i s → s = q := fun s hs => hs.1.2.2.symm.trans htake
        rw [if_neg hplain, firstFrom_iff_eq hfaulty hunique, Option.some_inj, eq_comm]

/-! ### The verdict -/

section

variable (t : Text)

theorem strayChar?_text (c : Char) :
    strayChar? false (pieces (plainGlyphs t)) = some c ↔ FirstFrom 0 (OffendsAt t) c :=
  strayChar?_eq_some_iff rfl
    ⟨fun h => absurd h Bool.false_ne_true, fun h => absurd h (not_figureBefore_zero t)⟩ c

theorem faultyRun?_text (r : Text) :
    faultyRun? (pieces (plainGlyphs t)) = some r ↔ FirstFrom 0 (FaultyRunAt t) r := by
  rw [pieces_plainGlyphs, faultyRun?_map_plain]
  exact faultyRun?_eq_some_iff (apart_pieces t) (List.drop_zero.trans (join_pieces t).symm)
    (fun _ => not_figureBefore_zero t) r

theorem strayChar?_text_eq_none_iff :
    strayChar? false (pieces (plainGlyphs t)) = none ↔ ∀ i c, ¬OffendsAt t i c := by
  rw [Option.eq_none_iff_forall_ne_some]
  simp only [ne_eq, strayChar?_text]
  exact forall_not_firstFrom_iff

theorem faultyRun?_text_eq_none_iff :
    faultyRun? (pieces (plainGlyphs t)) = none ↔ ∀ i r, ¬FaultyRunAt t i r := by
  rw [Option.eq_none_iff_forall_ne_some]
  simp only [ne_eq, faultyRun?_text]
  exact forall_not_firstFrom_iff

/-- The first fault of the pieces in terms of the text. -/
theorem lexicalFault?_eq_unknownCharacter_iff (c : Char) :
    lexicalFault? (pieces (plainGlyphs t)) = some (.unknownCharacter c) ↔
      FirstFrom 0 (OffendsAt t) c := by
  rw [← strayChar?_text, lexicalFault?]
  cases strayChar? false (pieces (plainGlyphs t)) <;> simp

theorem lexicalFault?_eq_invalidNumber_iff (r : Text) :
    lexicalFault? (pieces (plainGlyphs t)) = some (.invalidNumber r) ↔
      (∀ i c, ¬OffendsAt t i c) ∧ FirstFrom 0 (FaultyRunAt t) r := by
  rw [← strayChar?_text_eq_none_iff, ← faultyRun?_text, lexicalFault?]
  cases strayChar? false (pieces (plainGlyphs t)) <;> simp

theorem lexicalFault?_eq_none_iff :
    lexicalFault? (pieces (plainGlyphs t)) = none ↔
      (∀ i c, ¬OffendsAt t i c) ∧ ∀ i r, ¬FaultyRunAt t i r := by
  rw [← strayChar?_text_eq_none_iff, ← faultyRun?_text_eq_none_iff, lexicalFault?]
  cases strayChar? false (pieces (plainGlyphs t)) <;> simp

/-- **The lexical verdict on a text.** An unknown character is refused exactly if some character
offends, and it is the first that does. A malformed number is refused exactly if no character
offends and some maximal run of digits and dots is faulty, and it is the first that is. There is no
other lexical failure. -/
theorem evaluate?_lexical :
    (∀ c, evaluate? t = .error (.unknownCharacter c) ↔ FirstFrom 0 (OffendsAt t) c) ∧
      (∀ r, evaluate? t = .error (.invalidNumber r) ↔
        (∀ i c, ¬OffendsAt t i c) ∧ FirstFrom 0 (FaultyRunAt t) r) ∧
      ((∃ e, evaluate? t = .error e ∧ e.kind = .lexical) ↔
        (∃ i c, OffendsAt t i c) ∨ ∃ i r, FaultyRunAt t i r) := by
  refine ⟨fun c => ?_, fun r => ?_, ?_⟩
  · rw [evaluate?_eq_error_iff rfl, lexicalFault?_eq_unknownCharacter_iff]
  · rw [evaluate?_eq_error_iff rfl, lexicalFault?_eq_invalidNumber_iff]
  · have hnone : lexicalFault? (pieces (plainGlyphs t)) ≠ none ↔
        (∃ i c, OffendsAt t i c) ∨ ∃ i r, FaultyRunAt t i r := by
      rw [Ne, lexicalFault?_eq_none_iff, not_and_or]
      simp only [not_forall, not_not]
    rw [← hnone, Option.ne_none_iff_exists']
    constructor
    · rintro ⟨e, he, hkind⟩
      exact ⟨e, (evaluate?_eq_error_iff hkind).1 he⟩
    · rintro ⟨e, he⟩
      have hkind := kind_of_lexicalFault? he
      exact ⟨e, (evaluate?_eq_error_iff hkind).2 he, hkind⟩

end

-- the second percent sign has no figure before it, and characters come before runs
example : evaluate? "1.2.3+4%%".toList = .error (.unknownCharacter '%') := rfl

end RunningTab.Expr
