import RunningTab.Proofs.Expr.WrittenOut
import RunningTab.Proofs.Text.Words

/-!
# Blanks that mean nothing

Blanks are no tokens, and yet an expression can mean something else without them. There are three
places where they matter, all of them behind a figure: blanks between two figures keep numerals
apart, blanks before a percent sign make it a stray character, and blanks on either side of the sign
of `A+B%` keep `B%` from being a share of `A`. Where no blanks stand at the first two places, and
nothing is a share at the third, the blanks of a text are idle (`RunningTab.Expr.IdleBlanks`), and
texts with idle blanks and the same other characters have the same value
(`RunningTab.Expr.evaluate?_congr`).

The proof drops the blanks from the pieces of a text. The reader of tokens passes them over
(`RunningTab.Expr.readTokens_solidPieces`). Without shares a percent is looked at by itself
(`RunningTab.Expr.hundredths`), and then it does not matter whether blanks are dropped before or
after percents are written out (`RunningTab.Expr.hundredths_solidPieces`). What is left are the
pieces of the text without its blanks (`RunningTab.Expr.solidPieces_pieces`).
-/

namespace RunningTab.Expr

open Decimal (isFigure)
open Text (isBlank solid)

/-! ### What stands behind figures -/

/-- `P d close` holds of the first character `d` of a text that is not blank, if there is one, where
`close` tells whether no blanks come before it. -/
def Meets (P : Char → Bool → Prop) : Text → Prop
  | [] => True
  | c :: t => if isBlank c then ∀ d ∈ (solid t).head?, P d false else P c true

/-- `P` holds of what stands behind any figure of a text. -/
def BehindFigures (P : Char → Bool → Prop) : Text → Prop
  | [] => True
  | c :: t => (isFigure c = true → Meets P t) ∧ BehindFigures P t

/-- **No numeral is broken by blanks**: two figures with nothing but blanks between them stand next
to each other. -/
def WholeNumerals (t : Text) : Prop :=
  BehindFigures (fun d close => isFigure d = true → close = true) t

/-- **No percent sign is cut off by blanks** from the figure before it. -/
def TightPercents (t : Text) : Prop :=
  BehindFigures (fun d close => d = '%' → close = true) t

/-- The characters that belong to the figure before them. -/
def clings (c : Char) : Bool :=
  isFigure c || c == '%'

/-- Characters that belong to the figure before them stand directly behind it. -/
def Clinging (d : Char) (close : Bool) : Prop :=
  clings d = true → close = true

/-- `A+B%` or `A-B%` starts the pieces. -/
def startsWithShare : List Piece → Bool
  | .run a :: .mark s :: .run b :: .mark l :: _ => isShare a s b l
  | _ => false

/-- **A percent of the pieces is a share** of what stands before it. -/
def hasShare : List Piece → Bool
  | [] => false
  | p :: ps => startsWithShare (p :: ps) || hasShare ps

/-- **The blanks of a text are idle.** -/
structure IdleBlanks (t : Text) : Prop where
  clinging : BehindFigures Clinging t
  unshared : hasShare (pieces t) = false

variable {P Q : Char → Bool → Prop} {c : Char} {t u : Text} {ps : List Piece}

instance (p : Char → Bool → Prop) [∀ d close, Decidable (p d close)] :
    DecidablePred (Meets p)
  | [] => inferInstanceAs (Decidable True)
  | c :: _ => inferInstanceAs (Decidable (if isBlank c then _ else _))

instance decidableBehindFigures (p : Char → Bool → Prop) [∀ d close, Decidable (p d close)] :
    DecidablePred (BehindFigures p)
  | [] => inferInstanceAs (Decidable True)
  | _ :: t =>
    have := decidableBehindFigures p t
    inferInstanceAs (Decidable (_ ∧ _))

instance : DecidablePred WholeNumerals :=
  fun t => inferInstanceAs (Decidable (BehindFigures _ t))

theorem meets_cons_of_blank (hc : isBlank c = true) :
    Meets P (c :: t) ↔ ∀ d ∈ (solid t).head?, P d false := by
  rw [Meets, if_pos hc]

theorem meets_cons_of_not_blank (hc : isBlank c = false) : Meets P (c :: t) ↔ P c true := by
  rw [Meets, if_neg (Bool.eq_false_iff.1 hc)]

/-- A blank, and behind it a character that is none. -/
theorem meets_blank_cons {d : Char} (hc : isBlank c = true) (hd : isBlank d = false) :
    Meets P (c :: d :: t) ↔ P d false := by
  rw [meets_cons_of_blank hc, Text.solid_cons_of_not_blank hd]
  simp

theorem Meets.mono (hPQ : ∀ d close, P d close → Q d close) (h : Meets P t) : Meets Q t := by
  cases t with
  | nil => trivial
  | cons c t =>
    cases hc : isBlank c with
    | true =>
      exact (meets_cons_of_blank hc).2 fun d hd => hPQ d _ ((meets_cons_of_blank hc).1 h d hd)
    | false => exact (meets_cons_of_not_blank hc).2 (hPQ c _ ((meets_cons_of_not_blank hc).1 h))

theorem Meets.and (hP : Meets P t) (hQ : Meets Q t) :
    Meets (fun d close => P d close ∧ Q d close) t := by
  cases t with
  | nil => trivial
  | cons c t =>
    cases hc : isBlank c with
    | true =>
      exact (meets_cons_of_blank hc).2 fun d hd =>
        ⟨(meets_cons_of_blank hc).1 hP d hd, (meets_cons_of_blank hc).1 hQ d hd⟩
    | false =>
      exact (meets_cons_of_not_blank hc).2
        ⟨(meets_cons_of_not_blank hc).1 hP, (meets_cons_of_not_blank hc).1 hQ⟩

theorem BehindFigures.and (hP : BehindFigures P t) (hQ : BehindFigures Q t) :
    BehindFigures (fun d close => P d close ∧ Q d close) t := by
  induction t with
  | nil => trivial
  | cons c t ih => exact ⟨fun hc => (hP.1 hc).and (hQ.1 hc), ih hP.2 hQ.2⟩

theorem BehindFigures.mono (hPQ : ∀ d close, P d close → Q d close) (h : BehindFigures P t) :
    BehindFigures Q t := by
  induction t with
  | nil => trivial
  | cons c t ih => exact ⟨fun hc => (h.1 hc).mono hPQ, ih h.2⟩

/-- Behind the last figure of a run stands what comes next. -/
theorem behindFigures_run_append {r : Text} (hne : r ≠ []) (hr : ∀ c ∈ r, isFigure c = true)
    (h : BehindFigures P (r ++ t)) : Meets P t ∧ BehindFigures P t := by
  induction r with
  | nil => exact absurd rfl hne
  | cons c r ih =>
    rcases r with _ | ⟨d, r⟩
    · exact ⟨h.1 (hr c List.mem_cons_self), h.2⟩
    · exact ih (List.cons_ne_nil d r) (fun e he => hr e (List.mem_cons_of_mem c he)) h.2

/-! ### Keypad glyphs -/

theorem plainGlyph_beq (c : Char) {d : Char} (hd : d ∉ "*/x÷".toList) :
    (plainGlyph c == d) = (c == d) := by
  rw [Bool.eq_iff_iff, beq_iff_eq, beq_iff_eq, plainGlyph_eq_iff c hd]

theorem clings_plainGlyph (c : Char) : clings (plainGlyph c) = clings c := by
  rw [clings, clings, isFigure_plainGlyph, plainGlyph_beq c (by decide)]

theorem solid_plainGlyphs (t : Text) : solid (plainGlyphs t) = plainGlyphs (solid t) := by
  have hblank : (fun c => !isBlank c) ∘ plainGlyph = fun c => !isBlank c :=
    funext fun c => congrArg (!·) (isBlank_plainGlyph c)
  rw [solid, plainGlyphs, List.filter_map, hblank]
  rfl

/-- Keypad glyphs neither are figures nor belong to one. -/
theorem BehindFigures.plainGlyphs (h : BehindFigures Clinging t) :
    BehindFigures Clinging (plainGlyphs t) := by
  induction t with
  | nil => trivial
  | cons c t ih =>
    refine ⟨fun hc => ?_, ih h.2⟩
    have hmeets : Meets Clinging t := h.1 (isFigure_plainGlyph c ▸ hc)
    cases t with
    | nil => trivial
    | cons d t =>
      cases hd : isBlank d with
      | true =>
        refine (meets_cons_of_blank (by rw [isBlank_plainGlyph, hd])).2 fun e he hclings => ?_
        have he : e ∈ (solid t).head?.map plainGlyph := by
          rwa [← List.head?_map, ← Expr.plainGlyphs, ← solid_plainGlyphs]
        obtain ⟨e', he', rfl⟩ := Option.map_eq_some_iff.1 he
        rw [clings_plainGlyph] at hclings
        exact (meets_cons_of_blank hd).1 hmeets e' he' hclings
      | false =>
        exact (meets_cons_of_not_blank (by rw [isBlank_plainGlyph, hd])).2 fun _ => rfl

theorem isShare_plainGlyph (a : Text) (s : Char) (b : Text) (l : Char) :
    isShare a (plainGlyph s) b (plainGlyph l) = isShare a s b l := by
  rw [isShare, isShare, plainGlyph_beq l (by decide), plainGlyph_beq s (by decide),
    plainGlyph_beq s (by decide)]

theorem startsWithShare_map_plain (ps : List Piece) :
    startsWithShare (ps.map Piece.plain) = startsWithShare ps := by
  rcases ps with _ | ⟨⟨a⟩ | ⟨c⟩, _ | ⟨⟨r⟩ | ⟨s⟩, _ | ⟨⟨b⟩ | ⟨d⟩, _ | ⟨⟨q⟩ | ⟨l⟩, ps⟩⟩⟩⟩
  all_goals first | rfl | exact isShare_plainGlyph a s b l

theorem hasShare_map_plain (ps : List Piece) : hasShare (ps.map Piece.plain) = hasShare ps := by
  induction ps with
  | nil => rfl
  | cons p ps ih =>
    rw [hasShare, ← ih, ← startsWithShare_map_plain]
    rfl

theorem IdleBlanks.plainGlyphs (h : IdleBlanks t) : IdleBlanks (plainGlyphs t) where
  clinging := h.clinging.plainGlyphs
  unshared := by rw [pieces_plainGlyphs, hasShare_map_plain, h.unshared]

/-! ### Pieces without blanks -/

/-- Whether a piece is a blank. -/
def Piece.isBlank : Piece → Bool
  | run _ => false
  | mark c => Text.isBlank c

/-- **The pieces that are not blank.** -/
def solidPieces (ps : List Piece) : List Piece :=
  ps.filter (!·.isBlank)

@[simp] theorem solidPieces_run (r : Text) (ps : List Piece) :
    solidPieces (.run r :: ps) = .run r :: solidPieces ps :=
  rfl

theorem solidPieces_append (ps qs : List Piece) :
    solidPieces (ps ++ qs) = solidPieces ps ++ solidPieces qs :=
  List.filter_append ..

theorem solidPieces_of_blank (hc : isBlank c = true) (ps : List Piece) :
    solidPieces (.mark c :: ps) = solidPieces ps :=
  List.filter_cons_of_neg (by simp [Piece.isBlank, hc])

theorem solidPieces_of_not_blank (hc : isBlank c = false) (ps : List Piece) :
    solidPieces (.mark c :: ps) = .mark c :: solidPieces ps :=
  List.filter_cons_of_pos (by simp [Piece.isBlank, hc])

@[simp] theorem solidPieces_percent (ps : List Piece) :
    solidPieces (.mark '%' :: ps) = .mark '%' :: solidPieces ps :=
  solidPieces_of_not_blank (by decide) ps

/-- Figures are not blank. -/
theorem isBlank_of_isFigure (hc : isFigure c = true) : isBlank c = false := by
  refine Bool.eq_false_iff.2 fun hblank => ?_
  rw [isFigure_of_isBlank hblank] at hc
  exact Bool.false_ne_true hc

theorem join_solidPieces (h : Apart ps) : join (solidPieces ps) = solid (join ps) := by
  induction ps with
  | nil => rfl
  | cons p ps ih =>
    cases p with
    | run r =>
      obtain ⟨-, hr, -, hps⟩ := h
      change r ++ join (solidPieces ps) = solid (r ++ join ps)
      rw [ih hps, Text.solid_append,
        Text.solid_of_not_blank fun c hc => isBlank_of_isFigure (hr c hc)]
    | mark c =>
      change _ = solid (c :: join ps)
      cases hc : isBlank c with
      | true => rw [solidPieces_of_blank hc, ih h.2, Text.solid_cons_of_blank hc]
      | false =>
        rw [solidPieces_of_not_blank hc, Text.solid_cons_of_not_blank hc, ← ih h.2]
        rfl

/-- **The reader of tokens passes blanks over.** -/
theorem readTokens_solidPieces (due : Bool) (ps : List Piece) :
    readTokens due (solidPieces ps) = readTokens due ps := by
  induction ps generalizing due with
  | nil => rfl
  | cons p ps ih =>
    cases p with
    | run r => rw [solidPieces_run, readTokens, readTokens, ih]
    | mark c =>
      cases hc : isBlank c with
      | true => rw [solidPieces_of_blank hc, ih, readTokens, if_pos hc]
      | false =>
        rw [solidPieces_of_not_blank hc, readTokens, readTokens]
        simp only [ih]

/-! ### Dropping blanks behind runs -/

/-- `P` holds of what stands behind any run of the pieces. -/
def BehindRuns (P : Char → Bool → Prop) : List Piece → Prop
  | [] => True
  | .run _ :: ps => Meets P (join ps) ∧ BehindRuns P ps
  | .mark _ :: ps => BehindRuns P ps

theorem behindRuns_of_behindFigures (hapart : Apart ps) (h : BehindFigures P (join ps)) :
    BehindRuns P ps := by
  induction ps with
  | nil => trivial
  | cons p ps ih =>
    cases p with
    | run r =>
      obtain ⟨hne, hr, -, hps⟩ := hapart
      have hrun : Meets P (join ps) ∧ BehindFigures P (join ps) :=
        behindFigures_run_append (r := r) hne hr h
      exact ⟨hrun.1, ih hps hrun.2⟩
    | mark c => exact ih hapart.2 h.2

/-- Whether the first piece belongs to a figure before it. -/
def startsClinging : List Piece → Bool
  | .run _ :: _ => true
  | .mark c :: _ => c == '%'
  | [] => false

theorem startsClinging_of_run (h : startsWithRun ps = true) : startsClinging ps = true := by
  rcases ps with _ | ⟨⟨r⟩ | ⟨c⟩, ps⟩
  · exact h
  · rfl
  · exact absurd h Bool.false_ne_true

/-- A mark that belongs to a figure is a percent sign. -/
theorem exists_eq_percent (hrun : startsWithRun ps = false) (h : startsClinging ps = true) :
    ∃ qs, ps = .mark '%' :: qs := by
  rcases ps with _ | ⟨⟨r⟩ | ⟨c⟩, ps⟩
  · exact absurd h Bool.false_ne_true
  · exact absurd hrun.symm Bool.false_ne_true
  · exact ⟨ps, by rw [show c = '%' by simpa [startsClinging] using h]⟩

/-- Such a piece has such a first character. -/
theorem clings_head?_join (hapart : Apart ps) (h : startsClinging ps = true) :
    ∃ d ∈ (join ps).head?, clings d = true := by
  rcases ps with _ | ⟨⟨r⟩ | ⟨c⟩, ps⟩
  · exact absurd h Bool.false_ne_true
  · obtain ⟨d, r, rfl⟩ := List.exists_cons_of_ne_nil hapart.1
    exact ⟨d, rfl, by simp [clings, hapart.2.1 d List.mem_cons_self]⟩
  · exact ⟨c, rfl, by simpa [clings, startsClinging] using Or.inr h⟩

/-- **Behind a run blanks are dropped only before what does not belong to it.** -/
theorem startsClinging_solidPieces (hapart : Apart ps) (hsolid : Apart (solidPieces ps))
    (h : Meets Clinging (join ps)) : startsClinging (solidPieces ps) = startsClinging ps := by
  rcases ps with _ | ⟨⟨r⟩ | ⟨c⟩, ps⟩
  · rfl
  · rfl
  · cases hc : isBlank c with
    | true =>
      have hpercent : startsClinging (.mark c :: ps) = false := by
        refine Bool.eq_false_iff.2 fun hclings => ?_
        rw [show c = '%' by simpa [startsClinging] using hclings] at hc
        exact absurd hc (by decide)
      rw [solidPieces_of_blank hc] at hsolid ⊢
      rw [hpercent]
      refine Bool.eq_false_iff.2 fun hclings => ?_
      obtain ⟨d, hd, hd'⟩ := clings_head?_join hsolid hclings
      rw [join_solidPieces hapart.2] at hd
      exact Bool.false_ne_true ((meets_cons_of_blank hc).1 h d hd hd')
    | false =>
      rw [solidPieces_of_not_blank hc]
      rfl

/-- Runs stay apart when blanks are dropped. -/
theorem apart_solidPieces (hapart : Apart ps) (h : BehindRuns Clinging ps) :
    Apart (solidPieces ps) := by
  induction ps with
  | nil => trivial
  | cons p ps ih =>
    cases p with
    | run r =>
      obtain ⟨hne, hr, hstart, hps⟩ := hapart
      have hsolid : Apart (solidPieces ps) := ih hps h.2
      refine ⟨hne, hr, ?_, hsolid⟩
      rw [← Bool.not_eq_true]
      intro hrun
      have hclings : startsClinging ps = true :=
        (startsClinging_solidPieces hps hsolid h.1).symm.trans (startsClinging_of_run hrun)
      -- what stands behind the run is a percent sign, and that is not dropped
      obtain ⟨qs, rfl⟩ := exists_eq_percent hstart hclings
      rw [← solidPieces, solidPieces_percent] at hrun
      exact Bool.false_ne_true hrun
    | mark c =>
      cases hc : isBlank c with
      | true =>
        rw [solidPieces_of_blank hc]
        exact ih hapart.2 h
      | false =>
        rw [solidPieces_of_not_blank hc]
        exact ⟨hapart.1, ih hapart.2 h⟩

/-- **Blanks may be dropped before a text is cut into pieces.** -/
theorem solidPieces_pieces (h : BehindFigures Clinging t) :
    solidPieces (pieces t) = pieces (solid t) := by
  have hruns : BehindRuns Clinging (pieces t) :=
    behindRuns_of_behindFigures (apart_pieces t) (by rwa [join_pieces])
  rw [← pieces_join (apart_solidPieces (apart_pieces t) hruns), join_solidPieces (apart_pieces t),
    join_pieces]

/-! ### Percents that are no shares -/

/-- **The pieces with each percent written out by itself.** -/
def hundredths : List Piece → List Piece
  | [] => []
  | .run a :: .mark '%' :: ps => hundredth a ++ hundredths ps
  | p :: ps => p :: hundredths ps

@[simp] theorem hundredths_mark (c : Char) (ps : List Piece) :
    hundredths (.mark c :: ps) = .mark c :: hundredths ps := by
  cases ps <;> rfl

@[simp] theorem hundredths_percent (a : Text) (ps : List Piece) :
    hundredths (.run a :: .mark '%' :: ps) = hundredth a ++ hundredths ps :=
  rfl

theorem hundredths_run (a : Text) (h : ∀ qs, ps ≠ .mark '%' :: qs) :
    hundredths (.run a :: ps) = .run a :: hundredths ps := by
  rw [hundredths]
  exact fun _ qs _ hqs => h qs hqs

theorem unshared_tail {p : Piece} (h : hasShare (p :: ps) = false) : hasShare ps = false :=
  (Bool.or_eq_false_iff.1 h).2

/-- **Without shares each percent is written out by itself.** -/
theorem writeOutPercents_of_not_hasShare (h : hasShare ps = false) :
    writeOutPercents ps = hundredths ps := by
  fun_induction writeOutPercents ps with
  | case1 => rfl
  | case2 c ps ih => rw [ih (unshared_tail h), hundredths_mark]
  | case3 a s b l ps hshare ih =>
    rw [hasShare, startsWithShare, hshare] at h
    exact absurd h (by simp)
  | case4 a b l ps hshare ih => rw [ih (unshared_tail (unshared_tail h)), hundredths_percent]
  | case5 a s b l ps hshare hs ih =>
    rw [ih (unshared_tail (unshared_tail h)), hundredths_run a (by simp [hs]), hundredths_mark]
  | case6 a ps hform ih => rw [ih (unshared_tail (unshared_tail h)), hundredths_percent]
  | case7 a s ps hform hs ih =>
    rw [ih (unshared_tail (unshared_tail h)), hundredths_run a (by simp [hs]), hundredths_mark]
  | case8 a ps hlong hshort ih =>
    rw [ih (unshared_tail h), hundredths_run a fun qs hqs => hshort '%' qs hqs]

/-- **Without shares it does not matter when the blanks are dropped.** -/
theorem hundredths_solidPieces (hapart : Apart ps) (h : BehindRuns Clinging ps) :
    hundredths (solidPieces ps) = solidPieces (hundredths ps) := by
  fun_induction hundredths ps with
  | case1 => rfl
  | case2 a ps ih =>
    have hhundredth : solidPieces (hundredth a) = hundredth a := rfl
    rw [solidPieces_run, solidPieces_percent, hundredths_percent, ih hapart.2.2.2.2 h.2,
      solidPieces_append, hhundredth]
  | case3 p ps hpercent ih =>
    cases p with
    | mark c =>
      have hrest := ih hapart.2 h
      cases hc : isBlank c with
      | true => rw [solidPieces_of_blank hc, solidPieces_of_blank hc, hrest]
      | false =>
        rw [solidPieces_of_not_blank hc, solidPieces_of_not_blank hc, hundredths_mark, hrest]
    | run a =>
      have hps : Apart ps := hapart.2.2.2
      -- dropping blanks does not bring a percent sign to the run
      have hnext : ∀ qs, solidPieces ps ≠ .mark '%' :: qs := by
        intro qs hqs
        have hclings : startsClinging ps = true := by
          rw [← startsClinging_solidPieces hps (apart_solidPieces hps h.2) h.1, hqs]
          rfl
        obtain ⟨qs, rfl⟩ := exists_eq_percent hapart.2.2.1 hclings
        exact hpercent a qs rfl rfl
      rw [solidPieces_run, solidPieces_run, hundredths_run a hnext, ih hps h.2]

/-! ### The first stray character -/

/-- What stands behind matters only to a percent sign. -/
theorem strayChar?_congr (h : startsClinging ps = false) (afterRun : Bool) :
    strayChar? afterRun ps = strayChar? false ps := by
  rcases ps with _ | ⟨⟨r⟩ | ⟨c⟩, ps⟩
  · rfl
  · rfl
  · have hc : c ≠ '%' := by simpa [startsClinging] using h
    rw [strayChar?_mark (Or.inr hc), strayChar?_mark (Or.inl rfl)]

/-- **Dropping blanks brings no percent sign to a run and takes none away.** -/
theorem strayChar?_solidPieces (hapart : Apart ps) (h : BehindRuns Clinging ps) {afterRun : Bool}
    (hbefore : afterRun = true → Meets Clinging (join ps)) :
    strayChar? afterRun (solidPieces ps) = strayChar? afterRun ps := by
  induction ps generalizing afterRun with
  | nil => rfl
  | cons p ps ih =>
    cases p with
    | run r => exact ih hapart.2.2.2 h.2 fun _ => h.1
    | mark c =>
      have hrest : strayChar? false (solidPieces ps) = strayChar? false ps :=
        ih hapart.2 h fun hfalse => absurd hfalse Bool.false_ne_true
      cases hc : isBlank c with
      | false =>
        rw [solidPieces_of_not_blank hc, strayChar?, strayChar?, hrest]
      | true =>
        have hpercent : c ≠ '%' := by rintro rfl; exact absurd hc (by decide)
        have hallowed : isAllowed c = true := by simp [isAllowed, hc]
        rw [strayChar?_mark (Or.inr hpercent), if_pos hallowed, ← hrest, solidPieces_of_blank hc]
        cases afterRun with
        | false => rfl
        | true =>
          have hclings := startsClinging_solidPieces hapart (apart_solidPieces hapart h)
            (hbefore rfl)
          rw [solidPieces_of_blank hc] at hclings
          exact strayChar?_congr (hclings.trans (by simp [startsClinging, hpercent])) true

/-! ### The value -/

/-- The tokens of an expression in terms of its pieces as they were typed. -/
theorem allowedTokens_plainText (t : Text) :
    allowedTokens (plainText t) =
      match strayChar? false (pieces (plainGlyphs t)) with
      | some c => .error (.unknownCharacter c)
      | none => readTokens true (writeOutPercents (pieces (plainGlyphs t))) := by
  have hstray : (plainText t).find? (fun c => !isAllowed c) =
      strayChar? false (pieces (plainGlyphs t)) :=
    outsider?_writeOutPercents (apart_pieces _)
  rw [allowedTokens, withinAlphabet, hstray, tokensOf, plainText, pieces_expandPercents]
  cases strayChar? false (pieces (plainGlyphs t)) <;> rfl

/-- **The tokens of an expression with idle blanks** in terms of its other characters. -/
theorem IdleBlanks.allowedTokens (h : IdleBlanks t) :
    allowedTokens (plainText t) =
      match strayChar? false (pieces (Expr.plainGlyphs (solid t))) with
      | some c => .error (.unknownCharacter c)
      | none => readTokens true (hundredths (pieces (Expr.plainGlyphs (solid t)))) := by
  have hglyphs := h.plainGlyphs
  have hapart : Apart (pieces (Expr.plainGlyphs t)) := apart_pieces _
  have hruns : BehindRuns Clinging (pieces (Expr.plainGlyphs t)) :=
    behindRuns_of_behindFigures hapart (by rw [join_pieces]; exact hglyphs.clinging)
  rw [allowedTokens_plainText, ← solid_plainGlyphs, ← solidPieces_pieces hglyphs.clinging,
    strayChar?_solidPieces hapart hruns fun hfalse => absurd hfalse Bool.false_ne_true,
    hundredths_solidPieces hapart hruns, readTokens_solidPieces,
    writeOutPercents_of_not_hasShare hglyphs.unshared]

/-- **Texts with idle blanks and the same other characters have the same value**, or fail for the
same cause. -/
theorem evaluate?_congr (ht : IdleBlanks t) (hu : IdleBlanks u) (h : solid t = solid u) :
    evaluate? t = evaluate? u := by
  rw [evaluate?, evaluate?, work, work, ht.allowedTokens, hu.allowedTokens, h]

/-! ### Texts with idle blanks -/

/-- Where no character is stray, a percent sign is not the first that is not blank. -/
theorem head?_solid_ne_percent (h : strayChar? false (pieces (plainGlyphs t)) = none) :
    (solid t).head? ≠ some '%' := by
  induction t with
  | nil => exact nofun
  | cons c t ih =>
    rw [strayChar?_pieces_cons] at h
    cases hc : isBlank c with
    | true =>
      rw [if_pos (by simp [isWritten, hc]), isFigure_of_isBlank hc] at h
      rw [Text.solid_cons_of_blank hc]
      exact ih h
    | false =>
      rw [Text.solid_cons_of_not_blank hc]
      intro hpercent
      obtain rfl : c = '%' := by simpa using hpercent
      exact absurd h (by simp [isWritten, isFigure, Text.isDigit, isBlank])

/-- Where no character is stray, no percent sign is cut off from its figure. -/
theorem tightPercents_of_strayChar? {afterFigure : Bool}
    (h : strayChar? afterFigure (pieces (plainGlyphs t)) = none) : TightPercents t := by
  induction t generalizing afterFigure with
  | nil => trivial
  | cons c t ih =>
    rw [strayChar?_pieces_cons] at h
    split at h
    · refine ⟨fun hc => ?_, ih h⟩
      cases t with
      | nil => trivial
      | cons d t =>
        cases hd : isBlank d with
        | false => exact (meets_cons_of_not_blank hd).2 fun _ => rfl
        | true =>
          rw [strayChar?_pieces_cons, if_pos (by simp [isWritten, hd]), isFigure_of_isBlank hd] at h
          refine (meets_cons_of_blank hd).2 fun e he hpercent => ?_
          exact absurd (hpercent ▸ he) (head?_solid_ne_percent h)
    · exact absurd h (Option.some_ne_none _)

/-- **In an expression that has a value no percent sign is cut off from its figure.** -/
theorem tightPercents_of_evaluate? {x : Float} (h : evaluate? t = .ok x) : TightPercents t :=
  tightPercents_of_strayChar? (strayChar?_of_evaluate? h)

theorem clinging_of_whole_of_tight (hwhole : WholeNumerals t) (htight : TightPercents t) :
    BehindFigures Clinging t := by
  refine (hwhole.and htight).mono fun d close h hclings => ?_
  rw [clings, Bool.or_eq_true, beq_iff_eq] at hclings
  exact hclings.elim h.1 h.2

/-- Plus and minus signs do not stand directly behind a figure. -/
def Parted (d : Char) (close : Bool) : Prop :=
  d = '+' ∨ d = '-' → close = false

/-- A share has a sign behind its first run. -/
theorem exists_sign_of_startsWithShare {a : Text} (h : startsWithShare (.run a :: ps) = true) :
    ∃ s qs, ps = .mark s :: qs ∧ (s = '+' ∨ s = '-') := by
  unfold startsWithShare at h
  split at h
  · next hps =>
    obtain ⟨-, rfl⟩ := List.cons.inj hps
    simp only [isShare, Bool.and_eq_true, Bool.or_eq_true, beq_iff_eq] at h
    exact ⟨_, _, rfl, h.1.1.2⟩
  · exact absurd h Bool.false_ne_true

theorem not_hasShare_of_parted (h : BehindRuns Parted ps) : hasShare ps = false := by
  induction ps with
  | nil => rfl
  | cons p ps ih =>
    cases p with
    | mark c => exact ih h
    | run a =>
      rw [hasShare, ih h.2, Bool.or_false, ← Bool.not_eq_true]
      intro hshare
      obtain ⟨s, qs, rfl, hs⟩ := exists_sign_of_startsWithShare hshare
      have hblank : isBlank s = false := by rcases hs with rfl | rfl <;> decide
      have hmeets : Meets Parted (s :: join qs) := h.1
      exact absurd ((meets_cons_of_not_blank hblank).1 hmeets hs) (by decide)

/-- **Where signs stand apart from the figures before them, all other blanks are idle.** -/
theorem idleBlanks_of_parted (hclinging : BehindFigures Clinging t)
    (hparted : BehindFigures Parted t) : IdleBlanks t where
  clinging := hclinging
  unshared := not_hasShare_of_parted
    (behindRuns_of_behindFigures (apart_pieces t) (by rwa [join_pieces]))

end RunningTab.Expr
