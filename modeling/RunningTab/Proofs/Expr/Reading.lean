import RunningTab.Proofs.Expr.Phrase
import RunningTab.Proofs.Expr.Sweep

/-!
# Reading a phrase

The tokens of a phrase (`RunningTab.Expr.Phrase.tokens`) are what the first passes of an evaluation
read off its text (`RunningTab.Expr.readTokens_phrase`). The induction is on the phrase, with any
pieces after it and with what stands behind it as it grows: nothing, or a numeral and a sign that a
percent at its start is a share of.
-/

namespace RunningTab.Expr

open Decimal (isFigure isPlainNumeral readPlain?)

/-! ### The characters of a phrase -/

theorem isFigure_plainGlyph (c : Char) : isFigure (plainGlyph c) = isFigure c := by
  unfold plainGlyph
  split
  · next h => rw [h]; decide
  · split
    · next h => rw [h]; decide
    · rfl

theorem isBlank_plainGlyph (c : Char) : Text.isBlank (plainGlyph c) = Text.isBlank c := by
  unfold plainGlyph
  split
  · next h => rw [h]; decide
  · split
    · next h => rw [h]; decide
    · rfl

/-- Figures are no keypad glyphs. -/
theorem plainGlyph_of_isFigure {c : Char} (h : isFigure c = true) : plainGlyph c = c := by
  have hx : c ≠ 'x' := by rintro rfl; exact absurd h (by decide)
  have hdiv : c ≠ '÷' := by rintro rfl; exact absurd h (by decide)
  rw [plainGlyph, if_neg hx, if_neg hdiv]

/-- Blanks are no keypad glyphs. -/
theorem plainGlyph_of_isBlank {c : Char} (h : Text.isBlank c = true) : plainGlyph c = c := by
  have hx : c ≠ 'x' := by rintro rfl; exact absurd h (by decide)
  have hdiv : c ≠ '÷' := by rintro rfl; exact absurd h (by decide)
  rw [plainGlyph, if_neg hx, if_neg hdiv]

/-- Blanks are no figures. -/
theorem isFigure_of_isBlank {c : Char} (h : Text.isBlank c = true) : isFigure c = false := by
  have hnum : c.toNat < 46 ∨ 57 < c.toNat := by
    simp only [Text.isBlank, Bool.or_eq_true, Bool.and_eq_true, decide_eq_true_eq,
      beq_iff_eq] at h
    omega
  have hdot : c ≠ '.' := by
    rintro rfl
    exact absurd hnum (by decide)
  have hdigit : Text.isDigit c = false := by
    have h0 : ('0' : Char).val.toNat = 48 := rfl
    have h9 : ('9' : Char).val.toNat = 57 := rfl
    have hc : c.val.toNat = c.toNat := rfl
    simp only [Text.isDigit, Bool.and_eq_false_iff, decide_eq_false_iff_not, Char.le_def,
      UInt32.le_iff_toNat_le]
    omega
  simp [isFigure, hdigit, hdot]

@[simp] theorem plainGlyphs_append (t u : Text) :
    plainGlyphs (t ++ u) = plainGlyphs t ++ plainGlyphs u :=
  List.map_append

@[simp] theorem plainGlyphs_cons (c : Char) (t : Text) :
    plainGlyphs (c :: t) = plainGlyph c :: plainGlyphs t :=
  rfl

theorem plainGlyphs_of_isFigure {t : Text} (h : ∀ c ∈ t, isFigure c = true) :
    plainGlyphs t = t :=
  (List.map_congr_left fun c hc => plainGlyph_of_isFigure (h c hc)).trans (List.map_id t)

/-- The operator of an operation. -/
def Arithmetic.operator : Arithmetic → Operator
  | sum => .add
  | difference => .sub
  | product => .mul
  | quotient => .div

/-- With its keypad glyphs replaced, an operation has one sign. -/
theorem plainGlyph_char (s : Sign) : plainGlyph s.char = s.operation.operator.symbol := by
  cases s <;> decide

/-! ### The pieces of a phrase -/

/-- The pieces of blanks. -/
def Blanks.pieces (b : Blanks) : List Piece :=
  b.chars.map .mark

/-- The pieces of a phrase with its keypad glyphs replaced. -/
def Phrase.pieces : Phrase → List Piece
  | numeral n => [.run n.chars]
  | percent n => [.run n.chars, .mark '%']
  | parens before p behind =>
    .mark '(' :: (before.pieces ++ p.pieces ++ behind.pieces ++ [.mark ')'])
  | minus gap p => .mark '-' :: (gap.pieces ++ p.pieces)
  | binary l before s behind r =>
    l.pieces ++ before.pieces ++ .mark s.operation.operator.symbol :: (behind.pieces ++ r.pieces)

theorem Numeral.isFigure_of_mem (n : Numeral) : ∀ c ∈ n.chars, isFigure c = true :=
  List.all_eq_true.1 n.figures

theorem Numeral.chars_ne_nil (n : Numeral) : n.chars ≠ [] := by
  intro h
  have hplain := n.plain
  rw [h] at hplain
  exact absurd hplain (by decide)

theorem startsWithRun_blanks (b : Blanks) {ps : List Piece} (h : startsWithRun ps = false) :
    startsWithRun (b.pieces ++ ps) = false := by
  rcases b with ⟨_ | ⟨c, t⟩, hb⟩
  · exact h
  · rfl

/-- A text that starts with a numeral, if no figure follows. -/
theorem pieces_numeral_append (n : Numeral) {t : Text}
    (ht : startsWithRun (pieces (plainGlyphs t)) = false) :
    pieces (plainGlyphs (n.chars ++ t)) = .run n.chars :: pieces (plainGlyphs t) := by
  rw [plainGlyphs_append, plainGlyphs_of_isFigure n.isFigure_of_mem,
    pieces_run_append n.chars_ne_nil n.isFigure_of_mem ht]

/-- A text that starts with a sign or a parenthesis. -/
theorem pieces_mark_cons {c : Char} (hc : isFigure c = false) (t : Text) :
    pieces (plainGlyphs (c :: t)) = .mark (plainGlyph c) :: pieces (plainGlyphs t) := by
  rw [plainGlyphs_cons, pieces_cons_of_mark (by rw [isFigure_plainGlyph, hc])]

/-- A text that starts with blanks. -/
theorem pieces_blanks_append (b : Blanks) (t : Text) :
    pieces (plainGlyphs (b.chars ++ t)) = b.pieces ++ pieces (plainGlyphs t) := by
  obtain ⟨u, hu⟩ := b
  change pieces (plainGlyphs (u ++ t)) = u.map .mark ++ pieces (plainGlyphs t)
  induction u with
  | nil => rfl
  | cons c u ih =>
    obtain ⟨hc, hu⟩ : Text.isBlank c = true ∧ u.all Text.isBlank = true := by simpa using hu
    rw [List.cons_append, pieces_mark_cons (isFigure_of_isBlank hc), ih hu,
      plainGlyph_of_isBlank hc]
    rfl

/-- **The pieces of a text that starts with a phrase**, if no figure follows. -/
theorem pieces_phrase_append (p : Phrase) {t : Text}
    (ht : startsWithRun (pieces (plainGlyphs t)) = false) :
    pieces (plainGlyphs (p.text ++ t)) = p.pieces ++ pieces (plainGlyphs t) := by
  induction p generalizing t with
  | numeral n => exact pieces_numeral_append n ht
  | percent n =>
    have hpercent := pieces_mark_cons (c := '%') (by decide) t
    rw [Phrase.text, List.append_assoc]
    rw [pieces_numeral_append n (by rw [List.singleton_append, hpercent]; rfl),
      List.singleton_append, hpercent]
    rfl
  | parens before p behind ih =>
    have hclosing := pieces_mark_cons (c := ')') (by decide) t
    have hbehind : pieces (plainGlyphs (behind.chars ++ (')' :: t))) =
        behind.pieces ++ .mark ')' :: pieces (plainGlyphs t) := by
      rw [pieces_blanks_append, hclosing]
      rfl
    have hinner := ih (t := behind.chars ++ (')' :: t))
      (by rw [hbehind]; exact startsWithRun_blanks behind rfl)
    have hopening := pieces_mark_cons (c := '(') (by decide)
      (before.chars ++ (p.text ++ (behind.chars ++ (')' :: t))))
    simp only [Phrase.text, Phrase.pieces, List.cons_append, List.append_assoc, List.nil_append]
    rw [hopening, pieces_blanks_append, hinner, hbehind]
    rfl
  | minus gap p ih =>
    have hminus := pieces_mark_cons (c := '-') (by decide) (gap.chars ++ (p.text ++ t))
    simp only [Phrase.text, Phrase.pieces, List.cons_append, List.append_assoc]
    rw [hminus, pieces_blanks_append, ih ht]
    rfl
  | binary l before s behind r ihl ihr =>
    have hs : isFigure s.char = false := by cases s <;> decide
    have hsign := pieces_mark_cons hs (behind.chars ++ (r.text ++ t))
    rw [pieces_blanks_append, ihr ht, plainGlyph_char] at hsign
    have hbefore := pieces_blanks_append before (s.char :: (behind.chars ++ (r.text ++ t)))
    rw [hsign] at hbefore
    have hleft := ihl (t := before.chars ++ s.char :: (behind.chars ++ (r.text ++ t)))
      (by rw [hbefore]; exact startsWithRun_blanks before rfl)
    simp only [Phrase.text, Phrase.pieces, List.cons_append, List.append_assoc]
    rw [hleft, hbefore]

/-- Behind any pieces, the last piece of a phrase is the last one. -/
theorem Phrase.getLast?_append_pieces (ps : List Piece) (p : Phrase) :
    (ps ++ p.pieces).getLast? = p.pieces.getLast? := by
  have hne : p.pieces ≠ [] := by cases p <;> simp [Phrase.pieces]
  rw [List.getLast?_append, Option.or_of_isSome (List.getLast?_isSome.2 hne)]

/-- The pieces of a phrase end with a run exactly if the phrase ends with a numeral that carries no
percent sign. -/
theorem Phrase.getLast?_pieces_eq_run_iff (p : Phrase) (r : Text) :
    p.pieces.getLast? = some (.run r) ↔ p.lastNumeral?.map Numeral.chars = some r := by
  induction p with
  | numeral n => simp [Phrase.pieces, lastNumeral?]
  | percent n => simp [Phrase.pieces, lastNumeral?]
  | parens before p behind ih =>
    rw [Phrase.pieces, ← List.cons_append, List.getLast?_concat]
    simp [lastNumeral?]
  | minus gap p ih =>
    rw [Phrase.pieces, ← List.cons_append, p.getLast?_append_pieces, ih]
    rfl
  | binary l before s behind p ihl ihp =>
    rw [Phrase.pieces, ← List.cons_append, ← List.append_assoc, p.getLast?_append_pieces, ihp]
    rfl

/-- **What a share hangs on can be seen in the text**: the last numeral of a phrase is the run that
its text ends with. -/
theorem getLast?_pieces_text_eq_run_iff (p : Phrase) (r : Text) :
    (pieces (plainGlyphs p.text)).getLast? = some (.run r) ↔
      p.lastNumeral?.map Numeral.chars = some r := by
  have hpieces : pieces (plainGlyphs p.text) = p.pieces := by
    have h := pieces_phrase_append p (t := []) rfl
    rw [List.append_nil] at h
    exact h.trans (List.append_nil _)
  rw [hpieces, p.getLast?_pieces_eq_run_iff]

/-! ### The tokens of a phrase -/

/-- The tokens of hundredths. -/
def hundredthTokens (n : Numeral) : List Token :=
  [.opening, .number n.value, .operator .div, .number 100.0, .closing]

/-- The tokens of a percent, given what it is a share of. -/
def percentTokens : Option Numeral → Numeral → List Token
  | none, n => hundredthTokens n
  | some a, n =>
    .opening :: .number a.value :: .operator .mul :: (hundredthTokens n ++ [.closing])

/-- The tokens of a phrase, given what a percent at its start is a share of. -/
def Phrase.tokens : Option Numeral → Phrase → List Token
  | _, numeral n => [.number n.value]
  | whole, percent n => percentTokens whole n
  | _, parens _ p _ => .opening :: (tokens none p ++ [.closing])
  | _, minus _ p => .operator .neg :: tokens none p
  | whole, binary l before s behind r =>
    tokens whole l ++ .operator s.operation.operator :: tokens (whole? l before s behind) r

/-! ### What stands behind a phrase -/

/-- What stands behind a phrase whose percent at the start is a share of the numeral. -/
def Behind.ofWhole : Option Numeral → Behind
  | none => .other
  | some a => .sign a.chars

/-- What stands behind after a phrase that ends with the numeral. -/
def Behind.ofLast : Option Numeral → Behind
  | none => .other
  | some a => .run a.chars

/-- What stands behind after blanks. -/
def Behind.pastBlanks (k : Behind) (b : Blanks) : Behind :=
  if b = .none then k else .other

@[simp] theorem Behind.pastBlanks_other (b : Blanks) : Behind.other.pastBlanks b = .other := by
  simp [Behind.pastBlanks]

theorem Behind.past_of_isBlank (k : Behind) {c : Char} (hc : Text.isBlank c = true) :
    k.past c = .other := by
  have hsign : ¬(c = '+' ∨ c = '-') := by
    rintro (rfl | rfl) <;> exact absurd hc (by decide)
  cases k with
  | run a => exact if_neg hsign
  | other => rfl
  | sign a => rfl

theorem Behind.past_ofWhole (whole : Option Numeral) (c : Char) :
    (Behind.ofWhole whole).past c = .other := by
  cases whole <;> rfl

theorem Behind.past_closing (k : Behind) : k.past ')' = .other := by
  cases k <;> rfl

/-- Between two operands only a numeral, a plus or minus sign and no blanks are remembered. -/
theorem Behind.past_sign (l : Phrase) (before : Blanks) (s : Sign) (behind : Blanks) :
    (((Behind.ofLast l.lastNumeral?).pastBlanks before).past
      s.operation.operator.symbol).pastBlanks behind =
      Behind.ofWhole (Phrase.whole? l before s behind) := by
  unfold Behind.pastBlanks Phrase.whole?
  by_cases hbefore : before = .none
  · by_cases hbehind : behind = .none
    · rcases l.lastNumeral? with _ | a
      · cases s <;> simp [hbefore, hbehind, Behind.ofLast, Behind.ofWhole]
      · cases s <;>
          simp [hbefore, hbehind, Behind.ofLast, Behind.ofWhole, Behind.past, Sign.joinsShare,
            Sign.operation, Arithmetic.operator, Operator.symbol]
    · simp [hbehind, Behind.ofWhole]
  · simp [hbefore, Behind.ofWhole]

/-! ### Reading the tokens -/

/-- The pieces `ps` are read as the tokens and what the rest `qs` is read as. -/
def Reads (due : Bool) (ps : List Piece) (ts : List Token) (due' : Bool) (qs : List Piece) :
    Prop :=
  readTokens due ps = (readTokens due' qs).map (ts ++ ·)

namespace Reads

variable {due due' due'' : Bool} {ps qs rs : List Piece} {ts us : List Token}

theorem trans (h : Reads due ps ts due' qs) (h' : Reads due' qs us due'' rs) :
    Reads due ps (ts ++ us) due'' rs := by
  rw [Reads, h, h']
  cases readTokens due'' rs with
  | error e => rfl
  | ok vs => exact congrArg Except.ok (List.append_assoc ts us vs).symm

theorem nothing (due : Bool) (ps : List Piece) : Reads due ps [] due ps := by
  rw [Reads]
  cases readTokens due ps <;> rfl

/-- A blank is skipped. -/
theorem blank {c : Char} (hc : Text.isBlank c = true) (ps : List Piece) :
    Reads due (.mark c :: ps) [] due ps := by
  have hskip : readTokens due (.mark c :: ps) = readTokens due ps := by
    rw [readTokens, if_pos hc]
  rw [Reads, hskip]
  exact nothing due ps

/-- Blanks are skipped. -/
theorem blanks (k : Behind) (b : Blanks) (ps : List Piece) :
    Reads due (sweep k (b.pieces ++ ps)) [] due (sweep (k.pastBlanks b) ps) := by
  obtain ⟨u, hu⟩ := b
  unfold Behind.pastBlanks Blanks.pieces
  induction u generalizing k with
  | nil => exact nothing due _
  | cons c u ih =>
    obtain ⟨hc, hu'⟩ : Text.isBlank c = true ∧ u.all Text.isBlank = true := by simpa using hu
    have hne : (⟨c :: u, hu⟩ : Blanks) ≠ .none := fun h => by
      simpa [Blanks.none] using congrArg Blanks.chars h
    have hrest := ih .other hu'
    rw [ite_self] at hrest
    rw [if_neg hne, List.map_cons, List.cons_append, sweep_mark, k.past_of_isBlank hc]
    exact (blank hc _).trans hrest

theorem blanks_other (b : Blanks) (ps : List Piece) :
    Reads due (sweep .other (b.pieces ++ ps)) [] due (sweep .other ps) := by
  have h : Reads due (sweep .other (b.pieces ++ ps)) [] due
      (sweep (Behind.other.pastBlanks b) ps) :=
    blanks .other b ps
  rwa [Behind.pastBlanks_other] at h

/-- A numeral is read. -/
theorem numeral (due : Bool) (n : Numeral) (ps : List Piece) :
    Reads due (.run n.chars :: ps) [.number n.value] false ps := by
  have hn : readPlain? n.chars = some n.value := if_pos n.plain
  rw [Reads, readTokens, hn]
  rfl

/-- A sign or a parenthesis is read. -/
theorem mark {c : Char} {t : Token} (hc : Text.isBlank c = false)
    (ht : markToken? due c = some t) (ps : List Piece) :
    Reads due (.mark c :: ps) [t] t.beforeOperand ps := by
  rw [Reads, readTokens, if_neg (by simp [hc]), ht]
  rfl

theorem opening (ps : List Piece) : Reads true (.mark '(' :: ps) [.opening] true ps :=
  mark (by decide) rfl ps

theorem closing (ps : List Piece) : Reads false (.mark ')' :: ps) [.closing] false ps :=
  mark (by decide) rfl ps

/-- Between operands the sign of an operation is read. -/
theorem sign (op : Arithmetic) (ps : List Piece) :
    Reads false (.mark op.operator.symbol :: ps) [.operator op.operator] true ps := by
  cases op <;> exact mark (by decide) rfl ps

/-- Where an operand is due, a minus sign is a unary one. -/
theorem minus (ps : List Piece) : Reads true (.mark '-' :: ps) [.operator .neg] true ps :=
  mark (by decide) rfl ps

/-- Hundredths are read. -/
theorem hundredth (n : Numeral) (ps : List Piece) :
    Reads true (hundredth n.chars ++ ps) (hundredthTokens n) false ps := by
  have hundred : readPlain? "100".toList = some 100.0 := by decide
  have hlast : Reads true (.run "100".toList :: .mark ')' :: ps) [.number 100.0, .closing]
      false ps := by
    have hclosing : Reads true (.run "100".toList :: .mark ')' :: ps) [.number 100.0] false
        (.mark ')' :: ps) := by
      rw [Reads, readTokens, hundred]
      rfl
    exact hclosing.trans (closing ps)
  exact (opening _).trans ((numeral true n _).trans ((sign .quotient _).trans hlast))

/-- What is written for a percent is read. -/
theorem percent (whole : Option Numeral) (n : Numeral) (ps : List Piece) :
    Reads true ((Behind.ofWhole whole).percent n.chars ++ ps) (percentTokens whole n) false ps := by
  cases whole with
  | none => exact hundredth n ps
  | some a =>
    have hshare : (Behind.ofWhole (some a)).percent n.chars ++ ps = .mark '(' :: .run a.chars ::
        .mark '*' :: (Expr.hundredth n.chars ++ (.mark ')' :: ps)) := by
      simp [Behind.ofWhole, Behind.percent, a.plain, n.plain, share]
    rw [hshare]
    exact (opening _).trans ((numeral true a _).trans ((sign .product _).trans
      ((hundredth n _).trans (closing ps))))

/-- Neither blanks nor what comes behind them is a percent sign. -/
theorem ne_percent_blanks (b : Blanks) {ps : List Piece} (h : ∀ qs, ps ≠ .mark '%' :: qs) :
    ∀ qs, b.pieces ++ ps ≠ .mark '%' :: qs := by
  obtain ⟨_ | ⟨c, u⟩, hu⟩ := b
  · exact h
  · intro qs hqs
    have hc : c = '%' := Piece.mark.inj (List.cons.inj hqs).1
    rw [hc] at hu
    exact absurd hu (by simp [Text.isBlank])

/-- **A phrase is read as its tokens**, whatever comes behind it except a percent sign. -/
theorem phrase (p : Phrase) (whole : Option Numeral) {ps : List Piece}
    (hps : ∀ qs, ps ≠ .mark '%' :: qs) :
    Reads true (sweep (.ofWhole whole) (p.pieces ++ ps)) (p.tokens whole) false
      (sweep (.ofLast p.lastNumeral?) ps) := by
  induction p generalizing whole ps with
  | numeral n =>
    change Reads true (sweep _ (.run n.chars :: ps)) _ _ _
    rw [sweep_run _ _ hps]
    exact numeral true n _
  | percent n =>
    change Reads true (sweep _ (.run n.chars :: .mark '%' :: ps)) _ _ _
    rw [sweep_percent]
    exact percent whole n _
  | parens before p behind ih =>
    have hpieces : (Phrase.parens before p behind).pieces ++ ps = .mark '(' ::
        (before.pieces ++ (p.pieces ++ (behind.pieces ++ (.mark ')' :: ps)))) := by
      simp [Phrase.pieces]
    have hclosing : Reads false
        (sweep ((Behind.ofLast p.lastNumeral?).pastBlanks behind) (.mark ')' :: ps)) [.closing]
        false (sweep .other ps) := by
      rw [sweep_mark, Behind.past_closing]
      exact closing _
    rw [hpieces, sweep_mark, Behind.past_ofWhole]
    exact (opening _).trans ((blanks_other before _).trans
      ((ih none (ne_percent_blanks behind (by simp))).trans ((blanks _ behind _).trans hclosing)))
  | minus gap p ih =>
    have hpieces : (Phrase.minus gap p).pieces ++ ps =
        .mark '-' :: (gap.pieces ++ (p.pieces ++ ps)) := by
      simp [Phrase.pieces]
    rw [hpieces, sweep_mark, Behind.past_ofWhole]
    exact (minus _).trans ((blanks_other gap _).trans (ih none hps))
  | binary l before s behind r ihl ihr =>
    have hpieces : (Phrase.binary l before s behind r).pieces ++ ps =
        l.pieces ++ (before.pieces ++ (.mark s.operation.operator.symbol ::
          (behind.pieces ++ (r.pieces ++ ps)))) := by
      simp [Phrase.pieces]
    have hnext : ∀ qs, (.mark s.operation.operator.symbol :: (behind.pieces ++ (r.pieces ++ ps)) :
        List Piece) ≠ .mark '%' :: qs := by
      cases s <;> simp [Sign.operation, Arithmetic.operator, Operator.symbol]
    have hright : Reads true
        (sweep (((Behind.ofLast l.lastNumeral?).pastBlanks before).past
          s.operation.operator.symbol) (behind.pieces ++ (r.pieces ++ ps)))
        (r.tokens (Phrase.whole? l before s behind)) false
        (sweep (.ofLast r.lastNumeral?) ps) := by
      refine (blanks _ behind _).trans ?_
      rw [Behind.past_sign]
      exact ihr _ hps
    have hsign : Reads false
        (sweep ((Behind.ofLast l.lastNumeral?).pastBlanks before)
          (.mark s.operation.operator.symbol :: (behind.pieces ++ (r.pieces ++ ps))))
        (.operator s.operation.operator :: r.tokens (Phrase.whole? l before s behind)) false
        (sweep (.ofLast r.lastNumeral?) ps) := by
      rw [sweep_mark]
      exact (sign _ _).trans hright
    rw [hpieces]
    exact (ihl whole (ne_percent_blanks before hnext)).trans ((blanks _ before _).trans hsign)

end Reads

/-- **A phrase is read as its tokens**, with blanks around, and whether it is well formed or not. -/
theorem readTokens_phrase (before : Blanks) (p : Phrase) (behind : Blanks) :
    readTokens true (sweep .other (pieces (plainGlyphs (before.chars ++ p.text ++ behind.chars)))) =
      .ok (p.tokens none) := by
  have hbehind : pieces (plainGlyphs behind.chars) = behind.pieces := by
    have h := pieces_blanks_append behind []
    rwa [List.append_nil, show pieces (plainGlyphs []) = [] from rfl, List.append_nil] at h
  have hpieces : pieces (plainGlyphs (before.chars ++ p.text ++ behind.chars)) =
      before.pieces ++ (p.pieces ++ (behind.pieces ++ [])) := by
    rw [List.append_assoc, pieces_blanks_append, pieces_phrase_append, hbehind, List.append_nil]
    rw [hbehind, ← List.append_nil behind.pieces]
    exact startsWithRun_blanks behind rfl
  have hreads : Reads true
      (sweep .other (pieces (plainGlyphs (before.chars ++ p.text ++ behind.chars))))
      (p.tokens none) false (sweep (.ofLast p.lastNumeral?) (behind.pieces ++ [])) := by
    rw [hpieces]
    exact (Reads.blanks_other before _).trans
      (Reads.phrase p none (Reads.ne_percent_blanks behind (by simp)))
  have hend : Reads false (sweep (.ofLast p.lastNumeral?) (behind.pieces ++ [])) [] false [] :=
    Reads.blanks _ behind []
  have hall := hreads.trans hend
  rw [List.append_nil] at hall
  rw [hall]
  exact congrArg Except.ok (List.append_nil _)

/-- **A writing is read as the tokens of its phrase.** -/
theorem readTokens_writing {t : Tree} (w : Writing t) :
    readTokens true (sweep .other (pieces (plainGlyphs w.text))) = .ok (w.phrase.tokens none) :=
  readTokens_phrase w.before w.phrase w.behind

end RunningTab.Expr
