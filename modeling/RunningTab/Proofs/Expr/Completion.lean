import Mathlib.Data.List.Induction
import RunningTab.Proofs.Expr.Blanks
import RunningTab.Proofs.Expr.Joining

/-!
# Texts that can be completed

An expression is typed from left to right, and on the way it is the beginning of one. Which texts
are beginnings of phrases (`RunningTab.Expr.Completable`) can be told by reading them once, with no
more to remember than how many parentheses are open and what has come last: an operand is due, a
numeral has begun, or an operand is whole (`RunningTab.Expr.Stage.Next`). A text without blanks can
be completed exactly if it can be read this way to its end
(`RunningTab.Expr.completable_iff_exists_runs`).

A phrase is read to its end by its structure. The other way round a phrase has to be found for every
text that has been read, and the invariant says it of all phrases at once: where an operand is due,
any phrase may follow, and behind it whatever closes the parentheses
(`RunningTab.Expr.Stage.Stands`). No tree is kept on the way, since signs and minuses find their
places in a phrase afterwards.
-/

namespace RunningTab.Expr

open Decimal (isFigure)
open Text (isBlank solid)

/-- **A text that can be completed**: it is the beginning of a phrase that fits. -/
def Completable (Fits : Phrase → Prop) (t : Text) : Prop :=
  ∃ p, Fits p ∧ t <+: p.text

/-! ### Reading from left to right -/

/-- What has come last. -/
inductive Place where
  /-- An operand is due; a minus sign may stand before it or must not. -/
  | due (free : Bool)
  /-- The figures so far of a numeral. -/
  | figures (f : Text)
  /-- A percent or a phrase in parentheses. -/
  | done

/-- How far a text has been read: the parentheses that are open, and what has come last. -/
structure Stage where
  depth : Nat
  place : Place

/-- **An operand is whole.** -/
inductive Place.Whole : Place → Prop
  | figures (n : Numeral) : Whole (.figures n.chars)
  | done : Whole .done

/-- The figures that one more goes behind. -/
inductive Place.Takes : Place → Text → Prop
  | due (free : Bool) : Takes (.due free) []
  | figures (f : Text) : Takes (.figures f) f

namespace Stage

/-- Nothing has been read. -/
def start : Stage := ⟨0, .due true⟩

/-- **Reading one character.** Behind a unary minus there may be another one, or not. -/
inductive Next (stacked : Bool) : Stage → Char → Stage → Prop
  | opening (d : Nat) (free : Bool) : Next stacked ⟨d, .due free⟩ '(' ⟨d + 1, .due true⟩
  | minus (d : Nat) : Next stacked ⟨d, .due true⟩ '-' ⟨d, .due stacked⟩
  | figure (d : Nat) {place : Place} {f : Text} {c : Char} (h : place.Takes f)
      (hc : isFigure c = true) (hdots : (f ++ [c]).count '.' ≤ 1) :
      Next stacked ⟨d, place⟩ c ⟨d, .figures (f ++ [c])⟩
  | percent (d : Nat) (n : Numeral) : Next stacked ⟨d, .figures n.chars⟩ '%' ⟨d, .done⟩
  | closing (d : Nat) {place : Place} (h : place.Whole) :
      Next stacked ⟨d + 1, place⟩ ')' ⟨d, .done⟩
  | sign (d : Nat) {place : Place} (h : place.Whole) (s : Sign) :
      Next stacked ⟨d, place⟩ s.char ⟨d, .due true⟩

/-- **Reading a text.** -/
def Runs (stacked : Bool) : Stage → Text → Stage → Prop
  | g, [], g' => g = g'
  | g, c :: t, g' => ∃ between, Next stacked g c between ∧ Runs stacked between t g'

end Stage

open Stage (Next Runs)

variable {stacked free : Bool} {g g' : Stage} {d : Nat} {c : Char} {t u : Text} {p q : Phrase}

theorem runs_append : Runs stacked g (t ++ u) g' ↔
    ∃ between, Runs stacked g t between ∧ Runs stacked between u g' := by
  induction t generalizing g with
  | nil => simp [Runs]
  | cons c t ih =>
    simp only [List.cons_append, Runs, ih]
    grind

/-- A run by its last character. -/
theorem runs_concat : Runs stacked g (t ++ [c]) g' ↔
    ∃ between, Runs stacked g t between ∧ Next stacked between c g' := by
  simp [runs_append, Runs]

/-! ### Phrases are read to their end -/

/-- The figures of a numeral are read one after the other. -/
theorem runs_figures (hne : t ≠ []) (ht : ∀ c ∈ t, isFigure c = true) (hdots : t.count '.' ≤ 1) :
    Runs stacked ⟨d, .due free⟩ t ⟨d, .figures t⟩ := by
  induction t using List.reverseRecOn with
  | nil => exact absurd rfl hne
  | append_singleton t c ih =>
    have hc : isFigure c = true := ht c (by simp)
    rw [runs_concat]
    rcases eq_or_ne t [] with rfl | hne'
    · exact ⟨_, rfl, .figure d (.due free) hc hdots⟩
    · have hdots' : t.count '.' ≤ 1 :=
        Nat.le_trans ((List.sublist_append_left t [c]).count_le '.') hdots
      exact ⟨_, ih hne' (fun e he => ht e (List.mem_append_left _ he)) hdots',
        .figure d (.figures t) hc hdots⟩

theorem Numeral.count_dot_le (n : Numeral) : n.chars.count '.' ≤ 1 := by
  have hplain := n.plain
  rw [Decimal.isPlainNumeral, Bool.and_eq_true, decide_eq_true_eq] at hplain
  exact hplain.2

theorem Numeral.solid_chars (n : Numeral) : solid n.chars = n.chars :=
  Text.solid_of_not_blank fun c hc => isBlank_of_isFigure (n.isFigure_of_mem c hc)

theorem Blanks.solid_chars (b : Blanks) : solid b.chars = [] :=
  Text.solid_eq_nil_iff.2 (List.all_eq_true.1 b.blank)

theorem Sign.isBlank_char (s : Sign) : isBlank s.char = false := by
  cases s <;> rfl

theorem runs_numeral (n : Numeral) :
    Runs stacked ⟨d, .due free⟩ n.chars ⟨d, .figures n.chars⟩ :=
  runs_figures n.chars_ne_nil n.isFigure_of_mem n.count_dot_le

/-- **A phrase without its blanks is read to its end**, where an operand is whole. -/
theorem exists_runs_phrase (hp : p.Apt stacked)
    (hfree : free = true ∨ p.startsWithMinus = false) (d : Nat) :
    ∃ place : Place, place.Whole ∧ Runs stacked ⟨d, .due free⟩ (solid p.text) ⟨d, place⟩ := by
  induction p generalizing free d with
  | numeral n =>
    rw [Phrase.text, n.solid_chars]
    exact ⟨_, .figures n, runs_numeral n⟩
  | percent n =>
    rw [Phrase.text, Text.solid_append, n.solid_chars]
    exact ⟨_, .done, runs_concat.2 ⟨_, runs_numeral n, .percent d n⟩⟩
  | parens before p behind ih =>
    have htext : solid (Phrase.parens before p behind).text = '(' :: (solid p.text ++ [')']) := by
      rw [Phrase.text, Text.solid_cons_of_not_blank rfl]
      simp only [Text.solid_append, Blanks.solid_chars, List.nil_append, List.append_nil]
      rfl
    obtain ⟨place, hwhole, hrun⟩ := ih hp (Or.inl rfl) (d + 1)
    rw [htext]
    exact ⟨_, .done, _, .opening d free, runs_concat.2 ⟨_, hrun, .closing d hwhole⟩⟩
  | minus gap p ih =>
    have htext : solid (Phrase.minus gap p).text = '-' :: solid p.text := by
      rw [Phrase.text, Text.solid_cons_of_not_blank rfl, Text.solid_append, gap.solid_chars,
        List.nil_append]
    obtain ⟨htight, hminus, hp⟩ := hp
    obtain rfl : free = true := hfree.resolve_right Bool.true_eq_false.mp
    -- what the minus stands before is no sum or product, so it starts with a minus only as one
    have hfree' : stacked = true ∨ p.startsWithMinus = false := by
      refine hminus.imp_right fun hnot => ?_
      cases p with
      | minus gap' p' => cases hnot
      | binary l before s behind r => exact absurd htight (Nat.not_le.2 s.tightness_lt)
      | _ => rfl
    obtain ⟨place, hwhole, hrun⟩ := ih hp hfree' d
    rw [htext]
    exact ⟨place, hwhole, _, .minus d, hrun⟩
  | binary l before s behind r ihl ihr =>
    have htext : solid (Phrase.binary l before s behind r).text =
        solid l.text ++ s.char :: solid r.text := by
      rw [Phrase.text, Text.solid_append, Text.solid_append, before.solid_chars,
        Text.solid_cons_of_not_blank s.isBlank_char, Text.solid_append, behind.solid_chars,
        List.append_nil, List.nil_append]
    obtain ⟨-, -, hl, hr⟩ := hp
    obtain ⟨place, hwhole, hrun⟩ := ihl hl hfree d
    obtain ⟨place', hwhole', hrun'⟩ := ihr hr (Or.inl rfl) d
    rw [htext]
    exact ⟨place', hwhole', runs_append.2 ⟨_, hrun, _, .sign d hwhole s, hrun'⟩⟩

/-- So the beginnings of phrases can be read. -/
theorem exists_runs_of_completable (ht : ∀ c ∈ t, isBlank c = false)
    (h : Completable (Phrase.Apt stacked) t) : ∃ g, Runs stacked .start t g := by
  obtain ⟨p, hp, rest, htext⟩ := h
  obtain ⟨place, -, hrun⟩ := exists_runs_phrase hp (Or.inl rfl) 0
  rw [← htext, Text.solid_append, Text.solid_of_not_blank ht] at hrun
  obtain ⟨g, hg, -⟩ := runs_append.1 hrun
  exact ⟨g, hg⟩

/-! ### What may follow -/

/-- The text of a phrase. -/
def IsPhrase (stacked : Bool) (t : Text) : Prop :=
  ∃ p : Phrase, p.Apt stacked ∧ p.text = t

/-- What may stand behind an operand within its parentheses: nothing, or a sign and a phrase. -/
def IsTail (stacked : Bool) (t : Text) : Prop :=
  t = [] ∨ ∃ (s : Sign) (p : Phrase), p.Apt stacked ∧ t = s.char :: p.text

/-- **What may stand behind an operand** in a number of parentheses: it closes them all. -/
def IsClosing (stacked : Bool) : Nat → Text → Prop
  | 0, t => IsTail stacked t
  | d + 1, t =>
    ∃ tail rest, IsTail stacked tail ∧ IsClosing stacked d rest ∧ t = tail ++ ')' :: rest

/-- A phrase is awaited: with any phrase and what closes the parentheses behind it, the text is that
of a phrase. -/
def Awaits (stacked free : Bool) (d : Nat) (t : Text) : Prop :=
  ∀ (q : Phrase) (closing : Text), q.Apt stacked → (free = true ∨ q.startsWithMinus = false) →
    IsClosing stacked d closing → IsPhrase stacked (t ++ q.text ++ closing)

/-- No phrase is awaited: with what closes the parentheses, the text is that of a phrase. -/
def Closes (stacked : Bool) (d : Nat) (t : Text) : Prop :=
  ∀ closing, IsClosing stacked d closing → IsPhrase stacked (t ++ closing)

/-- **What a text that has been read needs to be a phrase.** -/
def Stage.Stands (stacked : Bool) (g : Stage) (t : Text) : Prop :=
  match g.place with
  | .due free => Awaits stacked free g.depth t
  | .figures f => ∃ before, t = before ++ f ∧ Awaits stacked false g.depth before ∧
      (∀ c ∈ f, isFigure c = true) ∧ f.count '.' ≤ 1
  | .done => Closes stacked g.depth t

/-- A phrase with a tail is a phrase. -/
theorem exists_text_append (hq : q.Apt stacked) (ht : IsTail stacked t) :
    ∃ p : Phrase, p.Apt stacked ∧ p.text = q.text ++ t := by
  rcases ht with rfl | ⟨s, r, hr, rfl⟩
  · exact ⟨q, hq, (List.append_nil _).symm⟩
  · exact ⟨q.join s r, hq.join hr s, q.text_join s r⟩

/-- All parentheses can be closed at once. -/
theorem exists_isClosing (stacked : Bool) (d : Nat) : ∃ closing, IsClosing stacked d closing := by
  induction d with
  | zero => exact ⟨[], Or.inl rfl⟩
  | succ d ih =>
    obtain ⟨closing, h⟩ := ih
    exact ⟨_, [], closing, Or.inl rfl, h, rfl⟩

/-- What closes the parentheses may have a sign and a phrase before it. -/
theorem exists_isClosing_sign (hq : q.Apt stacked) (s : Sign) (h : IsClosing stacked d t) :
    IsClosing stacked d (s.char :: q.text ++ t) := by
  -- the phrase takes the tail within the innermost parentheses along
  cases d with
  | zero =>
    obtain ⟨p, hp, htext⟩ := exists_text_append hq h
    exact Or.inr ⟨s, p, hp, by rw [htext]; rfl⟩
  | succ d =>
    obtain ⟨tail, rest, htail, hrest, rfl⟩ := h
    obtain ⟨p, hp, htext⟩ := exists_text_append hq htail
    exact ⟨s.char :: p.text, rest, Or.inr ⟨s, p, hp, rfl⟩, hrest, by rw [htext]; simp⟩

theorem Awaits.of_free (h : Awaits stacked free d t) : Awaits stacked false d t :=
  fun q closing hq hfree => h q closing hq (Or.inr (hfree.resolve_left Bool.false_ne_true))

/-- At the start any phrase may follow. -/
theorem awaits_nil : Awaits stacked true 0 [] :=
  fun _ _ hq _ htail => exists_text_append hq htail

theorem Awaits.opening (h : Awaits stacked free d t) :
    Awaits stacked true (d + 1) (t ++ ['(']) := by
  rintro q closing hq - ⟨tail, rest, htail, hrest, rfl⟩
  -- the tail belongs into the new parentheses, the rest behind them
  obtain ⟨p, hp, htext⟩ := exists_text_append hq htail
  obtain ⟨r, hr, hrtext⟩ := h (.parens .none p .none) rest hp (Or.inr rfl) hrest
  refine ⟨r, hr, ?_⟩
  rw [hrtext, Phrase.text, htext]
  simp [Blanks.none]

theorem Awaits.minus (h : Awaits stacked true d t) : Awaits stacked stacked d (t ++ ['-']) := by
  intro q closing hq hfree hclosing
  -- the minus sign goes to the first operand of whatever phrase follows
  obtain ⟨r, hr, hrtext⟩ := h q.negate closing (hq.negate hfree) (Or.inl rfl) hclosing
  refine ⟨r, hr, ?_⟩
  rw [hrtext, q.text_negate]
  simp

theorem Awaits.operand (h : Awaits stacked free d t) (hq : q.Apt stacked)
    (hfree : q.startsWithMinus = false) : Closes stacked d (t ++ q.text) :=
  fun closing hclosing => h q closing hq (Or.inr hfree) hclosing

theorem Closes.closing (h : Closes stacked (d + 1) t) : Closes stacked d (t ++ [')']) := by
  intro rest hrest
  obtain ⟨r, hr, hrtext⟩ := h (')' :: rest) ⟨[], rest, Or.inl rfl, hrest, rfl⟩
  exact ⟨r, hr, by rw [hrtext]; simp⟩

theorem Closes.sign (h : Closes stacked d t) (s : Sign) :
    Awaits stacked true d (t ++ [s.char]) := by
  intro q closing hq _ hclosing
  obtain ⟨r, hr, hrtext⟩ := h _ (exists_isClosing_sign hq s hclosing)
  exact ⟨r, hr, by rw [hrtext]; simp⟩

/-- Where an operand is whole, it is. -/
theorem Stage.Stands.closes {place : Place} (h : Stage.Stands stacked ⟨d, place⟩ t)
    (hwhole : place.Whole) : Closes stacked d t := by
  cases hwhole with
  | done => exact h
  | figures n =>
    obtain ⟨before, rfl, hbefore, -⟩ := h
    exact hbefore.operand (q := .numeral n) trivial rfl

/-- **One more character is read.** -/
theorem Stage.Stands.next (h : g.Stands stacked t) (hnext : Next stacked g c g') :
    g'.Stands stacked (t ++ [c]) := by
  cases hnext with
  | opening d free => exact Awaits.opening h
  | minus d => exact Awaits.minus h
  | figure d htakes hc hdots =>
    cases htakes with
    | due free =>
      -- a numeral does not start with a minus sign, so it may follow one
      exact ⟨t, rfl, Awaits.of_free h, List.forall_mem_singleton.2 hc, hdots⟩
    | figures f =>
      obtain ⟨before, rfl, hbefore, hf, -⟩ := h
      exact ⟨before, List.append_assoc .., hbefore,
        List.forall_mem_append.2 ⟨hf, List.forall_mem_singleton.2 hc⟩, hdots⟩
  | percent d n =>
    obtain ⟨before, rfl, hbefore, -⟩ := h
    have hpercent := hbefore.operand (q := .percent n) trivial rfl
    rwa [Phrase.text, ← List.append_assoc] at hpercent
  | closing d hwhole => exact (h.closes hwhole).closing
  | sign d hwhole s => exact (h.closes hwhole).sign s

/-- **What has been read can be made a phrase.** -/
theorem Stage.Stands.runs (h : g.Stands stacked t) (hrun : Runs stacked g u g') :
    g'.Stands stacked (t ++ u) := by
  induction u generalizing g t with
  | nil =>
    obtain rfl : g = g' := hrun
    rwa [List.append_nil]
  | cons c u ih =>
    obtain ⟨between, hnext, hrest⟩ := hrun
    rw [List.append_cons]
    exact ih (h.next hnext) hrest

/-- The numeral zero. -/
def Numeral.zero : Numeral := ⟨['0'], by decide, by decide⟩

/-- Figures with a zero behind them are a numeral. -/
theorem exists_numeral_append_zero (hf : ∀ c ∈ t, isFigure c = true) (hdots : t.count '.' ≤ 1) :
    ∃ n : Numeral, n.chars = t ++ ['0'] := by
  refine ⟨⟨t ++ ['0'], ?_, ?_⟩, rfl⟩
  · exact List.all_eq_true.2 (List.forall_mem_append.2 ⟨hf, List.forall_mem_singleton.2 rfl⟩)
  · rw [Decimal.isPlainNumeral, Bool.and_eq_true, decide_eq_true_eq, List.count_append]
    exact ⟨by simp; right; rfl, hdots⟩

theorem Stage.Stands.completable (h : g.Stands stacked t) :
    Completable (Phrase.Apt stacked) t := by
  obtain ⟨d, place⟩ := g
  obtain ⟨closing, hclosing⟩ := exists_isClosing stacked d
  cases place with
  | due free =>
    obtain ⟨p, hp, htext⟩ := h (.numeral .zero) closing trivial (Or.inr rfl) hclosing
    exact ⟨p, hp, _, (List.append_assoc ..).symm.trans htext.symm⟩
  | figures f =>
    obtain ⟨before, rfl, hbefore, hf, hdots⟩ := h
    obtain ⟨n, hn⟩ := exists_numeral_append_zero hf hdots
    obtain ⟨p, hp, htext⟩ := hbefore (.numeral n) closing trivial (Or.inr rfl) hclosing
    refine ⟨p, hp, ['0'] ++ closing, ?_⟩
    rw [htext, Phrase.text, hn]
    simp
  | done =>
    obtain ⟨p, hp, htext⟩ := h closing hclosing
    exact ⟨p, hp, closing, htext.symm⟩

/-- **The texts without blanks that can be completed are those that can be read.** -/
theorem completable_iff_exists_runs (ht : ∀ c ∈ t, isBlank c = false) :
    Completable (Phrase.Apt stacked) t ↔ ∃ g, Runs stacked .start t g := by
  refine ⟨exists_runs_of_completable ht, ?_⟩
  rintro ⟨g, hrun⟩
  have hstart : Stage.start.Stands stacked [] := awaits_nil
  exact (hstart.runs hrun).completable

/-! ### What a text ends with -/

/-- **What a text ends with**, by what has come last. -/
def Place.Ends : Place → Text → Prop
  | .due _, t => t = [] ∨ ∃ before c, t = before ++ [c] ∧ (c = '(' ∨ ∃ s : Sign, c = s.char)
  | .figures f, t => ∃ before, t = before ++ f ∧ (∀ c ∈ before.getLast?, isFigure c = false) ∧
      (∀ c ∈ f, isFigure c = true) ∧ f.count '.' ≤ 1 ∧ f ≠ []
  | .done, t => ∃ before c, t = before ++ [c] ∧ (c = '%' ∨ c = ')')

/-- **What can be seen of a text that has been read** without reading it. -/
structure Stage.Matches (g : Stage) (t : Text) : Prop where
  depth : t.count '(' = t.count ')' + g.depth
  ends : g.place.Ends t

/-- Signs are neither parentheses nor parts of an operand. -/
theorem Sign.char_ne (s : Sign) : s.char ≠ '(' ∧ s.char ≠ ')' ∧ s.char ≠ '%' ∧
    isFigure s.char = false := by
  cases s <;> decide

/-- Nor are figures parentheses. -/
theorem ne_of_isFigure (hc : isFigure c = true) : c ≠ '(' ∧ c ≠ ')' ∧ c ≠ '%' := by
  refine ⟨?_, ?_, ?_⟩ <;> rintro rfl <;> exact absurd hc (by decide)

/-- What an operand follows does not end with a figure. -/
theorem Place.Ends.not_isFigure {free : Bool} (h : (Place.due free).Ends t) :
    ∀ c ∈ t.getLast?, isFigure c = false := by
  rcases h with rfl | ⟨before, c, rfl, hc⟩
  · nofun
  · intro d hd
    obtain rfl : c = d := by simpa using hd
    rcases hc with rfl | ⟨s, rfl⟩
    · rfl
    · exact s.char_ne.2.2.2

/-- One more character is read. -/
theorem Stage.Matches.next (h : g.Matches t) (hnext : Next stacked g c g') :
    g'.Matches (t ++ [c]) := by
  have hdepth := h.depth
  cases hnext with
  | opening d free =>
    refine ⟨?_, Or.inr ⟨t, '(', rfl, Or.inl rfl⟩⟩
    rw [List.count_append, List.count_append, hdepth]
    rfl
  | minus d => exact ⟨by simpa using hdepth, Or.inr ⟨t, '-', rfl, Or.inr ⟨.minus, rfl⟩⟩⟩
  | figure d htakes hc hdots =>
    obtain ⟨hopening, hclosing, -⟩ := ne_of_isFigure hc
    refine ⟨by simpa [hopening, hclosing] using hdepth, ?_⟩
    cases htakes with
    | due free =>
      exact ⟨t, rfl, h.ends.not_isFigure, List.forall_mem_singleton.2 hc, hdots,
        List.cons_ne_nil _ _⟩
    | figures f =>
      obtain ⟨before, rfl, hbefore, hf, -, -⟩ := h.ends
      exact ⟨before, List.append_assoc .., hbefore,
        List.forall_mem_append.2 ⟨hf, List.forall_mem_singleton.2 hc⟩, hdots, by simp⟩
  | percent d n => exact ⟨by simpa using hdepth, t, '%', rfl, Or.inl rfl⟩
  | closing d hwhole =>
    refine ⟨?_, t, ')', rfl, Or.inr rfl⟩
    rw [List.count_append, List.count_append, hdepth]
    exact (Nat.succ_add_eq_add_succ _ d).symm
  | sign d hwhole s =>
    obtain ⟨hopening, hclosing, -⟩ := s.char_ne
    exact ⟨by simpa [hopening, hclosing] using hdepth,
      Or.inr ⟨t, s.char, rfl, Or.inr ⟨s, rfl⟩⟩⟩

/-- **The parentheses that are open are counted, and the end is what has come last.** -/
theorem matches_of_runs (h : Runs stacked .start t g) : g.Matches t := by
  induction t using List.reverseRecOn generalizing g with
  | nil =>
    obtain rfl : Stage.start = g := h
    exact ⟨rfl, Or.inl rfl⟩
  | append_singleton t c ih =>
    obtain ⟨between, hrun, hnext⟩ := runs_concat.1 h
    exact (ih hrun).next hnext

/-- What has just been read by an opening parenthesis was due. -/
theorem Stage.Next.due_of_opening (h : Next stacked g '(' g') : ∃ free, g.place = .due free := by
  generalize hc : '(' = c at h
  cases h with
  | opening d free => exact ⟨free, rfl⟩
  | minus d => exact absurd hc (by decide)
  | figure d htakes hfigure hdots => exact absurd hc.symm (ne_of_isFigure hfigure).1
  | percent d n => exact absurd hc (by decide)
  | closing d hwhole => exact absurd hc (by decide)
  | sign d hwhole s => exact absurd hc.symm s.char_ne.1

/-- A closing one stands behind a whole operand. -/
theorem Stage.Next.whole_of_closing (h : Next stacked g ')' g') : g.place.Whole := by
  generalize hc : ')' = c at h
  cases h with
  | opening d free => exact absurd hc (by decide)
  | minus d => exact absurd hc (by decide)
  | figure d htakes hfigure hdots => exact absurd hc.symm (ne_of_isFigure hfigure).2.1
  | percent d n => exact absurd hc (by decide)
  | closing d hwhole => exact hwhole
  | sign d hwhole s => exact absurd hc.symm s.char_ne.2.1

end RunningTab.Expr
