import RunningTab.Proofs.Expr.Reading

/-!
# The first fault of a text

An evaluation tests the alphabet on the text with its percents written out, and reads numerals off
the pieces of that text. Here it is seen on the pieces of the text as it was typed which of them is
refused: the first character that neither belongs to the alphabet nor is the percent sign of a run
(`RunningTab.Expr.strayChar?`), and if there is none, the first run that is no numeral
(`RunningTab.Expr.faultyRun?`). Writing percents out takes the percent signs of runs away and
repeats numerals, so it neither hides nor makes a fault, nor puts one before another
(`RunningTab.Expr.outsider?_writeOutPercents`, `RunningTab.Expr.faultyRun?_writeOutPercents`).

What comes after the reading fails in other ways (`RunningTab.Expr.kind_of_outcome_runFrom`), so
this is all there is to the lexical failures of an evaluation
(`RunningTab.Expr.evaluate?_eq_error_iff`).
-/

namespace RunningTab.Expr

open Decimal (isFigure isPlainNumeral readPlain?)

/-! ### Faults of pieces -/

/-- The first character of the pieces that neither belongs to the alphabet nor is the percent sign
of a run; `afterRun` tells whether a run stands directly before them. -/
def strayChar? (afterRun : Bool) : List Piece → Option Char
  | [] => none
  | .run _ :: ps => strayChar? true ps
  | .mark c :: ps =>
    if isAllowed c || (afterRun && c == '%') then strayChar? false ps else some c

/-- The first run of the pieces that is no plain numeral. -/
def faultyRun? : List Piece → Option Text
  | [] => none
  | .run r :: ps => if isPlainNumeral r then faultyRun? ps else some r
  | .mark _ :: ps => faultyRun? ps

/-- **The first fault of the pieces**: characters come before runs, wherever they stand. -/
def lexicalFault? (ps : List Piece) : Option Failure :=
  match strayChar? false ps with
  | some c => some (.unknownCharacter c)
  | none => (faultyRun? ps).map .invalidNumber

/-! ### Stray characters and percents -/

/-- The first character of a text outside the alphabet. -/
def outsider? (t : Text) : Option Char :=
  t.find? fun c => !isAllowed c

theorem outsider?_cons (c : Char) (t : Text) :
    outsider? (c :: t) = if isAllowed c then outsider? t else some c := by
  cases h : isAllowed c <;> simp [outsider?, h]

/-- What belongs to the alphabet is passed. -/
theorem outsider?_append {r : Text} (hr : ∀ c ∈ r, isAllowed c = true) (t : Text) :
    outsider? (r ++ t) = outsider? t := by
  have hnone : r.find? (fun c => !isAllowed c) = none :=
    List.find?_eq_none.2 fun c hc => by simp [hr c hc]
  rw [outsider?, List.find?_append, hnone, Option.none_or]
  rfl

/-- Figures belong to the alphabet. -/
theorem isAllowed_of_isFigure {c : Char} (h : isFigure c = true) : isAllowed c = true := by
  simp [isAllowed, h]

/-- What is written for a percent belongs to the alphabet. -/
theorem outsider?_hundredth {n : Text} (hn : ∀ c ∈ n, isFigure c = true) (ps : List Piece) :
    outsider? (join (hundredth n ++ ps)) = outsider? (join ps) := by
  have hjoin : join (hundredth n ++ ps) = '(' :: (n ++ ("/100)".toList ++ join ps)) := by
    simp [hundredth, join, Piece.text]
  have hrest : "/100)".toList.all isAllowed = true := by decide
  rw [hjoin, outsider?_cons, if_pos (by decide),
    outsider?_append fun c hc => isAllowed_of_isFigure (hn c hc),
    outsider?_append (List.all_eq_true.1 hrest)]

/-- A run is passed, with or without its percent sign. -/
theorem outsider?_run {r : Text} (hr : ∀ c ∈ r, isFigure c = true) (ps : List Piece) :
    outsider? (join (.run r :: ps)) = outsider? (join ps) :=
  outsider?_append (fun c hc => isAllowed_of_isFigure (hr c hc)) (join ps)

/-- A mark is passed if it belongs to the alphabet. -/
theorem outsider?_mark (c : Char) (ps : List Piece) :
    outsider? (join (.mark c :: ps)) = if isAllowed c then outsider? (join ps) else some c :=
  outsider?_cons c (join ps)

/-- A mark that is no percent sign is a stray one if it does not belong to the alphabet. -/
theorem strayChar?_mark {afterRun : Bool} {c : Char} (h : afterRun = false ∨ c ≠ '%')
    (ps : List Piece) :
    strayChar? afterRun (.mark c :: ps) = if isAllowed c then strayChar? false ps else some c := by
  have hpercent : (afterRun && c == '%') = false := by
    rcases h with rfl | h
    · rfl
    · simp [h]
  rw [strayChar?, hpercent, Bool.or_false]

/-- **The first character outside the alphabet of a text with its percents written out** is the
first stray one of the pieces. -/
theorem outsider?_writeOutPercents {ps : List Piece} (h : Apart ps) :
    outsider? (join (writeOutPercents ps)) = strayChar? false ps := by
  fun_induction writeOutPercents ps with
  | case1 => rfl
  | case2 c ps ih => rw [outsider?_mark, ih h.2, strayChar?_mark (Or.inl rfl)]
  | case3 a s b l ps hshare ih =>
    obtain ⟨ha, haf, -, hs, hb, hbf, -, -, hps⟩ := h
    simp only [isShare, Bool.and_eq_true, Bool.or_eq_true, beq_iff_eq] at hshare
    obtain ⟨⟨⟨rfl, hsign⟩, -⟩, -⟩ := hshare
    have hallowed : isAllowed s = true := by rcases hsign with rfl | rfl <;> decide
    have hne : s ≠ '%' := by rcases hsign with rfl | rfl <;> decide
    have hpieces : shareOf a s b ++ writeOutPercents ps = .run a :: .mark s :: .mark '(' ::
        .run a :: .mark '*' :: (hundredth b ++ (.mark ')' :: writeOutPercents ps)) := by
      simp [shareOf]
    calc outsider? (join (shareOf a s b ++ writeOutPercents ps))
        = outsider? (join (writeOutPercents ps)) := by
          rw [hpieces, outsider?_run haf, outsider?_mark, if_pos hallowed, outsider?_mark,
            if_pos (by decide), outsider?_run haf, outsider?_mark, if_pos (by decide),
            outsider?_hundredth hbf, outsider?_mark, if_pos (by decide)]
      _ = strayChar? false ps := ih hps
      _ = strayChar? true (.mark s :: .run b :: .mark '%' :: ps) := by
          rw [strayChar?_mark (Or.inr hne), if_pos hallowed]
          rfl
  | case4 a b l ps hshare ih => rw [outsider?_hundredth h.2.1, ih h.2.2.2.2]; rfl
  | case5 a s b l ps hshare hs ih =>
    rw [outsider?_run h.2.1, outsider?_mark, ih h.2.2.2.2]
    exact (strayChar?_mark (Or.inr hs) _).symm
  | case6 a ps hform ih => rw [outsider?_hundredth h.2.1, ih h.2.2.2.2]; rfl
  | case7 a s ps hform hs ih =>
    rw [outsider?_run h.2.1, outsider?_mark, ih h.2.2.2.2]
    exact (strayChar?_mark (Or.inr hs) _).symm
  | case8 a ps hlong hshort ih =>
    rw [outsider?_run h.2.1, ih h.2.2.2]
    rcases ps with _ | ⟨⟨r⟩ | ⟨c⟩, ps⟩
    · rfl
    · rfl
    · exact (hshort c ps rfl).elim

/-! ### Runs and percents -/

/-- In what is written for a percent only its own run can be faulty. -/
theorem faultyRun?_hundredth (n : Text) (ps : List Piece) :
    faultyRun? (hundredth n ++ ps) = if isPlainNumeral n then faultyRun? ps else some n := by
  have hundred : isPlainNumeral "100".toList = true := by decide
  change (if isPlainNumeral n then
    (if isPlainNumeral "100".toList then faultyRun? ps else some "100".toList) else some n) = _
  rw [if_pos hundred]

/-- **The first run that is no numeral** stays so when percents are written out: only numerals are
repeated. -/
theorem faultyRun?_writeOutPercents (ps : List Piece) :
    faultyRun? (writeOutPercents ps) = faultyRun? ps := by
  fun_induction writeOutPercents ps with
  | case1 => rfl
  | case2 c ps ih => exact ih
  | case3 a s b l ps hshare ih =>
    simp only [isShare, Bool.and_eq_true] at hshare
    obtain ⟨⟨-, ha⟩, hb⟩ := hshare
    have hpieces : shareOf a s b ++ writeOutPercents ps = .run a :: .mark s :: .mark '(' ::
        .run a :: .mark '*' :: (hundredth b ++ (.mark ')' :: writeOutPercents ps)) := by
      simp [shareOf]
    rw [hpieces]
    simp only [faultyRun?, if_pos ha, if_pos hb, faultyRun?_hundredth, ih]
  | case4 a b l ps hshare ih => rw [faultyRun?_hundredth, ih]; rfl
  | case5 a s b l ps hshare hs ih => exact congrArg (if isPlainNumeral a then · else some a) ih
  | case6 a ps hform ih => rw [faultyRun?_hundredth, ih]; rfl
  | case7 a s ps hform hs ih => exact congrArg (if isPlainNumeral a then · else some a) ih
  | case8 a ps hlong hshort ih => exact congrArg (if isPlainNumeral a then · else some a) ih

/-! ### Reading tokens -/

/-- The cause of a failure, if it is one. -/
def fault? {α : Type} : Except Failure α → Option Failure
  | .ok _ => none
  | .error e => some e

@[simp] theorem fault?_map {α β : Type} (f : α → β) (x : Except Failure α) :
    fault? (x.map f) = fault? x := by
  cases x <;> rfl

theorem fault?_eq_some {α : Type} {x : Except Failure α} {e : Failure} :
    fault? x = some e ↔ x = .error e := by
  cases x <;> simp [fault?]

/-- A mark of the alphabet that is no blank is a token, wherever it stands. -/
theorem exists_markToken {c : Char} (hallowed : isAllowed c = true) (hfigure : isFigure c = false)
    (hblank : Text.isBlank c = false) (due : Bool) : ∃ t, markToken? due c = some t := by
  have hc : c ∈ "+-*/()".toList := by
    simpa [isAllowed, hfigure, hblank] using hallowed
  simp at hc
  rcases hc with rfl | rfl | rfl | rfl | rfl | rfl <;> exact ⟨_, rfl⟩

/-- **The reader of tokens refuses the first faulty run**, and nothing else where all characters
belong to the alphabet. -/
theorem fault?_readTokens {ps : List Piece} (hps : Apart ps)
    (hall : ∀ c ∈ join ps, isAllowed c = true) (due : Bool) :
    fault? (readTokens due ps) = (faultyRun? ps).map .invalidNumber := by
  induction ps generalizing due with
  | nil => rfl
  | cons p ps ih =>
    have hrest : ∀ c ∈ join ps, isAllowed c = true := fun c hc =>
      hall c (List.mem_append_right p.text hc)
    cases p with
    | run r =>
      rw [readTokens, readPlain?, faultyRun?]
      by_cases hr : isPlainNumeral r = true
      · rw [if_pos hr, if_pos hr]
        exact (fault?_map _ _).trans (ih hps.2.2.2 hrest false)
      · rw [if_neg hr, if_neg hr]
        rfl
    | mark c =>
      rw [readTokens, faultyRun?]
      split
      · exact ih hps.2 hrest due
      · next hblank =>
        have hc : isAllowed c = true := hall c (List.mem_append_left _ List.mem_cons_self)
        obtain ⟨t, ht⟩ := exists_markToken hc hps.1 (Bool.eq_false_iff.2 hblank) due
        rw [ht]
        exact (fault?_map _ _).trans (ih hps.2 hrest _)

/-- **The test of the alphabet and the reader together refuse the first fault** of the pieces with
the keypad glyphs replaced. -/
theorem fault?_allowedTokens (t : Text) :
    fault? (allowedTokens (plainText t)) = lexicalFault? (pieces (plainGlyphs t)) := by
  have hapart : Apart (pieces (plainGlyphs t)) := apart_pieces _
  have hstray : outsider? (plainText t) = strayChar? false (pieces (plainGlyphs t)) :=
    outsider?_writeOutPercents hapart
  rw [allowedTokens, withinAlphabet, lexicalFault?, ← hstray]
  cases houtsider : outsider? (plainText t) with
  | some c =>
    rw [show (plainText t).find? _ = _ from houtsider]
    rfl
  | none =>
    have hall : ∀ c ∈ join (writeOutPercents (pieces (plainGlyphs t))), isAllowed c = true :=
      fun c hc => by simpa using List.find?_eq_none.1 houtsider c hc
    rw [show (plainText t).find? _ = _ from houtsider]
    change fault? (readTokens true (pieces (expandPercents (plainGlyphs t)))) = _
    rw [pieces_expandPercents, fault?_readTokens (apart_writeOutPercents hapart) hall,
      faultyRun?_writeOutPercents]

/-! ### What fails behind the reading -/

/-- A run of the machine fails for want of operands or of operators only. -/
theorem kind_of_outcome_runFrom {st : List Float} {ts : List Token} {e : Failure}
    (h : (runFrom st ts).outcome = .error e) : e.kind = .structural := by
  fun_induction runFrom st ts with
  | case1 st => rcases st with _ | ⟨x, _ | ⟨y, st⟩⟩ <;> cases h <;> rfl
  | case2 st x ts ih => exact ih h
  | case3 st ts ih => exact ih h
  | case4 st ts ih => exact ih h
  | case5 ts a st ih => exact ih h
  | case6 ts => cases h; rfl
  | case7 op ts hop b a st ih => exact ih h
  | case8 st op ts hop hst => cases h; rfl

/-- Behind the reading no failure is a lexical one. -/
theorem kind_ne_lexical {ts : List Token} {e : Failure}
    (h : (runPostfix ts).outcome.bind finiteOutcome = .error e) : e.kind ≠ .lexical := by
  cases houtcome : (runPostfix ts).outcome with
  | error e' =>
    rw [houtcome] at h
    cases h
    rw [kind_of_outcome_runFrom houtcome]
    decide
  | ok x =>
    rw [houtcome] at h
    change finiteOutcome x = .error e at h
    rw [finiteOutcome] at h
    split at h
    · cases h
    · cases h
      exact nofun

/-- **The lexical failures of an evaluation** are the first faults of its pieces. -/
theorem evaluate?_eq_error_iff {t : Text} {e : Failure} (he : e.kind = .lexical) :
    evaluate? t = .error e ↔ lexicalFault? (pieces (plainGlyphs t)) = some e := by
  rw [← fault?_allowedTokens, fault?_eq_some, evaluate?, work]
  cases htokens : allowedTokens (plainText t) with
  | error e' => exact ⟨fun h => by cases h; rfl, fun h => by cases h; rfl⟩
  | ok ts => exact ⟨fun h => absurd he (kind_ne_lexical h), fun h => by cases h⟩

/-- An expression that has a value has no stray character. -/
theorem strayChar?_of_evaluate? {t : Text} {x : Float} (h : evaluate? t = .ok x) :
    strayChar? false (pieces (plainGlyphs t)) = none := by
  cases hstray : strayChar? false (pieces (plainGlyphs t)) with
  | none => rfl
  | some c =>
    have hfault : lexicalFault? (pieces (plainGlyphs t)) = some (.unknownCharacter c) := by
      rw [lexicalFault?, hstray]
    rw [(evaluate?_eq_error_iff rfl).2 hfault] at h
    cases h

/-- What is a fault of the pieces is a lexical failure. -/
theorem kind_of_lexicalFault? {ps : List Piece} {e : Failure} (h : lexicalFault? ps = some e) :
    e.kind = .lexical := by
  rw [lexicalFault?] at h
  split at h
  · cases h
    rfl
  · obtain ⟨r, -, rfl⟩ := Option.map_eq_some_iff.1 h
    rfl

end RunningTab.Expr
