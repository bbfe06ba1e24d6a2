import RunningTab.Proofs.Decimal.Figures
import RunningTab.Toml.Statement

/-!
# Numbers as scalars

A scalar outside quotes is a run of characters, and the run alone decides what it is. So what a
writer owes the reader is said of the run (`RunningTab.Toml.IsScalar`), and what follows it matters
only in that it must not make the run longer (`RunningTab.Toml.valueWithin_of_isScalar`).

Digits are the text of an integer, digits with a point that of a float. Neither can be taken for a
date or a time: those have a colon, or a hyphen that is not in front.
-/

namespace RunningTab.Toml

open Decimal (IsPointed digits isFigure nearestScaled ofDigits splitSign)

/-- **A run is the text of a scalar.** -/
structure IsScalar (run : Text) (node : Node) : Prop where
  ne_nil : run ≠ []
  isScalarChar_of_mem : ∀ c ∈ run, isScalarChar c = true
  readScalar?_eq : readScalar? run = some node

theorem IsScalar.head_ne {c d : Char} {t : Text} {node : Node} (h : IsScalar (c :: t) node)
    (hd : isScalarChar d = false) : c ≠ d := by
  rintro rfl
  exact absurd (h.isScalarChar_of_mem c List.mem_cons_self) (by rw [hd]; exact Bool.false_ne_true)

/-! ### Runs of figures -/

theorem isSpacedOut_of_isDigit {t : Text} (hne : t ≠ []) (h : ∀ c ∈ t, Text.isDigit c = true) :
    isSpacedOut Text.isDigit t = true := by
  fun_induction isSpacedOut Text.isDigit t with
  | case1 => exact absurd rfl hne
  | case2 c => exact h c List.mem_cons_self
  | case3 c t ih => exact absurd (h '_' (by simp)) (by decide)
  | case4 c t hne' hunderscore ih =>
    rw [Bool.and_eq_true]
    exact ⟨h c List.mem_cons_self, ih (by grind) fun d hd => h d (List.mem_cons_of_mem c hd)⟩

/-- A point is not part of a whole number. -/
theorem not_isSpacedOut_of_dot {t : Text} (h : '.' ∈ t) :
    isSpacedOut Text.isDigit t = false := by
  have hdot : Text.isDigit '.' = false := by decide
  fun_induction isSpacedOut Text.isDigit t with
  | case1 => cases h
  | case2 c =>
    rw [← List.mem_singleton.1 h]
    exact hdot
  | case3 c t ih => grind
  | case4 c t hne hunderscore ih => grind

theorem unspaced_of_isFigure {t : Text} (h : ∀ c ∈ t, isFigure c = true) : unspaced t = t := by
  refine List.filter_eq_self.2 fun c hc => ?_
  rw [bne_iff_ne]
  rintro rfl
  exact absurd (h '_' hc) (by decide)

theorem isScalarChar_of_isFigure {c : Char} (h : isFigure c = true) : isScalarChar c = true := by
  rw [isFigure, Bool.or_eq_true, beq_iff_eq] at h
  rw [isScalarChar, Bool.or_eq_true, Bool.or_eq_true]
  rcases h with h | rfl
  · exact Or.inl (Or.inr h)
  · exact Or.inr (by decide)

/-! ### Neither dates nor times -/

theorem exists_of_twoDigits? {low high n : Nat} {t rest : Text}
    (h : twoDigits? low high t = some (n, rest)) : ∃ a b, t = a :: b :: rest := by
  rw [twoDigits?.eq_def] at h
  grind

theorem eq_cons_of_expect? {c : Char} {t rest : Text} (h : expect? c t = some rest) :
    t = c :: rest := by
  rw [expect?.eq_def] at h
  grind

/-- A time of day has a colon. -/
theorem afterTime?_eq_none {t : Text} (h : ':' ∉ t) : afterTime? t = none := by
  rw [afterTime?]
  cases htwo : twoDigits? 0 23 t with
  | none => rfl
  | some r =>
    obtain ⟨n, rest⟩ := r
    obtain ⟨a, b, rfl⟩ := exists_of_twoDigits? htwo
    cases hexpect : expect? ':' rest with
    | none => simp [hexpect]
    | some rest' =>
      rw [eq_cons_of_expect? hexpect] at h
      simp at h

/-- A date has a hyphen that is not in front. -/
theorem afterDate?_eq_none {t : Text} (h : '-' ∉ t) : afterDate? t = none := by
  rw [afterDate?]
  cases htwo : twoDigits? 0 99 t with
  | none => rfl
  | some r =>
    obtain ⟨n, rest⟩ := r
    obtain ⟨a, b, rfl⟩ := exists_of_twoDigits? htwo
    cases htwo' : twoDigits? 0 99 rest with
    | none => simp [htwo']
    | some r' =>
      obtain ⟨n', rest'⟩ := r'
      obtain ⟨a', b', rfl⟩ := exists_of_twoDigits? htwo'
      cases hexpect : expect? '-' rest' with
      | none => simp [htwo', hexpect]
      | some rest'' =>
        rw [eq_cons_of_expect? hexpect] at h
        simp at h

section

variable {t : Text}

theorem not_mem_of_isFigure (h : ∀ c ∈ t, isFigure c = true) {d : Char} (hd : isFigure d = false) :
    d ∉ t :=
  fun hmem => absurd (h d hmem) (by rw [hd]; exact Bool.false_ne_true)

/-- Figures spell no word. -/
theorem ne_of_isFigure {w : Text} (h : ∀ c ∈ t, isFigure c = true)
    (hw : ∃ c ∈ w, isFigure c = false) : t ≠ w := by
  rintro rfl
  obtain ⟨c, hc, hfigure⟩ := hw
  exact not_mem_of_isFigure h hfigure hc

/-- **Figures are read as a decimal integer or else as a float.** -/
theorem readScalar?_of_isFigure (h : ∀ c ∈ t, isFigure c = true) :
    readScalar? t = (readDecimal? t).or (readFloat? t) := by
  have hdatetime : isDatetime t = false := by
    rw [isDatetime, afterTime?_eq_none (not_mem_of_isFigure h (by decide)),
      afterDate?_eq_none (not_mem_of_isFigure h (by decide))]
    rfl
  have hinteger : readInteger? t = readDecimal? t := by
    rw [readInteger?.eq_def]
    split
    · exact absurd (h 'x' (by simp)) (by decide)
    · exact absurd (h 'o' (by simp)) (by decide)
    · exact absurd (h 'b' (by simp)) (by decide)
    · rfl
  rw [readScalar?, if_neg (ne_of_isFigure h ⟨'t', by decide⟩),
    if_neg (ne_of_isFigure h ⟨'f', by decide⟩), hdatetime, if_neg Bool.false_ne_true, hinteger]
  cases readDecimal? t <;> rfl

end

/-! ### The scalars -/

/-- **Digits are the text of an integer.** -/
theorem isScalar_digits {n : Nat} (hn : n < 2 ^ 63) : IsScalar (digits n) (.integer n) := by
  have hdigit : ∀ c ∈ digits n, Text.isDigit c = true :=
    fun c hc => Decimal.isDigit_of_mem_digits hc
  have hfigure : ∀ c ∈ digits n, isFigure c = true :=
    fun c hc => by rw [isFigure, hdigit c hc, Bool.true_or]
  have hwhole : isWhole (digits n) = true := by
    rw [isWhole, isSpacedOut_of_isDigit (Decimal.digits_ne_nil n) hdigit, Bool.true_and]
    rcases Nat.eq_zero_or_pos n with rfl | hpos
    · rfl
    · rw [bne_iff_ne.2 (Decimal.head?_digits_ne hpos), Bool.or_true]
  have hword : word? (n : Int) = some (.integer n) := by
    refine if_pos ⟨?_, ?_⟩ <;> rw [leastWord] <;> omega
  refine ⟨Decimal.digits_ne_nil n, fun c hc => isScalarChar_of_isFigure (hfigure c hc), ?_⟩
  rw [readScalar?_of_isFigure hfigure, readDecimal?, Decimal.splitSign_of_isFigure hfigure]
  dsimp only
  rw [if_pos hwhole, unspaced_of_isFigure hfigure, Decimal.ofDigits_digits,
    if_neg Bool.false_ne_true, hword]
  rfl

section

variable {whole fraction : Text}

theorem isWhole_of_isPointed (h : IsPointed whole fraction) : isWhole whole = true := by
  rw [isWhole, isSpacedOut_of_isDigit h.whole_ne_nil h.isDigit_whole, Bool.true_and,
    Bool.or_eq_true, beq_iff_eq, bne_iff_ne]
  exact h.no_zero_ahead

/-- Digits with a point are no integer. -/
theorem readDecimal?_of_isPointed (h : IsPointed whole fraction) :
    readDecimal? (whole ++ '.' :: fraction) = none := by
  have hnot : isWhole (whole ++ '.' :: fraction) = false := by
    rw [isWhole, not_isSpacedOut_of_dot (by simp), Bool.false_and]
  rw [readDecimal?, Decimal.splitSign_of_isFigure h.isFigure_of_mem]
  exact if_neg (by rw [hnot]; exact Bool.false_ne_true)

/-- They have the form of a float without a power of ten. -/
theorem isFloatForm_of_isPointed (h : IsPointed whole fraction) :
    isFloatForm (whole ++ '.' :: fraction) = true := by
  have hmantissa : ∀ c ∈ whole ++ '.' :: fraction, (c != 'e' && c != 'E') = true := by
    intro c hc
    rw [Bool.and_eq_true, bne_iff_ne, bne_iff_ne]
    exact ⟨fun he => absurd (h.isFigure_of_mem c hc) (by rw [he]; decide),
      fun he => absurd (h.isFigure_of_mem c hc) (by rw [he]; decide)⟩
  rw [isFloatForm, Decimal.splitSign_of_isFigure h.isFigure_of_mem]
  dsimp only
  rw [List.takeWhile_eq_self_iff.2 hmantissa, List.dropWhile_eq_nil_iff.2 hmantissa,
    h.takeWhile_ne_dot.1, h.takeWhile_ne_dot.2, isWhole_of_isPointed h, List.drop_one,
    List.tail_cons, isSpacedOut_of_isDigit h.fraction_ne_nil h.isDigit_fraction]
  rfl

/-- **Digits with a point are the text of the float nearest to what they denote**, if it is not
infinite. -/
theorem isScalar_of_isPointed {x : Float} (h : IsPointed whole fraction)
    (hx : nearestScaled (ofDigits (whole ++ fraction)) (-fraction.length : ℤ) = x)
    (hinf : x.isInf = false) : IsScalar (whole ++ '.' :: fraction) (.float x) := by
  have hfigure := h.isFigure_of_mem
  have hfloat : readFloat? (whole ++ '.' :: fraction) = some (.float x) := by
    rw [readFloat?, Decimal.splitSign_of_isFigure hfigure]
    dsimp only
    rw [if_neg (not_or.2 ⟨ne_of_isFigure hfigure ⟨'i', by decide⟩,
      ne_of_isFigure hfigure ⟨'n', by decide⟩⟩), if_pos (isFloatForm_of_isPointed h),
      unspaced_of_isFigure hfigure, h.readRate?_eq, hx, Option.bind_some, hinf]
    rfl
  refine ⟨List.append_ne_nil_of_left_ne_nil h.whole_ne_nil _,
    fun c hc => isScalarChar_of_isFigure (hfigure c hc), ?_⟩
  rw [readScalar?_of_isFigure hfigure, readDecimal?_of_isPointed h, hfloat]
  rfl

end

/-! ### Scalars among other things -/

/-- What follows does not make a run longer, and is not the time of a date. -/
def Stops (rest : Text) : Prop :=
  ∀ c ∈ rest.head?, isScalarChar c = false ∧ c ≠ ' '

/-- A scalar is the longest run at its place. -/
theorem scalar?_of_isScalar {run rest : Text} {node : Node} (h : IsScalar run node)
    (hrest : Stops rest) : scalar? (run ++ rest) = some (node, rest) := by
  have htake := Text.takeWhile_dropWhile_append h.isScalarChar_of_mem fun c hc => (hrest c hc).1
  rw [scalar?, htake.1, htake.2, h.readScalar?_eq]
  split
  · exact absurd rfl (hrest ' ' rfl).2
  · rfl

/-- **A scalar is read wherever it is followed by something else.** -/
theorem valueWithin_of_isScalar {run rest : Text} {node : Node} (h : IsScalar run node)
    (hrest : Stops rest) (depth : Nat) : valueWithin depth (run ++ rest) = some (node, rest) := by
  have hscalar := scalar?_of_isScalar h hrest
  obtain ⟨c, t, rfl⟩ := List.exists_cons_of_ne_nil h.ne_nil
  rw [List.cons_append] at hscalar ⊢
  rw [valueWithin.eq_def]
  split
  split
  · next heq => exact absurd (List.cons.inj heq).1 (h.head_ne (by decide))
  · next heq => exact absurd (List.cons.inj heq).1 (h.head_ne (by decide))
  · split
    · next heq => exact absurd (List.cons.inj heq).1 (h.head_ne (by decide))
    · next heq => exact absurd (List.cons.inj heq).1 (h.head_ne (by decide))
    · exact hscalar

end RunningTab.Toml
