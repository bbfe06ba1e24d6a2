import RunningTab.Proofs.Text.Columns
import RunningTab.Proofs.Text.Words
import RunningTab.Text.Lowercase

/-!
# Small letters and the characters they come from

A text in small letters is compared with words and cut at its blanks, and then something is done to
the text itself. So the question is what its small letters tell of a text, and over all of Unicode
the answer is not plain: the Kelvin sign has the small letter `k`, and the capital I with a dot has
an `i` and the dot for small letters.

These are the only two characters outside ASCII with an ASCII letter among their small letters
(`RunningTab.Text.ascii_of_mem_lowerChar`). Nothing with a `k` comes of the one and nothing without
the dot of the other, so a word of ASCII letters other than `k` is the small letters of ASCII texts
only, of those that spell it in some case (`RunningTab.Text.lower_eq_iff`). Blanks have no small
letters and are no small letters of anything else (`RunningTab.Text.isBlank_of_mem_lowerChar`), so a
text falls apart at the same places as its small letters do.
-/

namespace RunningTab.Text

variable {c d : Char} {t w : Text}

/-! ### The table of capital letters -/

/-- The numbers of the blank characters: the first and the last of each run of them. -/
def blankRuns : List CharRange :=
  [(0x9, 0xd), (0x20, 0x20), (0x85, 0x85), (0xa0, 0xa0), (0x1680, 0x1680), (0x2000, 0x200a),
    (0x2028, 0x2029), (0x202f, 0x202f), (0x205f, 0x205f), (0x3000, 0x3000)]

theorem exists_mem_blankRuns (h : isBlank c = true) :
    ∃ blanks ∈ blankRuns, blanks.1 ≤ c.toNat ∧ c.toNat ≤ blanks.2 := by
  simp only [isBlank, Bool.or_eq_true, Bool.and_eq_true, decide_eq_true_eq, beq_iff_eq] at h
  simp only [blankRuns, List.exists_mem_cons_iff, List.not_mem_nil, false_and, exists_false,
    or_false]
  omega

/-- The small letters of a run are characters. -/
theorem valid_of_mem_capitalRuns : ∀ run ∈ capitalRuns,
    (0 ≤ (run.1 : Int) + run.2.2.2 ∧ (run.2.1 : Int) + run.2.2.2 < 0xd800) ∨
      (0xdfff < (run.1 : Int) + run.2.2.2 ∧ (run.2.1 : Int) + run.2.2.2 < 0x110000) := by
  decide +kernel

/-- There are no blanks among the capital letters, and none among their small letters. -/
theorem not_blank_of_mem_capitalRuns : ∀ run ∈ capitalRuns, ∀ blanks ∈ blankRuns,
    (run.2.1 < blanks.1 ∨ blanks.2 < run.1) ∧
      ((run.2.1 : Int) + run.2.2.2 < blanks.1 ∨ (blanks.2 : Int) < run.1 + run.2.2.2) := by
  decide +kernel

/-- Only the ASCII letters and the Kelvin sign have small letters in ASCII. -/
theorem ascii_of_mem_capitalRuns : ∀ run ∈ capitalRuns,
    run = (0x41, 0x5a, 1, 32) ∨ run = (0x212a, 0x212a, 1, -8383) ∨
      (0x80 ≤ run.1 ∧ 0x80 ≤ (run.1 : Int) + run.2.2.2) := by
  decide +kernel

/-! ### The small letters of a character -/

theorem lowerChar_ne_nil (c : Char) : lowerChar c ≠ [] := by
  rw [lowerChar]
  split
  · exact List.cons_ne_nil _ _
  · split <;> exact List.cons_ne_nil _ _

/-- **What the small letters of a character are**: the character itself, the two of the capital I
with a dot, or the one that a run of the table says. -/
theorem mem_lowerChar (h : d ∈ lowerChar c) :
    d = c ∨ (c.toNat = 0x130 ∧ (d = 'i' ∨ d = '\u0307')) ∨
      ∃ run ∈ capitalRuns, run.1 ≤ c.toNat ∧ c.toNat ≤ run.2.1 ∧
        (d.toNat : Int) = c.toNat + run.2.2.2 := by
  rw [lowerChar] at h
  split at h
  · next hdotted => exact Or.inr (Or.inl ⟨hdotted, by simpa using h⟩)
  · split at h
    · next run hfind =>
      have hmem : run ∈ capitalRuns := List.mem_of_find?_eq_some hfind
      have hhas : CapitalRun.has run c.toNat = true :=
        List.find?_some (p := fun run => CapitalRun.has run c.toNat) hfind
      simp only [CapitalRun.has, Bool.and_eq_true, decide_eq_true_eq] at hhas
      obtain ⟨⟨hfirst, hlast⟩, -⟩ := hhas
      refine Or.inr (Or.inr ⟨run, hmem, hfirst, hlast, ?_⟩)
      have hvalid := valid_of_mem_capitalRuns run hmem
      obtain ⟨n, hn⟩ : ∃ n : Nat, (n : Int) = c.toNat + run.2.2.2 :=
        ⟨(c.toNat + run.2.2.2).toNat, by omega⟩
      have hchar : n.isValidChar := by unfold Nat.isValidChar; omega
      rw [List.mem_singleton.1 h, ← hn, Int.toNat_natCast, Char.ofNat, dif_pos hchar]
      rfl
    · exact Or.inl (List.mem_singleton.1 h)

/-- **Blanks have no small letters, and are no small letters** of another character. -/
theorem isBlank_of_mem_lowerChar (h : d ∈ lowerChar c) : isBlank d = isBlank c := by
  rcases mem_lowerChar h with rfl | ⟨hdotted, hd⟩ | ⟨run, hrun, hfirst, hlast, hd⟩
  · rfl
  · have hc : isBlank c = false := by simp [isBlank, hdotted]
    rcases hd with rfl | rfl <;> rw [hc] <;> rfl
  · refine Bool.eq_iff_iff.2 (iff_of_false ?_ ?_)
    · intro hblank
      obtain ⟨blanks, hblanks, _, _⟩ := exists_mem_blankRuns hblank
      have := (not_blank_of_mem_capitalRuns run hrun blanks hblanks).2
      omega
    · intro hblank
      obtain ⟨blanks, hblanks, _, _⟩ := exists_mem_blankRuns hblank
      have := (not_blank_of_mem_capitalRuns run hrun blanks hblanks).1
      omega

/-- **Characters with an ASCII letter among their small letters** are ASCII characters, but for the
Kelvin sign and the capital I with a dot. -/
theorem ascii_of_mem_lowerChar (h : d ∈ lowerChar c) (hd : d.toNat < 0x80) :
    c.toNat < 0x80 ∨ (c.toNat = 0x212a ∧ d = 'k') ∨ c.toNat = 0x130 := by
  rcases mem_lowerChar h with rfl | ⟨hdotted, -⟩ | ⟨run, hrun, hfirst, hlast, hsmall⟩
  · exact Or.inl hd
  · exact Or.inr (Or.inr hdotted)
  · rcases ascii_of_mem_capitalRuns run hrun with rfl | rfl | ⟨-, hfar⟩
    · dsimp only at hlast
      exact Or.inl (by omega)
    · dsimp only at hfirst hlast hsmall
      refine Or.inr (Or.inl ⟨by omega, Char.toNat_inj.1 ?_⟩)
      change d.toNat = 0x6b
      omega
    · omega

/-- The small letter of an ASCII character. -/
theorem lowerChar_of_ascii (h : c.toNat < 0x80) : lowerChar c = [c.toLower] := by
  have hletters : ∀ n : Fin 26, lowerChar (Char.ofNat (0x41 + n)) =
      [(Char.ofNat (0x41 + n)).toLower] := by decide +kernel
  by_cases hletter : 0x41 ≤ c.toNat ∧ c.toNat ≤ 0x5a
  · have hc := hletters ⟨c.toNat - 0x41, by omega⟩
    rwa [Nat.add_sub_of_le hletter.1, Char.ofNat_toNat] at hc
  · have hsame : c.toLower = c := dif_neg fun hupper => hletter hupper
    have hnone : capitalRuns.find? (fun run => CapitalRun.has run c.toNat) = none := by
      refine List.find?_eq_none.2 fun run hrun hhas => ?_
      simp only [CapitalRun.has, Bool.and_eq_true, decide_eq_true_eq] at hhas
      rcases ascii_of_mem_capitalRuns run hrun with rfl | rfl | ⟨hfar, -⟩
      · exact hletter hhas.1
      · dsimp only at hhas
        omega
      · omega
    rw [lowerChar, if_neg (by omega), hnone, hsame]

/-! ### Texts in small letters -/

theorem lower_append (t u : Text) : lower (t ++ u) = lower t ++ lower u :=
  List.flatMap_append

theorem lower_cons (c : Char) (t : Text) : lower (c :: t) = lowerChar c ++ lower t :=
  List.flatMap_cons

theorem mem_lower : d ∈ lower t ↔ ∃ c ∈ t, d ∈ lowerChar c :=
  List.mem_flatMap

theorem lower_eq_nil_iff : lower t = [] ↔ t = [] := by
  refine ⟨fun h => ?_, fun h => by rw [h]; rfl⟩
  cases t with
  | nil => rfl
  | cons c t =>
    rw [lower_cons] at h
    exact absurd (List.append_eq_nil_iff.1 h).1 (lowerChar_ne_nil c)

/-- The small letters of an ASCII text, character by character. -/
theorem lower_of_ascii (h : Ascii t) : lower t = t.map Char.toLower := by
  rw [lower, List.map_eq_flatMap]
  exact List.flatMap_congr fun c hc => lowerChar_of_ascii (h c hc)

/-- **A word of ASCII letters other than `k` is the small letters of ASCII texts only.** -/
theorem ascii_of_ascii_lower (h : Ascii (lower t)) (hk : 'k' ∉ lower t) : Ascii t := by
  intro c hc
  obtain ⟨d, hd⟩ := List.exists_mem_of_ne_nil _ (lowerChar_ne_nil c)
  have hsmall {e : Char} (he : e ∈ lowerChar c) : e ∈ lower t := mem_lower.2 ⟨c, hc, he⟩
  rcases ascii_of_mem_lowerChar hd (h d (hsmall hd)) with hascii | ⟨-, rfl⟩ | hdotted
  · exact hascii
  · exact absurd (hsmall hd) hk
  · -- the dot would be among the small letters of the text
    have hdot : '\u0307' ∈ lowerChar c := by rw [lowerChar, if_pos hdotted]; simp
    exact absurd (h _ (hsmall hdot)) (by decide)

/-- **The texts with the small letters of an ASCII word without a `k`** are those that spell it in
some case, in ASCII letters. -/
theorem lower_eq_iff (hw : Ascii w) (hk : 'k' ∉ w) :
    lower t = w ↔ Ascii t ∧ t.map Char.toLower = w := by
  refine ⟨fun h => ?_, fun ⟨hascii, h⟩ => (lower_of_ascii hascii).trans h⟩
  subst h
  have hascii := ascii_of_ascii_lower hw hk
  exact ⟨hascii, (lower_of_ascii hascii).symm⟩

/-! ### Words in small letters -/

/-- What is before the first blank of a text is the first of its words, in small letters too. -/
theorem words_lower_append {t u : Text} (hne : t ≠ []) (ht : ∀ c ∈ t, isBlank c = false)
    (hu : ∀ c ∈ u.head?, isBlank c = true) :
    words (lower (t ++ u)) = lower t :: words (lower u) := by
  rw [lower_append]
  refine words_append (mt lower_eq_nil_iff.1 hne) ?_ ?_
  · intro d hd
    obtain ⟨c, hc, hd⟩ := mem_lower.1 hd
    rw [isBlank_of_mem_lowerChar hd, ht c hc]
  · intro d hd
    cases u with
    | nil => exact absurd hd nofun
    | cons c u =>
      obtain ⟨e, small, hsmall⟩ := List.exists_cons_of_ne_nil (lowerChar_ne_nil c)
      rw [lower_cons, hsmall] at hd
      obtain rfl : e = d := Option.mem_some_iff.1 hd
      have he : e ∈ lowerChar c := hsmall ▸ List.mem_cons_self
      rw [isBlank_of_mem_lowerChar he]
      exact hu c rfl

end RunningTab.Text
