import Mathlib.Data.List.Basic
import RunningTab.Text.Blank

/-!
# Words with single spaces between them

The words of a text are parts of it without blanks (`RunningTab.Text.of_mem_words`). A text that is
taken apart into words and put together again has lost the blanks at its ends, and all its other
blanks have become single spaces. Nothing else changes: the characters that are not
blank (`RunningTab.Text.solid`) are the same as before and in the same order
(`RunningTab.Text.solid_spaced_words`). An induction on the text needs to know no more of the words
than how they start: with the first character that is no blank, and behind it either with the words
of the rest or with a space before these (`RunningTab.Text.exists_spaced_words_cons`).
-/

namespace RunningTab.Text

/-- **The characters of a text that are not blank.** -/
def solid (t : Text) : Text :=
  t.filter (!isBlank ·)

variable {c : Char} {t : Text}

@[simp] theorem solid_append (t u : Text) : solid (t ++ u) = solid t ++ solid u :=
  List.filter_append ..

theorem solid_cons_of_blank (h : isBlank c = true) (t : Text) : solid (c :: t) = solid t :=
  List.filter_cons_of_neg (by simp [h])

theorem solid_cons_of_not_blank (h : isBlank c = false) (t : Text) :
    solid (c :: t) = c :: solid t :=
  List.filter_cons_of_pos (by simp [h])

theorem solid_cons (c : Char) (t : Text) : solid (c :: t) = solid [c] ++ solid t :=
  solid_append [c] t

theorem isBlank_of_mem_solid (h : c ∈ solid t) : isBlank c = false := by
  simpa using (List.mem_filter.1 h).2

theorem solid_eq_nil_iff : solid t = [] ↔ ∀ c ∈ t, isBlank c = true := by
  simp [solid]

/-- Dropping blanks once more changes nothing. -/
theorem solid_of_not_blank (h : ∀ c ∈ t, isBlank c = false) : solid t = t :=
  List.filter_eq_self.2 fun c hc => by simp [h c hc]

theorem solid_eq_self_iff : solid t = t ↔ ∀ c ∈ t, isBlank c = false :=
  ⟨fun h _ hc => isBlank_of_mem_solid (h.symm ▸ hc), solid_of_not_blank⟩

theorem solid_solid (t : Text) : solid (solid t) = solid t :=
  solid_of_not_blank fun _ => isBlank_of_mem_solid

/-! ### The words of a text -/

theorem words_cons (c : Char) (t : Text) : words (c :: t) = if isBlank c then words t else
    match t, words t with
    | d :: _, w :: ws => if isBlank d then [c] :: w :: ws else (c :: w) :: ws
    | _, ws => [c] :: ws :=
  rfl

/-- There are no words exactly if there is nothing but blanks. -/
theorem words_eq_nil_iff (t : Text) : words t = [] ↔ solid t = [] := by
  induction t with
  | nil => exact iff_of_true rfl rfl
  | cons c t ih =>
    rw [words_cons]
    by_cases hc : isBlank c = true
    · rw [if_pos hc, solid_cons_of_blank hc, ih]
    · rw [if_neg hc, solid_cons_of_not_blank (Bool.eq_false_iff.2 hc)]
      refine iff_of_false ?_ (List.cons_ne_nil _ _)
      split
      · split <;> exact List.cons_ne_nil _ _
      · exact List.cons_ne_nil _ _

/-- A part without blanks that ends before a blank, or with the text, is the first word. -/
theorem words_append {w : Text} (hne : w ≠ []) (hw : ∀ c ∈ w, isBlank c = false)
    (ht : ∀ c ∈ t.head?, isBlank c = true) : words (w ++ t) = w :: words t := by
  induction w with
  | nil => exact absurd rfl hne
  | cons c w ih =>
    rw [List.cons_append, words_cons, if_neg (Bool.eq_false_iff.1 (hw c List.mem_cons_self))]
    cases w with
    | nil =>
      cases t with
      | nil => rfl
      | cons d t =>
        cases hws : words (d :: t) with
        | nil => simp [hws]
        | cons v ws => simp [hws, ht d rfl]
    | cons b w =>
      have hb : isBlank b = false := hw b (by simp)
      rw [ih (List.cons_ne_nil _ _) fun e he => hw e (List.mem_cons_of_mem c he)]
      simp [hb]

/-- **A word is not empty**, and it has characters of the text that are not blank. -/
theorem of_mem_words {w : Text} (h : w ∈ words t) :
    w ≠ [] ∧ ∀ c ∈ w, c ∈ t ∧ isBlank c = false := by
  induction t generalizing w with
  | nil => cases h
  | cons c t ih =>
    -- what is a word of the rest is one of the whole text
    have hrest {v : Text} (hv : v ∈ words t) :
        v ≠ [] ∧ ∀ d ∈ v, d ∈ c :: t ∧ isBlank d = false :=
      ⟨(ih hv).1, fun d hd => ⟨List.mem_cons_of_mem c ((ih hv).2 d hd).1, ((ih hv).2 d hd).2⟩⟩
    have hhead {v : Text} (hc : isBlank c = false)
        (hv : ∀ d ∈ v, d ∈ c :: t ∧ isBlank d = false) :
        c :: v ≠ [] ∧ ∀ d ∈ c :: v, d ∈ c :: t ∧ isBlank d = false :=
      ⟨List.cons_ne_nil c v, List.forall_mem_cons.2 ⟨⟨List.mem_cons_self, hc⟩, hv⟩⟩
    rw [words_cons] at h
    by_cases hc : isBlank c = true
    · rw [if_pos hc] at h
      exact hrest h
    · rw [if_neg hc] at h
      rw [Bool.not_eq_true] at hc
      split at h
      · next d t v ws hws =>
        split at h
        · rcases List.mem_cons.1 h with rfl | h
          · exact hhead hc nofun
          · exact hrest (hws ▸ h)
        · rcases List.mem_cons.1 h with rfl | h
          · exact hhead hc (hrest (hws ▸ List.mem_cons_self)).2
          · exact hrest (hws ▸ List.mem_cons_of_mem v h)
      · rcases List.mem_cons.1 h with rfl | h
        · exact hhead hc nofun
        · exact hrest h

/-! ### Words with spaces between them -/

theorem spaced_singleton (w : Text) : spaced [w] = w :=
  List.intercalate_singleton

theorem spaced_cons (w : Text) {ws : List Text} (h : ws ≠ []) :
    spaced (w :: ws) = w ++ ' ' :: spaced ws := by
  rw [spaced, List.intercalate_cons_of_ne_nil h, List.append_assoc]
  rfl

theorem spaced_concat {ws : List Text} (h : ws ≠ []) (w : Text) :
    spaced (ws ++ [w]) = spaced ws ++ ' ' :: w := by
  induction ws with
  | nil => exact absurd rfl h
  | cons v ws ih =>
    by_cases hws : ws = []
    · rw [hws, List.singleton_append, spaced_cons v (List.cons_ne_nil w []), spaced_singleton,
        spaced_singleton]
    · rw [List.cons_append, spaced_cons v (List.append_ne_nil_of_left_ne_nil hws _), ih hws,
        spaced_cons v hws, List.append_assoc, List.cons_append]

/-- They begin with the first word and end with the last one. -/
theorem exists_spaced_eq_append {ws : List Text} (h : ws ≠ []) :
    (∃ w ∈ ws, ∃ behind, spaced ws = w ++ behind) ∧
      ∃ w ∈ ws, ∃ before, spaced ws = before ++ w := by
  constructor
  · obtain ⟨w, rest, rfl⟩ := List.exists_cons_of_ne_nil h
    by_cases hrest : rest = []
    · exact ⟨w, List.mem_cons_self, [], by rw [hrest, spaced_singleton, List.append_nil]⟩
    · exact ⟨w, List.mem_cons_self, _, spaced_cons w hrest⟩
  · obtain ⟨front, w, rfl⟩ := (List.eq_nil_or_concat' ws).resolve_left h
    by_cases hfront : front = []
    · exact ⟨w, by simp, [], by rw [hfront, List.nil_append, spaced_singleton, List.nil_append]⟩
    · refine ⟨w, by simp, spaced front ++ [' '], ?_⟩
      rw [spaced_concat hfront, List.append_assoc, List.singleton_append]

/-- A character goes before the first word. -/
theorem spaced_cons_cons (c : Char) (w : Text) (ws : List Text) :
    spaced ((c :: w) :: ws) = c :: spaced (w :: ws) := by
  by_cases h : ws = []
  · rw [h]
    rfl
  · rw [spaced_cons _ h, spaced_cons _ h, List.cons_append]

/-! ### What comes first of the words -/

theorem spaced_words_of_blank (h : isBlank c = true) (t : Text) :
    spaced (words (c :: t)) = spaced (words t) := by
  rw [words_cons, if_pos h]

/-- A character before a blank, or the last one, is the end of a word. -/
theorem spaced_words_before_blank (hc : isBlank c = false)
    (ht : ∀ d ∈ t.head?, isBlank d = true) :
    spaced (words (c :: t)) = c :: if solid t = [] then [] else ' ' :: spaced (words t) := by
  rw [words_cons, if_neg (Bool.eq_false_iff.1 hc)]
  by_cases hwords : words t = []
  · rw [if_pos ((words_eq_nil_iff t).1 hwords), hwords]
    cases t <;> rfl
  · rw [if_neg (mt (words_eq_nil_iff t).2 hwords)]
    obtain ⟨w, ws, hws⟩ := List.exists_cons_of_ne_nil hwords
    cases t with
    | nil => exact absurd rfl hwords
    | cons d t =>
      rw [hws]
      dsimp only
      rw [if_pos (ht d rfl), spaced_cons _ (List.cons_ne_nil w ws)]
      rfl

/-- A character before one that is no blank belongs to the same word. -/
theorem spaced_words_inside_word {d : Char} (hc : isBlank c = false) (hd : isBlank d = false)
    (t : Text) : spaced (words (c :: d :: t)) = c :: spaced (words (d :: t)) := by
  have hne : words (d :: t) ≠ [] := by
    rw [Ne, words_eq_nil_iff, solid_cons_of_not_blank hd]
    exact List.cons_ne_nil _ _
  obtain ⟨w, ws, hws⟩ := List.exists_cons_of_ne_nil hne
  rw [words_cons, if_neg (Bool.eq_false_iff.1 hc), hws]
  dsimp only
  rw [if_neg (Bool.eq_false_iff.1 hd), spaced_cons_cons]

/-- A character that is no blank comes first; what follows are the words behind it, with a space
before them if it is the end of a word. -/
theorem exists_spaced_words_cons (hc : isBlank c = false) (t : Text) :
    ∃ rest, spaced (words (c :: t)) = c :: rest ∧
      ((∀ d ∈ t.head?, isBlank d = false) ∧ rest = spaced (words t) ∨
        (∀ d ∈ t.head?, isBlank d = true) ∧
          rest = if solid t = [] then [] else ' ' :: spaced (words t)) := by
  cases t with
  | nil => exact ⟨_, spaced_words_before_blank hc nofun, .inr ⟨nofun, rfl⟩⟩
  | cons d t =>
    cases hd : isBlank d with
    | false => exact ⟨_, spaced_words_inside_word hc hd t, .inl ⟨by simp [hd], rfl⟩⟩
    | true =>
      have ht : ∀ e ∈ (d :: t).head?, isBlank e = true := by simp [hd]
      exact ⟨_, spaced_words_before_blank hc ht, .inr ⟨ht, rfl⟩⟩

/-- **Nothing but blanks is lost or gained.** -/
theorem solid_spaced_words (t : Text) : solid (spaced (words t)) = solid t := by
  induction t with
  | nil => rfl
  | cons c t ih =>
    cases hc : isBlank c with
    | true => rw [spaced_words_of_blank hc, ih, solid_cons_of_blank hc]
    | false =>
      obtain ⟨rest, hrest, ⟨-, rfl⟩ | ⟨-, rfl⟩⟩ := exists_spaced_words_cons hc t
      · rw [hrest, solid_cons_of_not_blank hc, solid_cons_of_not_blank hc, ih]
      · rw [hrest, solid_cons_of_not_blank hc, solid_cons_of_not_blank hc]
        split
        · next hnil => rw [hnil]; rfl
        · rw [solid_cons_of_blank (by decide), ih]

end RunningTab.Text
