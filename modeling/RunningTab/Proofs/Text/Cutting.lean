import Mathlib.Data.List.Basic
import Mathlib.Data.List.TakeWhile
import RunningTab.Text.Blank

/-!
# Texts cut

What is cut off the ends of a text does not come back when more of it is put there: a text keeps its
trimmed form when blanks are added (`RunningTab.Text.trim_append_blanks`,
`RunningTab.Text.trim_blanks_append`), and one without blanks is its own
(`RunningTab.Text.trim_of_not_blank`). A text is cut at the last occurrence of a character, and what
stands behind that has none (`RunningTab.Text.cutLast?_eq_some_iff`).
-/

namespace RunningTab.Text

variable {p : Char → Bool} {c : Char} {t u before behind : Text}

/-! ### The ends -/

/-- What passes the test is taken off the end. -/
theorem trimEndBy_append_of_all (t : Text) (hu : ∀ d ∈ u, p d = true) :
    trimEndBy p (t ++ u) = trimEndBy p t := by
  rw [trimEndBy, trimEndBy, List.reverse_append,
    List.dropWhile_append_of_pos fun d hd => hu d (List.mem_reverse.1 hd)]

/-- A text that ends with a character that fails the test stays as it is. -/
theorem trimEndBy_concat (t : Text) (hc : p c = false) : trimEndBy p (t ++ [c]) = t ++ [c] := by
  rw [trimEndBy, List.reverse_append, List.reverse_singleton, List.singleton_append,
    List.dropWhile_cons_of_neg (by simp [hc]), List.reverse_cons, List.reverse_reverse]

/-- What passes the test is taken off the end up to the last character that fails it. -/
theorem trimEndBy_append_cons (p : Char → Bool) (t : Text) (hc : p c = false)
    (hu : ∀ d ∈ u, p d = true) : trimEndBy p (t ++ c :: u) = t ++ [c] := by
  rw [List.append_cons, trimEndBy_append_of_all _ hu, trimEndBy_concat t hc]

/-- A text stays as it is if none of its characters passes the test. -/
theorem trimEndBy_of_none (ht : ∀ d ∈ t, p d = false) : trimEndBy p t = t := by
  rcases List.eq_nil_or_concat' t with rfl | ⟨front, last, rfl⟩
  · rfl
  · exact trimEndBy_concat front (ht last (by simp))

/-! ### Blanks at the ends -/

/-- Blanks behind a text are cut off. -/
theorem trim_append_blanks (t : Text) (hu : ∀ d ∈ u, isBlank d = true) :
    trim (t ++ u) = trim t := by
  rw [trim, trim, trimStartBy, trimStartBy, List.dropWhile_append]
  split
  · next hempty =>
    rw [List.isEmpty_iff.1 hempty, List.dropWhile_eq_nil_iff.2 hu]
  · exact trimEndBy_append_of_all _ hu

/-- So are blanks before it. -/
theorem trim_blanks_append (t : Text) (hu : ∀ d ∈ u, isBlank d = true) :
    trim (u ++ t) = trim t := by
  rw [trim, trim, trimStartBy, trimStartBy, List.dropWhile_append_of_pos hu]

/-- A text without blanks stays as it is. -/
theorem trim_of_not_blank (ht : ∀ d ∈ t, isBlank d = false) : trim t = t := by
  have hstart : trimStartBy isBlank t = t := by
    rw [trimStartBy, List.dropWhile_eq_self_iff]
    intro hne hblank
    rw [ht _ (List.getElem_mem hne)] at hblank
    cases hblank
  rw [trim, hstart, trimEndBy_of_none ht]

/-- A text without the blanks at its ends does not begin with one. -/
theorem isBlank_head?_trim (t : Text) : ∀ c ∈ (trim t).head?, isBlank c = false := by
  intro c hc
  obtain ⟨behind, hbehind⟩ : trim t <+: trimStartBy isBlank t := by
    have hend : (trimStartBy isBlank t).reverse.dropWhile isBlank <:+
        (trimStartBy isBlank t).reverse := List.dropWhile_suffix isBlank
    have := List.reverse_prefix.2 hend
    rwa [List.reverse_reverse] at this
  obtain ⟨rest, hrest⟩ : ∃ rest, trim t = c :: rest := List.head?_eq_some_iff.1 hc
  rw [hrest, List.cons_append] at hbehind
  have hhead := List.head?_dropWhile_not isBlank t
  rw [← trimStartBy, ← hbehind] at hhead
  simpa using hhead

/-! ### The last occurrence of a character -/

theorem not_mem_of_cutLast?_eq_none (h : cutLast? c t = none) : c ∉ t := by
  induction t with
  | nil => simp
  | cons d ds ih =>
    rw [cutLast?] at h
    cases hcut : cutLast? c ds with
    | some cut => simp [hcut] at h
    | none =>
      rw [hcut] at h
      have hne : d ≠ c := fun hd => by simp [hd] at h
      exact List.not_mem_cons_of_ne_of_not_mem hne.symm (ih hcut)

/-- The last occurrence of a character is where a text is cut. -/
theorem eq_append_of_cutLast?_eq_some (h : cutLast? c t = some (before, behind)) :
    t = before ++ c :: behind ∧ c ∉ behind := by
  induction t generalizing before with
  | nil => exact absurd h (by simp [cutLast?])
  | cons d ds ih =>
    rw [cutLast?] at h
    cases hcut : cutLast? c ds with
    | some cut =>
      rw [hcut] at h
      obtain ⟨rfl, rfl⟩ := Prod.mk.inj (Option.some.inj h)
      obtain ⟨hds, hnot⟩ := ih hcut
      exact ⟨by rw [hds]; rfl, hnot⟩
    | none =>
      rw [hcut] at h
      dsimp only at h
      split at h
      · next hd =>
        obtain ⟨rfl, rfl⟩ := Prod.mk.inj (Option.some.inj h)
        exact ⟨by rw [hd]; rfl, not_mem_of_cutLast?_eq_none hcut⟩
      · exact absurd h (by simp)

theorem cutLast?_of_not_mem (h : c ∉ t) : cutLast? c t = none := by
  cases hcut : cutLast? c t with
  | none => rfl
  | some cut =>
    obtain ⟨rfl, -⟩ := eq_append_of_cutLast?_eq_some hcut
    exact absurd (by simp) h

/-- **A text is cut at the last occurrence of the character.** -/
theorem cutLast?_eq_some_iff :
    cutLast? c t = some (before, behind) ↔ t = before ++ c :: behind ∧ c ∉ behind := by
  refine ⟨eq_append_of_cutLast?_eq_some, ?_⟩
  rintro ⟨rfl, hnot⟩
  induction before with
  | nil =>
    rw [List.nil_append, cutLast?, cutLast?_of_not_mem hnot]
    exact if_pos rfl
  | cons d ds ih =>
    rw [List.cons_append, cutLast?, ih]

end RunningTab.Text
