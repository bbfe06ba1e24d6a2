import RunningTab.Text.Width

/-!
# Columns of narrow texts

How many columns a text takes is not the sum of what its characters take
(`RunningTab.Text.width`): emoji sequences, ligatures and line ends are measured as a whole. In a
text whose characters all come before the combining marks there are neither emoji nor ligatures, so
only the line ends are left. Such a text has no more columns than characters
(`RunningTab.Text.width_le_length`), and an ASCII text without carriage returns has one for each
(`RunningTab.Text.width_eq_length`).
-/

namespace RunningTab.Text

/-- **A narrow text**: its characters all come before the combining marks. -/
def Narrow (t : Text) : Prop :=
  ∀ c ∈ t, c.toNat < 0x300

/-- **An ASCII text.** -/
def Ascii (t : Text) : Prop :=
  ∀ c ∈ t, c.toNat < 0x80

instance (t : Text) : Decidable (Ascii t) :=
  List.decidableBAll _ t

variable {c : Char} {t t' : Text}

theorem Ascii.narrow (h : Ascii t) : Narrow t :=
  fun c hc => Nat.lt_trans (h c hc) (by decide)

theorem Ascii.of_subset (h : Ascii t) (ht : t' ⊆ t) : Ascii t' :=
  fun c hc => h c (ht hc)

theorem ascii_replicate (n : Nat) (h : c.toNat < 0x80) : Ascii (List.replicate n c) :=
  fun _ hd => List.eq_of_mem_replicate hd ▸ h

theorem Narrow.tail (h : Narrow (c :: t)) : Narrow t :=
  fun d hd => h d (List.mem_cons_of_mem c hd)

theorem Narrow.head (h : Narrow (c :: t)) : c.toNat < 0x300 :=
  h c List.mem_cons_self

/-! ### Nothing is measured as a whole -/

/-- The character that asks for an emoji is not narrow, and what is shown as one without it comes
later still. -/
theorem emojiLength_of_narrow (h : Narrow t) : emojiLength t = 0 := by
  cases t with
  | nil => rfl
  | cons c t =>
    have hhead : c.toNat < 0x203c := Nat.lt_trans h.head (by decide)
    have hnext : t.head? ≠ some emojiSelector := by
      intro hselector
      have := h.tail emojiSelector (List.mem_of_mem_head? hselector)
      exact absurd this (by decide)
    have hnone : emojiElementLength (c :: t) = 0 := by
      rw [emojiElementLength, if_pos (by simp [hhead, hnext])]
    rw [emojiLength]
    exact if_pos hnone

/-- The first script with ligatures comes after the narrow characters. -/
theorem ligature?_of_narrow (h : Narrow t) : ligature? t = none := by
  cases t with
  | nil => rfl
  | cons c t =>
    have hhead : ¬ 0x5d0 ≤ c.toNat := Nat.not_le.2 (Nat.lt_trans h.head (by decide))
    rw [ligature?]
    exact if_neg (by simpa using hhead)

/-! ### Columns and characters -/

/-- A narrow text is measured character by character, but for its line ends. -/
theorem width_cons_of_narrow (h : Narrow (c :: t)) :
    width (c :: t) = (if c = '\r' ∧ t.head? = some '\n' then 0 else charWidth c) + width t := by
  rw [width, widthAfter, emojiLength_of_narrow h, ligature?_of_narrow h]
  rfl

theorem charWidth_le_one (h : c.toNat < 0x300) : charWidth c ≤ 1 := by
  simp only [charWidth, if_pos h]
  split <;> decide

/-- The one narrow character without a column is the soft hyphen. -/
theorem charWidth_eq_one (h : c.toNat < 0x300) (hhyphen : c.toNat ≠ 0xad) : charWidth c = 1 := by
  simp only [charWidth, if_pos h, if_neg hhyphen]

/-- **A narrow text has no more columns than characters.** -/
theorem width_le_length (h : Narrow t) : width t ≤ t.length := by
  induction t with
  | nil => exact Nat.le_refl 0
  | cons c t ih =>
    have hrest := ih h.tail
    have hhead := charWidth_le_one h.head
    rw [width_cons_of_narrow h, List.length_cons]
    split <;> omega

/-- A narrow text without soft hyphens and carriage returns has a column for every character. -/
theorem width_eq_length_of_narrow (h : Narrow t) (hhyphen : ∀ c ∈ t, c.toNat ≠ 0xad)
    (hreturn : '\r' ∉ t) : width t = t.length := by
  induction t with
  | nil => rfl
  | cons c t ih =>
    obtain ⟨hhead, htail⟩ := not_or.1 (mt List.mem_cons.2 hreturn)
    rw [width_cons_of_narrow h, if_neg fun hc => hhead hc.1.symm,
      charWidth_eq_one h.head (hhyphen c List.mem_cons_self), List.length_cons,
      ih h.tail (fun d hd => hhyphen d (List.mem_cons_of_mem c hd)) htail, Nat.add_comm]

/-- **An ASCII text without carriage returns has a column for every character.** -/
theorem width_eq_length (h : Ascii t) (hreturn : '\r' ∉ t) : width t = t.length :=
  width_eq_length_of_narrow h.narrow
    (fun c hc => Nat.ne_of_lt (Nat.lt_trans (h c hc) (by decide))) hreturn

end RunningTab.Text
