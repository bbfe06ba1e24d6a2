import RunningTab.Proofs.Text.Cutting
import RunningTab.Proofs.Text.Lowercase
import RunningTab.Proofs.Typing

/-!
# Where the word of a command ends

The prompt knows a command by the small letters of a line, but what it does then it does with the
line itself: of a line that begins with `details` it cuts off as many bytes as this word has. In
general that would be a mistake. Small letters can be more bytes than the letters they come from, or
fewer, and an offset counted in the one text may be none in the other.

It is right because of what the word is. Its letters are ASCII letters without a `k`, and small
letters of nothing else, so the line begins with this word in some case, letter for letter and byte
for byte, and with a blank behind it (`RunningTab.Command.exists_spelled`). What is worked out is
the rest of the line, in the case in which it was typed (`RunningTab.Command.details_cut_off`).
-/

namespace RunningTab

namespace Text

variable {t : Text}

/-- An ASCII character is one byte. -/
theorem byteSize_of_ascii (h : Ascii t) : byteSize t = t.length := by
  induction t with
  | nil => rfl
  | cons c t ih =>
    have hc : c.utf8Size = 1 := by
      have hlt := h c List.mem_cons_self
      rw [Char.utf8Size, if_pos (by rw [UInt32.le_iff_toNat_le]; exact Nat.le_of_lt_succ hlt)]
    rw [byteSize_cons, hc, ih (h.of_subset (List.subset_cons_self c t)), List.length_cons,
      Nat.add_comm]

/-- A text that does not begin with a blank begins with a word. -/
theorem exists_first_word (hne : t ≠ []) (hhead : ∀ c ∈ t.head?, isBlank c = false) :
    ∃ word rest, t = word ++ rest ∧ word ≠ [] ∧ (∀ c ∈ word, isBlank c = false) ∧
      ∀ c ∈ rest.head?, isBlank c = true := by
  refine ⟨t.takeWhile (!isBlank ·), t.dropWhile (!isBlank ·), List.takeWhile_append_dropWhile.symm,
    ?_, fun c hc => by simpa using List.mem_takeWhile_imp hc, fun c hc => ?_⟩
  · obtain ⟨c, t, rfl⟩ := List.exists_cons_of_ne_nil hne
    rw [List.takeWhile_cons_of_pos (by simp [hhead c rfl])]
    exact List.cons_ne_nil _ _
  · have hend := List.head?_dropWhile_not (!isBlank ·) t
    rw [Option.mem_def.1 hc] at hend
    simpa using hend

end Text

namespace Command

variable {line argument t : Text} {more : List Text}

/-- **A text spells a word**: it is that word in ASCII letters, each of them capital or small. -/
def Spells (word t : Text) : Prop :=
  (∀ c ∈ t, c.isAlpha = true) ∧ t.map Char.toLower = word

theorem Spells.length {word : Text} (h : Spells word t) : t.length = word.length := by
  rw [← h.2, List.length_map]

/-- What has the small letters of `details` is this word. -/
theorem spells_of_lower_eq (h : Text.lower t = detailsWord) :
    Text.Ascii t ∧ Spells detailsWord t := by
  have hword : Text.Ascii detailsWord := by decide
  obtain ⟨hascii, hlower⟩ := (Text.lower_eq_iff hword (by decide)).1 h
  refine ⟨hascii, fun c hc => ?_, hlower⟩
  have hletters : ∀ n : Fin 0x80, (Char.ofNat n).toLower ∈ detailsWord →
      (Char.ofNat n).isAlpha = true := by decide
  have hletter := hletters ⟨c.toNat, hascii c hc⟩
  rw [Char.ofNat_toNat] at hletter
  exact hletter (hlower ▸ List.mem_map_of_mem hc)

/-- **A line whose small letters begin with the word `details` begins with this word**, and with a
blank behind it if there is more to come. -/
theorem exists_spelled
    (h : Text.words (Text.lower (Text.trim line)) = detailsWord :: argument :: more) :
    ∃ word gap rest, Text.trim line = word ++ gap :: rest ∧ Text.Ascii word ∧
      Spells detailsWord word ∧ Text.isBlank gap = true := by
  have hne : Text.trim line ≠ [] := fun hnil => by
    rw [hnil] at h
    cases h
  obtain ⟨word, rest, hline, hword, hletters, hrest⟩ :=
    Text.exists_first_word hne (Text.isBlank_head?_trim line)
  rw [hline, Text.words_lower_append hword hletters hrest] at h
  obtain ⟨hfirst, hmore⟩ := List.cons.inj h
  obtain ⟨hascii, hspells⟩ := spells_of_lower_eq hfirst
  cases rest with
  | nil => cases hmore
  | cons gap rest => exact ⟨word, gap, rest, hline, hascii, hspells, hrest gap rfl⟩

/-- **The word `details` is cut off a line where it ends.** If the small letters of a line have this
word and another behind it, then the line itself begins with the seven letters of the word, in some
case, and a blank. A character ends behind the seven bytes that are cut off; the rest of the line is
worked out as it was typed, without the blanks at its ends, and the ledger stays as it is. -/
theorem details_cut_off
    (h : Text.words (Text.lower (Text.trim line)) = detailsWord :: argument :: more) :
    ∃ word gap rest, Text.trim line = word ++ gap :: rest ∧
      word.length = 7 ∧ Spells detailsWord word ∧ Text.isBlank gap = true ∧
      Text.splitAtByte? 7 (Text.trim line) = some (word, gap :: rest) ∧
      ofLine (Text.trim line) = .details (Text.trim rest) ∧
      (∀ s l, submitLine s l (Text.trim line) =
        (l, Reply.workLines s (Text.trim rest) (Expr.work (Text.trim rest)))) ∧
      ∀ (p : Prompt) k l, p.handedOver? k = some (l, Text.trim line) →
        (p.press k).1.ledger = l ∧
          Prompt.printed (Reply.workLines p.settings (Text.trim rest)
            (Expr.work (Text.trim rest))) <+: (p.press k).2 := by
  obtain ⟨word, gap, rest, hline, hascii, hspells, hgap⟩ := exists_spelled h
  have hlength : word.length = 7 := hspells.length
  have hsplit : Text.splitAtByte? 7 (Text.trim line) = some (word, gap :: rest) := by
    rw [hline, ← hlength, ← Text.byteSize_of_ascii hascii]
    exact Text.splitAtByte?_append word (gap :: rest)
  have htrim : Text.trim (gap :: rest) = Text.trim rest :=
    Text.trim_blanks_append (u := [gap]) rest fun c hc => List.mem_singleton.1 hc ▸ hgap
  have hcommand : ofLine (Text.trim line) = .details (Text.trim rest) := by
    have hsize : Text.byteSize detailsWord = 7 := by decide
    rw [ofLine, h]
    dsimp only
    rw [if_neg (by decide), if_pos rfl, hsize, Text.dropBytes, hsplit, Option.map_some,
      Option.getD_some, htrim]
  have hsubmit (s : Settings) (l : Ledger) : submitLine s l (Text.trim line) =
      (l, Reply.workLines s (Text.trim rest) (Expr.work (Text.trim rest))) := by
    rw [submitLine, hcommand]
    rfl
  refine ⟨word, gap, rest, hline, hlength, hspells, hgap, hsplit, hcommand, hsubmit,
    fun p k l hover => ?_⟩
  have hpress := Prompt.ledger_press_of_handedOver? hover
  rwa [hsubmit] at hpress

/-- The word in mixed case, a wide space behind it, and a Kelvin sign in the rest, which keeps its
case: it is what the work fails at. -/
theorem details_cut_off_mixed_case :
    let line : Text := " DeTAiLS\u3000 7x\u212a\t".toList
    Text.words (Text.lower (Text.trim line)) = [detailsWord, "7xk".toList] ∧
      Text.splitAtByte? 7 (Text.trim line) = some ("DeTAiLS".toList, "\u3000 7x\u212a".toList) ∧
      ofLine (Text.trim line) = .details "7x\u212a".toList ∧
      (submitLine .standard (.blank 4 18.0) (Text.trim line)).2 =
        ["7x\u212a = Error: Unknown character: '\u212a'".toList] := by
  intro line
  have hwords : Text.words (Text.lower (Text.trim line)) = [detailsWord, "7xk".toList] := by decide
  obtain ⟨word, gap, rest, hline, hlength, -, -, hsplit, hcommand, hsubmit, -⟩ :=
    details_cut_off hwords
  have hparts : "DeTAiLS".toList ++ '\u3000' :: " 7x\u212a".toList = word ++ gap :: rest := by
    rw [← hline]
    decide
  obtain ⟨rfl, hbehind⟩ := List.append_inj hparts hlength.symm
  obtain ⟨rfl, rfl⟩ := List.cons.inj hbehind
  exact ⟨hwords, hsplit, hcommand, by rw [hsubmit]; decide +kernel⟩

end Command

end RunningTab
