import RunningTab.Proofs.Editor.InStep
import RunningTab.Proofs.Prompt.Discipline

/-!
# One way of typing

The prompt and the full-screen editor each have an editor of one line. At the prompt the text is
changed at offsets of its bytes, in the editor it is taken apart at a number of characters and put
together again, with the cursor cut down to the length of the text. Neither is how one would say
what typing does: a character goes into the list of characters at the cursor, and deleting takes one
out of it (`RunningTab.LineEditor.typed`). That this is what both do, key by key, is
`RunningTab.LineEditor.press_eq_typed` and `RunningTab.Editor.shows_press`.

An offset of bytes is safe only where a character starts or the text ends
(`RunningTab.Text.IsBoundary`). All the offsets at which the prompt cuts a text
(`RunningTab.LineEditor.cuts`) come from positions in characters, and such an offset cuts the text
at this position (`RunningTab.Text.splitAtByte?_byteOffset`).
-/

namespace RunningTab

/-! ### Offsets of bytes -/

namespace Text

/-- **An offset at which a text can be cut**: a character starts there, or the text ends. -/
def IsBoundary (offset : Nat) (t : Text) : Prop :=
  ∃ before behind, t = before ++ behind ∧ byteSize before = offset

theorem byteSize_cons (c : Char) (t : Text) : byteSize (c :: t) = c.utf8Size + byteSize t := rfl

theorem byteSize_append (t u : Text) : byteSize (t ++ u) = byteSize t + byteSize u := by
  induction t with
  | nil => exact (Nat.zero_add _).symm
  | cons c t ih => rw [List.cons_append, byteSize_cons, byteSize_cons, ih, Nat.add_assoc]

/-- Cutting a text behind a part of it gives this part back. -/
theorem splitAtByte?_append (before behind : Text) :
    splitAtByte? (byteSize before) (before ++ behind) = some (before, behind) := by
  induction before with
  | nil => rw [byteSize, List.foldr_nil, splitAtByte?, List.nil_append]
  | cons c before ih =>
    have hpos : 0 < c.utf8Size := c.utf8Size_pos
    obtain ⟨n, hn⟩ : ∃ n, c.utf8Size + byteSize before = n + 1 :=
      Nat.exists_eq_add_one.2 (Nat.lt_of_lt_of_le hpos (Nat.le_add_right _ _))
    have hrest : n + 1 - c.utf8Size = byteSize before := by omega
    rw [byteSize_cons, hn, List.cons_append, splitAtByte?, if_pos (by omega), hrest, ih,
      Option.map_some]

/-- **The offset of a position cuts a text at this position.** -/
theorem splitAtByte?_byteOffset (t : Text) (i : Nat) :
    splitAtByte? (byteOffset t i) t = some (t.take i, t.drop i) := by
  have h := splitAtByte?_append (t.take i) (t.drop i)
  rwa [List.take_append_drop] at h

theorem isBoundary_byteOffset (t : Text) (i : Nat) : IsBoundary (byteOffset t i) t :=
  ⟨t.take i, t.drop i, (List.take_append_drop i t).symm, rfl⟩

/-- The offset behind a character is that of the next position. -/
theorem byteOffset_succ {t : Text} {i : Nat} {c : Char} (h : t[i]? = some c) :
    byteOffset t (i + 1) = byteOffset t i + c.utf8Size := by
  rw [byteOffset, byteOffset, List.take_add_one, h, byteSize_append]
  rfl

end Text

/-! ### Typing into a list of characters -/

/-- **The keys that type**: a character other than the end of a line, the two keys that delete, and
those that move the cursor along the line. -/
def KeyCode.types : KeyCode → Bool
  | .char c => c != '\n'
  | .backspace | .delete | .left | .right | .home | .toEnd => true
  | _ => false

namespace LineEditor

/-- **What typing does to a list of characters with a cursor.** -/
def typed (code : KeyCode) (l : LineEditor) : LineEditor :=
  match code with
  | .char c => ⟨l.text.insertIdx l.cursor c, l.cursor + 1⟩
  | .backspace => if l.cursor = 0 then l else ⟨l.text.eraseIdx (l.cursor - 1), l.cursor - 1⟩
  | .delete => { l with text := l.text.eraseIdx l.cursor }
  | .left => { l with cursor := l.cursor - 1 }
  | .right => { l with cursor := min (l.cursor + 1) l.text.length }
  | .home => { l with cursor := 0 }
  | .toEnd => { l with cursor := l.text.length }
  | _ => l

/-- What keys do, one after the other. -/
def typedAll (l : LineEditor) (codes : List KeyCode) : LineEditor :=
  codes.foldl (fun l code => l.typed code) l

/-- The cursor is inside the text. -/
def Inside (l : LineEditor) : Prop := l.cursor ≤ l.text.length

variable {l : LineEditor}

theorem typed_backspace (l : LineEditor) :
    l.typed .backspace =
      if l.cursor = 0 then l else ⟨l.text.eraseIdx (l.cursor - 1), l.cursor - 1⟩ :=
  rfl

/-- Typing keeps the cursor inside the text. -/
theorem Inside.typed (h : l.Inside) (code : KeyCode) : (l.typed code).Inside := by
  rw [Inside] at h
  cases code with
  | char c =>
    change l.cursor + 1 ≤ (l.text.insertIdx l.cursor c).length
    rw [List.length_insertIdx_of_le_length h]
    exact Nat.succ_le_succ h
  | backspace =>
    rw [typed_backspace]
    split
    · exact h
    · change l.cursor - 1 ≤ (l.text.eraseIdx (l.cursor - 1)).length
      rw [List.length_eraseIdx]
      split <;> omega
  | delete =>
    change l.cursor ≤ (l.text.eraseIdx l.cursor).length
    rw [List.length_eraseIdx]
    split <;> omega
  | left => exact Nat.le_trans (Nat.sub_le _ _) h
  | right => exact Nat.min_le_right _ _
  | home => exact Nat.zero_le _
  | toEnd => exact Nat.le_refl _
  | function | enter | insert | up | down | pageUp | pageDown | tab | backTab | escape => exact h

/-- Inserting at a position inside a text puts the character between the two parts. -/
theorem insertIdx_eq_append {t : Text} {i : Nat} (h : i ≤ t.length) (c : Char) :
    t.insertIdx i c = t.take i ++ c :: t.drop i := by
  induction i generalizing t with
  | zero => rw [List.insertIdx_zero, List.take_zero, List.drop_zero, List.nil_append]
  | succ i ih =>
    cases t with
    | nil => exact absurd h (Nat.not_succ_le_zero i)
    | cons d t =>
      rw [List.insertIdx_succ_cons, ih (Nat.le_of_succ_le_succ h), List.take_succ_cons,
        List.drop_succ_cons, List.cons_append]

/-! ### The prompt -/

/-- Inserting at the offset of the cursor inserts at the cursor. -/
theorem insertAtByte_byteOffset {t : Text} {i : Nat} (h : i ≤ t.length) (c : Char) :
    insertAtByte (Text.byteOffset t i) c t = t.insertIdx i c := by
  rw [insertAtByte, Text.splitAtByte?_byteOffset, insertIdx_eq_append h]

/-- Removing at the offset of the cursor removes at the cursor. -/
theorem removeAtByte_byteOffset (t : Text) (i : Nat) :
    removeAtByte (Text.byteOffset t i) t = t.eraseIdx i := by
  rw [removeAtByte, Text.splitAtByte?_byteOffset, List.eraseIdx_eq_take_drop_succ]
  cases hdrop : t.drop i with
  | nil =>
    have hlength : t.length ≤ i := List.drop_eq_nil_iff.1 hdrop
    rw [List.drop_eq_nil_of_le (by omega), List.take_of_length_le hlength, List.append_nil]
  | cons c behind =>
    have hbehind : t.drop (i + 1) = behind := by
      rw [← List.tail_drop, hdrop, List.tail_cons]
    rw [hbehind]

/-- **The prompt types**: its editor does to the bytes what typing does to the characters. -/
theorem press_eq_typed (h : l.Inside) {code : KeyCode} (hcode : code.types = true) :
    l.press code = l.typed code := by
  rw [Inside] at h
  cases code with
  | char c =>
    change l.insert c = ⟨l.text.insertIdx l.cursor c, l.cursor + 1⟩
    rw [insert, insertAtByte_byteOffset h]
  | backspace =>
    change (if 0 < l.cursor then { l with cursor := l.cursor - 1 }.removeAtCursor else l) = _
    rw [typed_backspace]
    cases hcursor : l.cursor with
    | zero => rfl
    | succ i =>
      rw [if_pos (Nat.succ_pos i), if_neg (Nat.succ_ne_zero i), removeAtCursor,
        removeAtByte_byteOffset]
  | delete =>
    change (if l.cursor < l.text.length then l.removeAtCursor else l) =
      { l with text := l.text.eraseIdx l.cursor }
    split
    · rw [removeAtCursor, removeAtByte_byteOffset]
    · next hend => rw [List.eraseIdx_of_length_le (Nat.not_lt.1 hend)]
  | left => rfl
  | right =>
    change (if l.cursor < l.text.length then { l with cursor := l.cursor + 1 } else l) =
      { l with cursor := min (l.cursor + 1) l.text.length }
    split
    · next hlt => rw [Nat.min_eq_left hlt]
    · next hend =>
      have hcursor : l.cursor = l.text.length := Nat.le_antisymm h (Nat.not_lt.1 hend)
      rw [Nat.min_eq_right (by omega), ← hcursor]
  | home => rfl
  | toEnd => rfl
  | function | enter | insert | up | down | pageUp | pageDown | tab | backTab | escape =>
    exact absurd hcode Bool.false_ne_true

/-- The offsets between which the character at a position stands. -/
def charEnds (t : Text) (i : Nat) : List Nat :=
  match t[i]? with
  | some c => [Text.byteOffset t i, Text.byteOffset t i + c.utf8Size]
  | none => [Text.byteOffset t i]

/-- **The offsets at which a key cuts the text**: where a character is inserted, and the two ends of
one that is removed; and at the cursor, since what stands before it is drawn. -/
def cuts (code : KeyCode) (l : LineEditor) : List Nat :=
  Text.byteOffset l.text l.cursor ::
    match code with
    | .char _ => [Text.byteOffset l.text l.cursor]
    | .backspace => if 0 < l.cursor then charEnds l.text (l.cursor - 1) else []
    | .delete => if l.cursor < l.text.length then charEnds l.text l.cursor else []
    | _ => []

theorem isBoundary_of_mem_charEnds {t : Text} {i offset : Nat} (h : offset ∈ charEnds t i) :
    Text.IsBoundary offset t := by
  rw [charEnds] at h
  split at h
  · next c hc =>
    rcases List.mem_cons.1 h with rfl | hend
    · exact Text.isBoundary_byteOffset t i
    · rw [List.mem_singleton.1 hend, ← Text.byteOffset_succ hc]
      exact Text.isBoundary_byteOffset t (i + 1)
  · rw [List.mem_singleton.1 h]
    exact Text.isBoundary_byteOffset t i

/-- **Every cut is at a boundary.** -/
theorem isBoundary_of_mem_cuts {code : KeyCode} {offset : Nat} (h : offset ∈ l.cuts code) :
    Text.IsBoundary offset l.text := by
  rcases List.mem_cons.1 h with rfl | h
  · exact Text.isBoundary_byteOffset _ _
  · cases code with
    | char c =>
      rw [List.mem_singleton.1 h]
      exact Text.isBoundary_byteOffset _ _
    | backspace =>
      change offset ∈ if 0 < l.cursor then charEnds l.text (l.cursor - 1) else [] at h
      split at h
      · exact isBoundary_of_mem_charEnds h
      · exact absurd h List.not_mem_nil
    | delete =>
      change offset ∈ if l.cursor < l.text.length then charEnds l.text l.cursor else [] at h
      split at h
      · exact isBoundary_of_mem_charEnds h
      · exact absurd h List.not_mem_nil
    | _ => exact absurd h List.not_mem_nil

end LineEditor

/-! ### The editor -/

namespace Editor

/-- **The editor shows a line**: the help is not shown, and the input and the cursor are those of
the line. -/
structure Shows (e : Editor) (l : LineEditor) : Prop where
  helpShown : e.helpShown = false
  input : e.input = l.text
  cursor : e.cursor = l.cursor

variable {e : Editor} {l : LineEditor}

theorem Shows.insertText (h : e.Shows l) (hl : l.Inside) (c : Char) :
    (e.insertText [c]).Shows (l.typed (.char c)) := by
  have hmin : min e.cursor e.ledger.input.length = l.cursor := by
    rw [h.cursor, show e.ledger.input = l.text from h.input]
    exact Nat.min_eq_left hl
  refine ⟨h.helpShown, ?_, ?_⟩
  · change (e.ledger.insert e.cursor [c]).1.input = l.text.insertIdx l.cursor c
    rw [Ledger.insert, Ledger.input_edit, hmin, show e.ledger.input = l.text from h.input,
      LineEditor.insertIdx_eq_append hl, List.append_assoc, List.singleton_append]
  · change (e.ledger.insert e.cursor [c]).2 = l.cursor + 1
    rw [Ledger.insert, hmin]
    rfl

/-- Erasing before a position inside the text removes the character there. -/
theorem Shows.erase (h : e.Shows l) {i : Nat} (hi : i < l.text.length) :
    (e.erase (i + 1)).Shows ⟨l.text.eraseIdx i, i⟩ := by
  have hmin : min (i + 1) e.ledger.input.length = i + 1 := by
    rw [show e.ledger.input = l.text from h.input]
    exact Nat.min_eq_left hi
  refine ⟨h.helpShown, ?_, ?_⟩
  · change (e.ledger.erase (i + 1)).1.input = l.text.eraseIdx i
    rw [Ledger.erase, hmin]
    change (e.ledger.edit _).input = _
    rw [Ledger.input_edit, show e.ledger.input = l.text from h.input,
      List.eraseIdx_eq_take_drop_succ]
  · change (e.ledger.erase (i + 1)).2 = i
    rw [Ledger.erase, hmin]

/-- **The editor types**: its input goes along with the line, key by key. -/
theorem shows_press (h : e.Shows l) (hl : l.Inside) {code : KeyCode} (hcode : code.types = true) :
    (e.press { code := code }).Shows (l.typed code) := by
  have hlength : e.input.length = l.text.length := by rw [h.input]
  rw [press, if_neg (by rw [h.helpShown]; exact Bool.false_ne_true)]
  cases code with
  | char c => exact h.insertText hl c
  | backspace =>
    change (e.erase e.cursor).Shows (l.typed .backspace)
    rw [LineEditor.typed_backspace]
    cases hcursor : l.cursor with
    | zero =>
      have hcursor' : e.cursor = 0 := h.cursor.trans hcursor
      have herase : e.ledger.erase 0 = (e.ledger, 0) := by
        rw [Ledger.erase, Nat.zero_min]
      rw [if_pos rfl, hcursor', erase, herase]
      exact ⟨h.helpShown, h.input, hcursor.symm⟩
    | succ i =>
      rw [if_neg (Nat.succ_ne_zero i), h.cursor, hcursor]
      exact h.erase (by rw [LineEditor.Inside, hcursor] at hl; exact hl)
  | delete =>
    change e.delete.Shows (l.typed .delete)
    rw [delete, h.cursor, hlength]
    split
    · next hlt => exact h.erase hlt
    · next hend =>
      change e.Shows { l with text := l.text.eraseIdx l.cursor }
      rw [List.eraseIdx_of_length_le (Nat.not_lt.1 hend)]
      exact h
  | left => exact ⟨h.helpShown, h.input, congrArg (· - 1) h.cursor⟩
  | right =>
    refine ⟨h.helpShown, h.input, ?_⟩
    change min (e.cursor + 1) e.input.length = min (l.cursor + 1) l.text.length
    rw [h.cursor, hlength]
  | home => exact ⟨h.helpShown, h.input, rfl⟩
  | toEnd => exact ⟨h.helpShown, h.input, hlength⟩
  | function | enter | insert | up | down | pageUp | pageDown | tab | backTab | escape =>
    exact absurd hcode Bool.false_ne_true

/-- The editor after keys without modifiers. -/
def pressAll (e : Editor) (codes : List KeyCode) : Editor :=
  codes.foldl (fun e code => e.press { code := code }) e

theorem shows_pressAll (h : e.Shows l) (hl : l.Inside) {codes : List KeyCode}
    (hcodes : ∀ code ∈ codes, code.types = true) : (e.pressAll codes).Shows (l.typedAll codes) := by
  induction codes generalizing e l with
  | nil => exact h
  | cons code codes ih =>
    obtain ⟨hcode, hrest⟩ := List.forall_mem_cons.1 hcodes
    exact ih (shows_press h hl hcode) (hl.typed code) hrest

end Editor

/-! ### Both together -/

/-- The prompt's editor after keys. -/
def LineEditor.pressAll (l : LineEditor) (codes : List KeyCode) : LineEditor :=
  codes.foldl (fun l code => l.press code) l

theorem LineEditor.pressAll_eq_typedAll {l : LineEditor} (hl : l.Inside) {codes : List KeyCode}
    (hcodes : ∀ code ∈ codes, code.types = true) : l.pressAll codes = l.typedAll codes := by
  induction codes generalizing l with
  | nil => rfl
  | cons code codes ih =>
    obtain ⟨hcode, hrest⟩ := List.forall_mem_cons.1 hcodes
    change (l.press code).pressAll codes = (l.typed code).typedAll codes
    rw [press_eq_typed hl hcode]
    exact ih (hl.typed code) hrest

namespace Prompt

/-- A key of the session without modifiers goes to its editor. -/
theorem line_press {p : Prompt} (hended : p.ended = false) {code : KeyCode}
    (hcode : code.types = true) (henter : isEnter { code := code } = false) :
    (p.press { code := code }).1.line = p.line.press code ∧
      (p.press { code := code }).1.ended = false := by
  have hedited : (p.edited { code := code }).line = p.line.press code ∧
      (p.edited { code := code }).ended = p.ended := by
    rw [edited, if_neg (by simp)]
    cases code with
    | up | down | tab => exact absurd hcode Bool.false_ne_true
    | _ => exact ⟨rfl, rfl⟩
  rw [press, if_neg (by rw [hended]; exact Bool.false_ne_true), if_neg (by simp [isInterrupt]),
    if_neg (by rw [henter]; exact Bool.false_ne_true)]
  exact ⟨(line_redraw _).trans hedited.1, (ended_redraw _).trans (hedited.2.trans hended)⟩

theorem line_afterAll {p : Prompt} (hended : p.ended = false) {codes : List KeyCode}
    (hcodes : ∀ code ∈ codes, code.types = true)
    (henter : ∀ code ∈ codes, isEnter { code := code } = false) :
    (p.afterAll (codes.map fun code => { code := code })).line = p.line.pressAll codes := by
  induction codes generalizing p with
  | nil => rfl
  | cons code codes ih =>
    obtain ⟨hcode, hrest⟩ := List.forall_mem_cons.1 hcodes
    obtain ⟨henter, hrest'⟩ := List.forall_mem_cons.1 henter
    obtain ⟨hline, hended'⟩ := line_press hended hcode henter
    change ((p.press { code := code }).1.afterAll (codes.map _)).line =
      (p.line.press code).pressAll codes
    rw [ih hended' hrest hrest', hline]

end Prompt

/-- **The prompt and the editor type alike.** Started on an empty line, both have after any keys
that type the text and the cursor that typing into a list of characters gives; and whatever key
comes next, the prompt cuts the text at boundaries of characters only. A session at the prompt hands
its keys to this editor, as long as none is the enter key. -/
theorem typed_alike {e : Editor} (he : e.Reachable) (hhelp : e.helpShown = false)
    (hinput : e.input = []) {codes : List KeyCode} (hcodes : ∀ code ∈ codes, code.types = true) :
    let line := LineEditor.empty.typedAll codes
    LineEditor.empty.pressAll codes = line ∧
    ((e.pressAll codes).input = line.text ∧ (e.pressAll codes).cursor = line.cursor) ∧
    (∀ code, ∀ offset ∈ line.cuts code, Text.IsBoundary offset line.text) ∧
    ∀ p : Prompt, p.ended = false → p.line = .empty →
      (∀ code ∈ codes, Prompt.isEnter { code := code } = false) →
      (p.afterAll (codes.map fun code => { code := code })).line = line := by
  intro line
  have hempty : LineEditor.empty.Inside := Nat.le_refl 0
  have hpress : LineEditor.empty.pressAll codes = line :=
    LineEditor.pressAll_eq_typedAll hempty hcodes
  have hcursor : e.cursor = 0 := by
    have hle := (Editor.inStep_of_reachable he).cursor_le
    rw [hinput] at hle
    exact Nat.le_zero.1 hle
  obtain ⟨-, htext, hcursor⟩ :=
    Editor.shows_pressAll (l := .empty) ⟨hhelp, hinput, hcursor⟩ hempty hcodes
  refine ⟨hpress, ⟨htext, hcursor⟩, fun code offset h => LineEditor.isBoundary_of_mem_cuts h, ?_⟩
  intro p hended hline henter
  rw [Prompt.line_afterAll hended hcodes henter, hline, hpress]

/-- Characters of one to four bytes, deleted and inserted at both ends and between. -/
theorem typed_alike_mixed :
    let codes : List KeyCode := [.char '2', .char '÷', .char '€', .char '😀', .left, .backspace,
      .char 'é', .home, .delete, .backspace, .char '٣', .toEnd, .right, .delete, .backspace,
      .char '%']
    let line := LineEditor.empty.typedAll codes
    line = ⟨"٣÷é%".toList, 4⟩ ∧ LineEditor.empty.pressAll codes = line ∧
      ((Editor.ofSettings .standard).pressAll codes).input = line.text ∧
      ((Editor.ofSettings .standard).pressAll codes).cursor = line.cursor ∧
      ((Prompt.start .standard 1).1.afterAll (codes.map fun code => { code := code })).line =
        line := by
  intro codes line
  have hcodes : ∀ code ∈ codes, code.types = true := by decide
  have he : (Editor.ofSettings .standard).Reachable := ⟨.standard, [], rfl⟩
  obtain ⟨hpress, ⟨htext, hcursor⟩, -, hprompt⟩ := typed_alike he rfl rfl hcodes
  exact ⟨by decide, hpress, htext, hcursor, hprompt _ rfl rfl (by decide)⟩

end RunningTab
