import RunningTab.Proofs.Prompt.Discipline

/-!
# Recalling lines

The history of a session is the lines that were handed over to be carried out
(`RunningTab.Prompt.history_afterAll`). The up key recalls the line before the recalled one, and
stops at the oldest (`RunningTab.Prompt.recallsFrom_of_pos`). What it begins with is the index that
the session has: behind the last line, nothing is recalled yet.

That index outlives the prompt. A line that is carried out puts it behind the last line, where the
next prompt begins with the newest one. A blank line carries nothing out and leaves the index where
it is: unless that is behind the last line anyway, the next prompt goes on where the one before has
stopped, and from the oldest line it goes nowhere (`RunningTab.Prompt.recallsNewestFirst_iff`).
-/

namespace RunningTab.Prompt

variable {p : Prompt} {k : Key}

/-! ### The history -/

/-- The lines that keys hand over to be carried out. -/
def carriedOut (p : Prompt) : List Key → List Text
  | [] => []
  | k :: keys => ((p.handedOver? k).map Prod.snd).toList ++ (p.press k).1.carriedOut keys

/-- **A key adds the line to the history that it hands over**, and nothing else. -/
theorem history_press (k : Key) (p : Prompt) :
    (p.press k).1.history = p.history ++ ((p.handedOver? k).map Prod.snd).toList := by
  rw [press, handedOver?]
  by_cases hended : p.ended
  · simp [hended]
  by_cases hinterrupt : isInterrupt k
  · simp [hended, hinterrupt]
  by_cases henter : isEnter k
  · rw [if_neg hended, if_neg hinterrupt, if_pos henter, submit]
    by_cases hblank : Text.trim p.line.text = []
    · simp [hblank, opened]
    · simp only [hblank, hended, hinterrupt, henter, if_false, not_true_eq_false, or_self,
        Option.map]
      split
      · rfl
      · exact history_redraw _
  · obtain ⟨i, line, hedited, -⟩ := exists_edited k p
    simp [hended, hinterrupt, henter, hedited]

/-- **The history is the lines carried out**, in their order. -/
theorem history_afterAll (p : Prompt) (keys : List Key) :
    (p.afterAll keys).history = p.history ++ p.carriedOut keys := by
  induction keys generalizing p with
  | nil => exact (List.append_nil _).symm
  | cons k keys ih =>
    change ((p.press k).1.afterAll keys).history = _
    rw [ih, history_press, carriedOut, List.append_assoc]

/-! ### The index of the recalled line -/

/-- **The index is in order**: it is that of a line, or behind the last one. No line of the history
is empty. -/
structure RecallInOrder (p : Prompt) : Prop where
  recalled_le : p.recalled ≤ p.history.length
  ne_nil : ∀ t ∈ p.history, t ≠ []

/-- A line carried out leaves the index behind the last one. -/
theorem recalled_press_of_handedOver? (h : p.handedOver? k ≠ none) :
    (p.press k).1.recalled = (p.press k).1.history.length := by
  obtain ⟨⟨l, t⟩, hover⟩ := Option.ne_none_iff_exists'.1 h
  obtain ⟨-, rfl, hne, hended, hinterrupt, henter⟩ := handedOver?_eq_some hover
  rw [press_eq_submit hended hinterrupt henter, submit]
  dsimp only
  rw [if_neg hne]
  split
  · rfl
  · rw [opened]
    simp

/-- So the index stays in order with every key. -/
theorem RecallInOrder.press (h : p.RecallInOrder) (k : Key) : (p.press k).1.RecallInOrder := by
  constructor
  · by_cases hover : p.handedOver? k = none
    · rw [history_press, hover, Option.map_none, Option.toList_none, List.append_nil, Prompt.press]
      split_ifs with hended hinterrupt henter
      · exact h.recalled_le
      · exact h.recalled_le
      · have hblank : Text.trim p.line.text = [] := by
          simpa [handedOver?, hended, hinterrupt, henter] using hover
        rw [submit]
        dsimp only
        rw [if_pos hblank]
        exact h.recalled_le
      · -- the history is as before, and the index has moved within it at most
        obtain ⟨i, line, hedited, hi⟩ := exists_edited k p
        rw [recalled_redraw, hedited]
        exact hi.elim (fun hsame => hsame ▸ h.recalled_le) id
    · exact Nat.le_of_eq (recalled_press_of_handedOver? hover)
  · intro t ht
    rw [history_press, List.mem_append, Option.mem_toList, Option.map_eq_some_iff] at ht
    rcases ht with ht | ⟨⟨l, t⟩, hover, rfl⟩
    · exact h.ne_nil t ht
    · exact (handedOver?_eq_some hover).2.2.1

theorem recallInOrder_of_reachable (h : p.Reachable) : p.RecallInOrder :=
  of_reachable (fun _ _ => ⟨Nat.zero_le _, nofun⟩) (fun _ k hp => hp.press k) h

/-! ### The up key -/

/-- The up key. -/
def upKey : Key := { code := .up }

theorem press_up (hended : p.ended = false) : (p.press upKey).1 = p.recallOlder.redraw.1 := by
  rw [press, if_neg (by simp [hended])]
  rfl

/-- With no line before the recalled one, the up key changes nothing. -/
theorem press_up_of_eq_zero (hended : p.ended = false) (h : p.recalled = 0) :
    (p.press upKey).1 = p.redraw.1 := by
  rw [press_up hended, recallOlder, if_neg (by omega)]

/-- Otherwise it recalls the line before. -/
theorem press_up_of_eq_succ (hended : p.ended = false) {i : Nat} (h : p.recalled = i + 1) {t : Text}
    (ht : p.history[i]? = some t) :
    (p.press upKey).1 = { p with recalled := i, line := .ofText t }.redraw.1 := by
  rw [press_up hended, recallOlder, if_pos (by omega), h, Nat.add_sub_cancel, recallAt, ht]

/-- **A line of the history is shown**: it is the recalled one, and what is typed. -/
def ShowsLine (p : Prompt) (i : Nat) : Prop :=
  p.recalled = i ∧ ∃ t, p.history[i]? = some t ∧ p.line = .ofText t

/-- **The up key recalls the lines before an index**, one after the other down to the oldest. -/
def RecallsFrom (p : Prompt) (i : Nat) : Prop :=
  ∀ n, 0 < n → (p.afterAll (List.replicate n upKey)).ShowsLine (i - n)

/-- **The newest line comes first.** -/
def RecallsNewestFirst (p : Prompt) : Prop :=
  p.RecallsFrom p.history.length

/-- What `n` times the up key make of `p`: the index goes back as far as there are lines, and the
line at the index is shown, unless there was none to begin with. -/
structure Climbed (p : Prompt) (n : Nat) (q : Prompt) : Prop where
  ended : q.ended = false
  history : q.history = p.history
  recalled : q.recalled = p.recalled - n
  line : 0 < n → 0 < p.recalled → ∃ t, p.history[p.recalled - n]? = some t ∧ q.line = .ofText t
  line_eq : p.recalled = 0 → q.line = p.line

/-- One more line back, or none is left. -/
theorem Climbed.up {q : Prompt} {n : Nat} (h : Climbed p n q)
    (hle : p.recalled ≤ p.history.length) : Climbed p (n + 1) (q.press upKey).1 := by
  have hrecalled := h.recalled
  cases hi : q.recalled with
  | zero =>
    rw [press_up_of_eq_zero h.ended hi]
    have hsame : p.recalled - (n + 1) = p.recalled - n := by omega
    constructor
    · simpa using h.ended
    · simpa using h.history
    · simpa [hsame] using hrecalled
    · intro _ hpos
      rw [hsame, line_redraw]
      exact h.line (by omega) hpos
    · simpa using h.line_eq
  | succ i =>
    have hindex : p.recalled - (n + 1) = i := by omega
    obtain ⟨t, ht⟩ : ∃ t, p.history[i]? = some t :=
      ⟨_, List.getElem?_eq_getElem (show i < p.history.length by omega)⟩
    rw [press_up_of_eq_succ h.ended hi (by rw [h.history]; exact ht)]
    constructor
    · simpa using h.ended
    · simpa using h.history
    · simp [hindex]
    · intro _ _
      exact ⟨t, by rw [hindex]; exact ht, by simp⟩
    · intro hzero
      omega

/-- **The up key, pressed again and again.** -/
theorem climbed_afterAll (hle : p.recalled ≤ p.history.length) (hended : p.ended = false)
    (n : Nat) : Climbed p n (p.afterAll (List.replicate n upKey)) := by
  induction n with
  | zero => exact ⟨hended, rfl, rfl, fun h => absurd h (Nat.lt_irrefl 0), fun _ => rfl⟩
  | succ n ih =>
    have hlast : p.afterAll (List.replicate (n + 1) upKey) =
        ((p.afterAll (List.replicate n upKey)).press upKey).1 := by
      rw [List.replicate_succ', afterAll, afterAll, List.foldl_append]
      rfl
    rw [hlast]
    exact ih.up hle

/-- **From an index with a line before it, the lines before it are recalled.** -/
theorem recallsFrom_of_pos (hp : p.RecallInOrder) (hended : p.ended = false)
    (hpos : 0 < p.recalled) : p.RecallsFrom p.recalled := by
  intro n hn
  have hclimbed := climbed_afterAll hp.recalled_le hended n
  obtain ⟨t, ht, hline⟩ := hclimbed.line hn hpos
  exact ⟨hclimbed.recalled, t, by rw [hclimbed.history]; exact ht, hline⟩

/-- The newest line comes first exactly if the index is behind it, at a prompt where nothing has
been typed and there is a line to recall. -/
theorem recallsNewestFirst_iff_recalled (hp : p.RecallInOrder) (hended : p.ended = false)
    (hline : p.line = .empty) (hne : p.history ≠ []) :
    p.RecallsNewestFirst ↔ p.recalled = p.history.length := by
  have hlength : 0 < p.history.length := List.length_pos_iff.2 hne
  constructor
  · intro h
    have hclimbed := climbed_afterAll hp.recalled_le hended 1
    obtain ⟨hindex, t, ht, htext⟩ := h 1 Nat.one_pos
    have hrecalled := hclimbed.recalled
    rcases Nat.eq_zero_or_pos p.recalled with hzero | hpos
    · -- an empty line would be shown, and there is none in the history
      have hempty : t = [] := by
        have htyped := hclimbed.line_eq hzero
        rw [hline, htext] at htyped
        exact congrArg LineEditor.text htyped
      refine absurd hempty (hp.ne_nil t ?_)
      rw [hclimbed.history] at ht
      exact List.mem_of_getElem? ht
    · omega
  · intro h
    rw [RecallsNewestFirst, ← h]
    exact recallsFrom_of_pos hp hended (by omega)

/-! ### The next prompt -/

/-- **A key opens the next prompt**: it is the enter key, and the session goes on. -/
structure OpensPrompt (p : Prompt) (k : Key) : Prop where
  ended : p.ended = false
  interrupt : isInterrupt k = false
  enter : isEnter k = true
  going : (p.press k).1.ended = false

/-- The line of a new prompt is empty. -/
theorem OpensPrompt.line (h : p.OpensPrompt k) : (p.press k).1.line = .empty := by
  have hgoing := h.going
  rw [press_eq_submit h.ended h.interrupt h.enter, submit] at hgoing ⊢
  dsimp only at hgoing ⊢
  split
  · exact line_redraw _
  · next hne =>
    rw [if_neg hne] at hgoing
    split
    · next hquit =>
      rw [if_pos hquit] at hgoing
      exact absurd hgoing.symm Bool.false_ne_true
    · exact line_redraw _

/-- It hands a line over unless that is blank. -/
theorem OpensPrompt.handedOver?_eq_none_iff (h : p.OpensPrompt k) :
    p.handedOver? k = none ↔ Text.trim p.line.text = [] := by
  simp [handedOver?, h.ended, h.interrupt, h.enter]

/-- A blank line leaves the index as it is. -/
theorem OpensPrompt.recalled_of_blank (h : p.OpensPrompt k) (hblank : Text.trim p.line.text = []) :
    (p.press k).1.recalled = p.recalled := by
  rw [press_eq_submit h.ended h.interrupt h.enter, submit]
  dsimp only
  rw [if_pos hblank]
  exact recalled_redraw _

/-- **Where a prompt begins to recall.** The history of a session is the lines carried out so far,
and its index is that of one of them or behind the last. When a prompt is opened and there are lines
to recall, the up key recalls the newest line first and so on down to the oldest, exactly if a line
was carried out for it, or the index was behind the last line before. After a blank line it goes on
from the index before, and does nothing if that is the oldest line's. -/
theorem recallsNewestFirst_iff (s : Settings) (row : Nat) (keys : List Key) :
    let p := (start s row).1.afterAll keys
    p.history = (start s row).1.carriedOut keys ∧ p.recalled ≤ p.history.length ∧
      ∀ k, p.OpensPrompt k → (p.press k).1.history ≠ [] →
        ((p.press k).1.RecallsNewestFirst ↔
          Text.trim p.line.text ≠ [] ∨ p.recalled = p.history.length) ∧
        (Text.trim p.line.text = [] →
          (0 < p.recalled → (p.press k).1.RecallsFrom p.recalled) ∧
          (p.recalled = 0 →
            ∀ n, ((p.press k).1.afterAll (List.replicate n upKey)).line = .empty)) := by
  intro p
  have hreachable : p.Reachable := ⟨s, row, keys, rfl⟩
  have hp := recallInOrder_of_reachable hreachable
  refine ⟨(history_afterAll _ keys).trans (List.nil_append _), hp.recalled_le, ?_⟩
  intro k hopens hne
  have hnext : (p.press k).1.RecallInOrder := hp.press k
  have hiff := recallsNewestFirst_iff_recalled hnext hopens.going hopens.line hne
  by_cases hblank : Text.trim p.line.text = []
  · have hsame : (p.press k).1.history = p.history := by
      rw [history_press, hopens.handedOver?_eq_none_iff.2 hblank]
      exact List.append_nil _
    have hrecalled := hopens.recalled_of_blank hblank
    refine ⟨?_, fun _ => ⟨fun hpos => ?_, fun hzero n => ?_⟩⟩
    · rw [hiff, hsame, hrecalled]
      exact ⟨Or.inr, fun h => h.resolve_left (fun hnot => hnot hblank)⟩
    · rw [← hrecalled] at hpos ⊢
      exact recallsFrom_of_pos hnext hopens.going hpos
    · have hclimbed := climbed_afterAll hnext.recalled_le hopens.going n
      rw [hclimbed.line_eq (hrecalled.trans hzero), hopens.line]
  · have hover : p.handedOver? k ≠ none := mt hopens.handedOver?_eq_none_iff.1 hblank
    refine ⟨?_, fun h => absurd h hblank⟩
    rw [hiff]
    exact ⟨fun _ => Or.inl hblank, fun _ => recalled_press_of_handedOver? hover⟩

/-- After `1` and `2` have been carried out the newest line comes first. When the `2` is recalled,
deleted, and a blank line entered instead, the next prompt begins with the `1`. -/
theorem recallsNewestFirst_iff_after_deleting :
    let key (code : KeyCode) : Key := { code := code }
    let p := (start .standard 1).1.afterAll [Key.plain '1', key .enter, Key.plain '2']
    let q := p.afterAll [key .enter, upKey, key .backspace]
    (p.OpensPrompt (key .enter) ∧ (p.press (key .enter)).1.history = ["1".toList, "2".toList] ∧
      (p.press (key .enter)).1.RecallsNewestFirst) ∧
    q.OpensPrompt (key .enter) ∧ (q.press (key .enter)).1.history = ["1".toList, "2".toList] ∧
      Text.trim q.line.text = [] ∧ q.recalled = 1 ∧
      ¬ (q.press (key .enter)).1.RecallsNewestFirst ∧ (q.press (key .enter)).1.RecallsFrom 1 := by
  intro key p q
  obtain ⟨-, -, hfirst⟩ := recallsNewestFirst_iff .standard 1
    [Key.plain '1', key .enter, Key.plain '2']
  have hopens : p.OpensPrompt (key .enter) := ⟨by decide +kernel, rfl, rfl, by decide +kernel⟩
  have hhistory : (p.press (key .enter)).1.history = ["1".toList, "2".toList] := by decide +kernel
  have hne : (p.press (key .enter)).1.history ≠ [] := by
    rw [hhistory]
    nofun
  obtain ⟨-, -, hsecond⟩ := recallsNewestFirst_iff .standard 1
    [Key.plain '1', key .enter, Key.plain '2', key .enter, upKey, key .backspace]
  have hopens' : q.OpensPrompt (key .enter) := ⟨by decide +kernel, rfl, rfl, by decide +kernel⟩
  have hhistory' : (q.press (key .enter)).1.history = ["1".toList, "2".toList] := by
    decide +kernel
  have hne' : (q.press (key .enter)).1.history ≠ [] := by
    rw [hhistory']
    nofun
  have htrim : Text.trim q.line.text = [] := by decide +kernel
  have hrecalled : q.recalled = 1 := by decide +kernel
  have hpos : 0 < q.recalled := hrecalled ▸ Nat.one_pos
  obtain ⟨hiff, hblank⟩ := hsecond (key .enter) hopens' hne'
  refine ⟨⟨hopens, hhistory, (hfirst _ hopens hne).1.2 (Or.inl (by decide +kernel))⟩, hopens',
    hhistory', htrim, hrecalled, fun h => ?_, hrecalled ▸ (hblank htrim).1 hpos⟩
  rcases hiff.1 h with hfilled | hlast
  · exact hfilled htrim
  · exact absurd hlast (by decide +kernel)

/-- A blank line after the only line of the history has been recalled and deleted: at the next
prompt the up key shows nothing. -/
theorem nothing_recalled_after_blank :
    let key (code : KeyCode) : Key := { code := code }
    let p := (start .standard 1).1.afterAll [Key.plain '1', key .enter, upKey, key .backspace]
    p.Reachable ∧ p.OpensPrompt (key .enter) ∧ (p.press (key .enter)).1.history = ["1".toList] ∧
      ((p.press (key .enter)).1.press upKey).1.line.text = [] ∧
      ¬ (p.press (key .enter)).1.RecallsNewestFirst := by
  intro key p
  have htext : ((p.press (key .enter)).1.press upKey).1.line.text = [] := by decide +kernel
  have hhistory : ((p.press (key .enter)).1.press upKey).1.history = ["1".toList] := by
    decide +kernel
  refine ⟨⟨.standard, 1, _, rfl⟩, ⟨by decide +kernel, rfl, rfl, by decide +kernel⟩,
    by decide +kernel, htext, fun h => ?_⟩
  obtain ⟨-, t, ht, hline⟩ := h 1 Nat.one_pos
  change ((p.press (key .enter)).1.press upKey).1.history[_]? = some t at ht
  change ((p.press (key .enter)).1.press upKey).1.line = .ofText t at hline
  have hmem := List.mem_of_getElem? ht
  rw [hhistory, List.mem_singleton] at hmem
  rw [hline, hmem] at htext
  exact absurd htext (by decide)

end RunningTab.Prompt
