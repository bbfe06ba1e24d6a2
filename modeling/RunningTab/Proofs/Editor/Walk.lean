import RunningTab.Editor.Basic

/-!
# Walks to the next term

The editor finds the next term by dropping characters from what stands before or behind the cursor,
and nothing can go wrong with that. A cursor that walks the input by index reads a character at
every step, and does go wrong if there is none. Such walks are stated here
(`RunningTab.Editor.walkBack?`, `RunningTab.Editor.walkOn?`), and from a cursor inside the input
they get to where the editor gets (`RunningTab.Editor.termLeft?_eq`,
`RunningTab.Editor.termRight?_eq`).
-/

namespace RunningTab.Editor

/-! ### Walks that read at an index -/

/-- The walk back over the characters with a property, from the position `i` of a text; none if it
reads where there is no character. -/
def walkBack? (p : Char → Bool) (t : Text) : Nat → Option Nat
  | 0 => some 0
  | i + 1 => t[i]?.bind fun c => if p c then walkBack? p t i else some (i + 1)

/-- The walk on over the characters with a property, from the position `i` of a text to at most its
end; none if it reads where there is no character. -/
def walkOn? (p : Char → Bool) (t : Text) (i : Nat) : Option Nat :=
  if i < t.length then
    t[i]?.bind fun c => if p c then walkOn? p t (i + 1) else some i
  else some i
  termination_by t.length - i

/-- The position before the term to the left of the cursor, by walks that read at an index. -/
def termLeft? (e : Editor) : Option Nat :=
  (walkBack? isTermBreak e.input e.cursor).bind (walkBack? (!isTermBreak ·) e.input)

/-- The position before the next term to the right of the cursor, by walks that read at an index. -/
def termRight? (e : Editor) : Option Nat :=
  (walkOn? (!isTermBreak ·) e.input e.cursor).bind (walkOn? isTermBreak e.input)

/-! ### Where the walks end -/

/-- A walk back from inside a text reads only its characters, and ends where the characters before
it without those at their end are all that is left. -/
theorem walkBack?_eq_some (p : Char → Bool) {t : Text} {i : Nat} (hi : i ≤ t.length) :
    ∃ j ≤ i, walkBack? p t i = some j ∧
      (t.take i).reverse.dropWhile p = (t.take j).reverse := by
  induction i with
  | zero => exact ⟨0, Nat.le_refl 0, rfl, rfl⟩
  | succ i ih =>
    have hread : t[i]? = some t[i] := List.getElem?_eq_getElem hi
    have hlast : (t.take (i + 1)).reverse = t[i] :: (t.take i).reverse := by
      rw [List.take_succ_eq_append_getElem hi, List.reverse_append, List.reverse_singleton,
        List.singleton_append]
    rw [walkBack?, hread, Option.bind_some, hlast]
    by_cases hp : p t[i]
    · obtain ⟨j, hj, hwalk, hrest⟩ := ih (Nat.le_of_succ_le hi)
      rw [if_pos hp, List.dropWhile_cons_of_pos hp]
      exact ⟨j, Nat.le_succ_of_le hj, hwalk, hrest⟩
    · rw [if_neg hp, List.dropWhile_cons_of_neg hp]
      exact ⟨i + 1, Nat.le_refl _, rfl, hlast.symm⟩

/-- A walk on inside a text reads only its characters, and ends where what is behind it without the
characters at its start is all that is left. -/
theorem walkOn?_eq_some (p : Char → Bool) {t : Text} {i : Nat} (hi : i ≤ t.length) :
    ∃ j ≤ t.length, walkOn? p t i = some j ∧ (t.drop i).dropWhile p = t.drop j := by
  -- on how far the end is: the walk only ever gets nearer to it
  induction hn : t.length - i generalizing i with
  | zero =>
    have hend : ¬ i < t.length := by omega
    rw [walkOn?, if_neg hend, List.drop_eq_nil_of_le (by omega)]
    exact ⟨i, hi, rfl, (List.drop_eq_nil_of_le (by omega)).symm⟩
  | succ n ih =>
    have hlt : i < t.length := by omega
    have hfirst : t.drop i = t[i] :: t.drop (i + 1) := List.drop_eq_getElem_cons hlt
    rw [walkOn?, if_pos hlt, List.getElem?_eq_getElem hlt, Option.bind_some, hfirst]
    by_cases hp : p t[i]
    · rw [if_pos hp, List.dropWhile_cons_of_pos hp]
      exact ih hlt (by omega)
    · rw [if_neg hp, List.dropWhile_cons_of_neg hp]
      exact ⟨i, hi, rfl, hfirst.symm⟩

/-! ### The walks of the cursor -/

variable {e : Editor}

/-- **To the left, the walk by index gets to the cursor before the term.** -/
theorem termLeft?_eq (h : e.cursor ≤ e.input.length) :
    e.termLeft? = some e.cursorTermLeft.cursor := by
  obtain ⟨i, hi, hbreaks, hrest⟩ := walkBack?_eq_some isTermBreak h
  have hi' : i ≤ e.input.length := Nat.le_trans hi h
  obtain ⟨j, hj, hterm, hrest'⟩ := walkBack?_eq_some (!isTermBreak ·) hi'
  have hcursor : e.cursorTermLeft.cursor = j := by
    change (((e.input.take e.cursor).reverse.dropWhile isTermBreak).dropWhile
      (!isTermBreak ·)).length = j
    rw [hrest, hrest', List.length_reverse, List.length_take, Nat.min_eq_left (by omega)]
  rw [termLeft?, hbreaks, Option.bind_some, hterm, hcursor]

/-- **To the right, the walk by index gets to the cursor before the next term.** -/
theorem termRight?_eq (h : e.cursor ≤ e.input.length) :
    e.termRight? = some e.cursorTermRight.cursor := by
  obtain ⟨i, hi, hterm, hrest⟩ := walkOn?_eq_some (!isTermBreak ·) h
  obtain ⟨j, hj, hbreaks, hrest'⟩ := walkOn?_eq_some isTermBreak hi
  have hcursor : e.cursorTermRight.cursor = j := by
    change e.input.length - (((e.input.drop e.cursor).dropWhile (!isTermBreak ·)).dropWhile
      isTermBreak).length = j
    rw [hrest, hrest', List.length_drop]
    omega
  rw [termRight?, hterm, Option.bind_some, hbreaks, hcursor]

/-- The cursor before the term to the left is in the input. -/
theorem cursor_cursorTermLeft_le (e : Editor) : e.cursorTermLeft.cursor ≤ e.input.length := by
  have hwhile (p : Char → Bool) (t : Text) : (t.dropWhile p).length ≤ t.length :=
    (List.dropWhile_sublist p).length_le
  calc e.cursorTermLeft.cursor
      ≤ ((e.input.take e.cursor).reverse.dropWhile isTermBreak).length := hwhile _ _
    _ ≤ (e.input.take e.cursor).reverse.length := hwhile _ _
    _ ≤ e.input.length := by
      rw [List.length_reverse, List.length_take]
      omega

/-- The cursor before the next term to the right is in the input. -/
theorem cursor_cursorTermRight_le (e : Editor) : e.cursorTermRight.cursor ≤ e.input.length :=
  Nat.sub_le _ _

end RunningTab.Editor
