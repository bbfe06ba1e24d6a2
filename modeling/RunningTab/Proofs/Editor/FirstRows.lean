import RunningTab.Proofs.Display.Lossless
import RunningTab.Proofs.Editor.InStep
import RunningTab.Proofs.Editor.Redraw

/-!
# Which lines are shown

A committed line has the rows of its expression, the amount in the first of them, and those of its
tax. Before every frame the editor writes down where each line begins in the list of all rows, and
the row at the entry of the line that is edited is highlighted. All of this counts on a line having
a first row.

A line has one exactly if there is anything but blanks in its text
(`RunningTab.Line.HasText`): of other texts spacing out leaves nothing, and nothing is not wrapped
to one empty line but to none (`RunningTab.Display.wrap_eq_nil_iff`). A space is enough of an input
to be committed, and every line can be edited down to nothing. What is left of such a line are the
rows of its tax; without tax it is not shown at all, and its entry is that of the next line, or
behind the last row. So a line is shown at its entry exactly if it has text, and the entries are
indices of as many different rows exactly if every line has text or tax
(`RunningTab.Editor.shownFrom_lineStart_iff`). The rows are those that the frame draws, with that
row highlighted.
-/

namespace RunningTab

open Screen (Area Canvas Panel Span Style)
open Text (isBlank solid)

/-- **The text of a line is not blank.** -/
def Line.HasText (line : Line) : Prop :=
  ∃ c ∈ line.expression, isBlank c = false

theorem Line.hasText_iff (line : Line) : line.HasText ↔ solid line.expression ≠ [] := by
  rw [Ne, Text.solid_eq_nil_iff, Line.HasText]
  simp

/-! ### Wrapped lines -/

namespace Display

/-- **A text is wrapped to no lines exactly if there is nothing but blanks in it.** -/
theorem wrap_eq_nil_iff {width : Nat} (hwidth : 0 < width) (t : Text) :
    wrap width t = [] ↔ solid t = [] := by
  constructor
  · intro h
    rw [← solid_wrap hwidth t, h]
    rfl
  · intro h
    rw [wrap, if_neg (Nat.ne_of_gt hwidth), (Text.words_eq_nil_iff t).2 h, wrapAfter]

end Display

namespace Editor

/-- **The first row of a line**: it begins with the sign of an expression and ends with the
amount. -/
def IsFirstRow (s : Settings) (line : Line) (row : List Span) : Prop :=
  ∃ spans, row = ⟨"> ".toList, .colored .green⟩ :: spans ++
    [⟨" = ".toList, .colored .gray⟩,
     ⟨s.amount (shownAmount line), (Style.colored .lightMagenta).strong⟩]

/-- **A line of the page is shown from a row of the list on**: the first of its own rows is a first
row of a line, and stands there. -/
def ShownFrom (width : Nat) (e : Editor) (i start : Nat) : Prop :=
  ∃ line row rest, e.ledger.page[i]? = some line ∧
    (e.rowsByLine width)[i]? = some (row :: rest) ∧ IsFirstRow e.settings line row ∧
    (e.listRows width)[start]? = some row

/-- **The row that is highlighted**, if a line is edited. -/
def chosenRow (e : Editor) : Option Nat :=
  e.picked.bind fun i => e.lineStarts[i]?

/-- The style that highlights it. -/
def chosenStyle : Style :=
  { background := some .darkGray, bold := true }

/-- The panel around the list, with the number of the page. -/
def listPanel (e : Editor) : Panel :=
  dimPanel [title (" Page ".toList ++ Decimal.digits (e.ledger.current + 1) ++ " ".toList) .center
    .plain]

variable {e : Editor}

/-- The lines of a page are drawn as the list of their rows, with that row highlighted. -/
theorem drawLines_of_ne_nil (h : e.ledger.page ≠ []) (a : Area) (v : Canvas) :
    e.drawLines a v = Screen.drawList (e.listRows a.inner.width) e.chosenRow e.listScroll
      chosenStyle a.inner (e.listPanel.draw a v) := by
  rw [drawLines, if_neg h]
  rfl

/-! ### Where each line begins -/

section

variable {first : Nat} {blocks : List (List (List Span))}

theorem length_startsFrom (first : Nat) (blocks : List (List (List Span))) :
    (startsFrom first blocks).length = blocks.length := by
  induction blocks generalizing first with
  | nil => rfl
  | cons rows blocks ih => rw [startsFrom, List.length_cons, List.length_cons, ih]

/-- A line begins behind the rows of the lines before it. -/
theorem getElem?_startsFrom (first : Nat) {i : Nat} (hi : i < blocks.length) :
    (startsFrom first blocks)[i]? = some (first + (blocks.take i).flatten.length) := by
  induction blocks generalizing first i with
  | nil => exact absurd hi (Nat.not_lt_zero i)
  | cons rows blocks ih =>
    cases i with
    | zero => rfl
    | succ i =>
      rw [startsFrom, List.getElem?_cons_succ, ih _ (Nat.lt_of_succ_lt_succ hi),
        List.take_succ_cons, List.flatten_cons, List.length_append, Nat.add_assoc]

/-- There stands the first of its rows, if it has any. -/
theorem getElem?_flatten_take {i : Nat} {row : List Span} {rest : List (List Span)}
    (h : blocks[i]? = some (row :: rest)) :
    blocks.flatten[(blocks.take i).flatten.length]? = some row := by
  obtain ⟨hi, hblock⟩ := List.getElem?_eq_some_iff.1 h
  have hsplit : blocks.flatten = (blocks.take i).flatten ++ (blocks.drop i).flatten := by
    rw [← List.flatten_append, List.take_append_drop]
  rw [hsplit, List.getElem?_append_right (Nat.le_refl _), Nat.sub_self,
    List.drop_eq_getElem_cons hi, hblock]
  rfl

theorem le_of_mem_startsFrom {start : Nat} (h : start ∈ startsFrom first blocks) :
    first ≤ start := by
  induction blocks generalizing first with
  | nil => exact absurd h List.not_mem_nil
  | cons rows blocks ih =>
    rcases List.mem_cons.1 h with rfl | h
    · exact Nat.le_refl _
    · exact Nat.le_trans (Nat.le_add_right ..) (ih h)

/-- **The lines begin at different rows exactly if each of them has a row.** -/
theorem pairwise_startsFrom_iff (first : Nat) (blocks : List (List (List Span))) :
    ((startsFrom first blocks).Pairwise (· < ·) ∧
      ∀ start ∈ startsFrom first blocks, start < first + blocks.flatten.length) ↔
    ∀ rows ∈ blocks, rows ≠ [] := by
  induction blocks generalizing first with
  | nil => simp [startsFrom]
  | cons rows blocks ih =>
    rw [startsFrom, List.pairwise_cons, List.forall_mem_cons, List.forall_mem_cons,
      ← ih (first + rows.length), List.flatten_cons, List.length_append, ← Nat.add_assoc]
    constructor
    · rintro ⟨⟨hfirst, hrest⟩, hlast, hbound⟩
      refine ⟨?_, hrest, hbound⟩
      -- without a row the next line would begin at the same one, or none come after it
      rintro rfl
      cases blocks with
      | nil => exact absurd hlast (Nat.lt_irrefl first)
      | cons next blocks => exact absurd (hfirst first List.mem_cons_self) (Nat.lt_irrefl first)
    · rintro ⟨hrows, hrest, hbound⟩
      have hlt : first < first + rows.length :=
        Nat.lt_add_of_pos_right (List.length_pos_iff.2 hrows)
      exact ⟨⟨fun start hstart => Nat.lt_of_lt_of_le hlt (le_of_mem_startsFrom hstart), hrest⟩,
        Nat.lt_of_lt_of_le hlt (Nat.le_add_right ..), hbound⟩

end

/-! ### The rows of a line -/

section

variable (s : Settings) {width : Nat} (isPicked : Bool) {line : Line}

theorem expressionRows_of_hasText (hwidth : 0 < width) (h : line.HasText) :
    ∃ row rest, expressionRows s width isPicked line = row :: rest ∧ IsFirstRow s line row := by
  have hwrap : Display.wrap width (Display.spaceOut line.expression) ≠ [] := by
    rw [Ne, Display.wrap_eq_nil_iff hwidth, Display.solid_spaceOut]
    exact line.hasText_iff.1 h
  obtain ⟨t, ts, hts⟩ := List.exists_cons_of_ne_nil hwrap
  rw [expressionRows, hts]
  exact ⟨_, _, rfl, _, rfl⟩

theorem expressionRows_of_not_hasText (hwidth : 0 < width) (h : ¬ line.HasText) :
    expressionRows s width isPicked line = [] := by
  have hwrap : Display.wrap width (Display.spaceOut line.expression) = [] := by
    rw [Display.wrap_eq_nil_iff hwidth, Display.solid_spaceOut]
    exact Decidable.not_not.1 (mt line.hasText_iff.2 h)
  rw [expressionRows, hwrap]
  rfl

/-- A row of a tax begins with blanks. -/
theorem breakdownRows_head (line : Line) (tax : LineTax) :
    ∃ row rest, breakdownRows s line tax = row :: rest ∧ ¬ IsFirstRow s line row := by
  refine ⟨_, _, rfl, ?_⟩
  rintro ⟨spans, hrow⟩
  have hhead : some ' ' = some '>' :=
    congrArg (fun row : List Span => row.head?.bind fun span => span.text.head?) hrow
  exact absurd hhead (by decide)

/-- **A line has rows exactly if it has text or tax.** -/
theorem lineRows_ne_nil_iff (hwidth : 0 < width) :
    lineRows s width isPicked line ≠ [] ↔ line.HasText ∨ line.tax.isSome = true := by
  rw [lineRows]
  by_cases htext : line.HasText
  · obtain ⟨row, rest, hrows, -⟩ := expressionRows_of_hasText s isPicked hwidth htext
    rw [hrows]
    exact iff_of_true (List.cons_ne_nil _ _) (Or.inl htext)
  · rw [expressionRows_of_not_hasText s isPicked hwidth htext, List.nil_append]
    cases htax : line.tax with
    | none => simp [htext]
    | some tax =>
      obtain ⟨row, rest, hrows, -⟩ := breakdownRows_head s line tax
      refine iff_of_true ?_ (Or.inr rfl)
      change breakdownRows s line tax ≠ []
      rw [hrows]
      exact List.cons_ne_nil _ _

/-- **The first of its rows is a first row of a line exactly if it has text**; otherwise it is one
of its tax, if there is any. -/
theorem isFirstRow_head_iff (hwidth : 0 < width) :
    (∃ row rest, lineRows s width isPicked line = row :: rest ∧ IsFirstRow s line row) ↔
      line.HasText := by
  rw [lineRows]
  constructor
  · rintro ⟨row, rest, hrows, hrow⟩
    by_contra htext
    rw [expressionRows_of_not_hasText s isPicked hwidth htext, List.nil_append] at hrows
    cases htax : line.tax with
    | none =>
      rw [htax] at hrows
      exact List.cons_ne_nil _ _ hrows.symm
    | some tax =>
      obtain ⟨taxRow, taxRows, htaxRows, hnot⟩ := breakdownRows_head s line tax
      rw [htax] at hrows
      obtain ⟨rfl, -⟩ := List.cons.inj (htaxRows.symm.trans hrows)
      exact hnot hrow
  · intro htext
    obtain ⟨row, rest, hrows, hrow⟩ := expressionRows_of_hasText s isPicked hwidth htext
    rw [hrows]
    exact ⟨row, _, rfl, hrow⟩

end

/-! ### The list of a frame -/

section

variable {d : Division} {width height : Nat}

theorem getElem?_rowsByLine (width : Nat) {i : Nat} {line : Line}
    (hline : e.ledger.page[i]? = some line) :
    (e.rowsByLine width)[i]? =
      some (lineRows e.settings (width - 4) (e.picked == some i) line) := by
  rw [rowsByLine, List.getElem?_map, List.getElem?_zipIdx, hline]
  simp

theorem length_rowsByLine (width : Nat) (e : Editor) :
    (e.rowsByLine width).length = e.ledger.page.length := by
  rw [rowsByLine, List.length_map, List.length_zipIdx]

/-- The lines have all their rows as soon as each has text or tax. -/
theorem forall_rowsByLine_iff {width : Nat} (hwidth : 4 < width) (e : Editor) :
    (∀ rows ∈ e.rowsByLine width, rows ≠ []) ↔
      ∀ line ∈ e.ledger.page, line.HasText ∨ line.tax.isSome = true := by
  have hroom : 0 < width - 4 := Nat.sub_pos_of_lt hwidth
  constructor
  · intro h line hline
    obtain ⟨i, hi⟩ := List.mem_iff_getElem?.1 hline
    have hrows := List.mem_of_getElem? (getElem?_rowsByLine width hi)
    exact (lineRows_ne_nil_iff _ _ hroom).1 (h _ hrows)
  · intro h rows hrows
    obtain ⟨⟨line, i⟩, hline, rfl⟩ := List.mem_map.1 hrows
    exact (lineRows_ne_nil_iff _ _ hroom).2 (h line (List.fst_mem_of_mem_zipIdx hline))

/-- **A line is shown from its start on exactly if it has text.** -/
theorem shownFrom_iff {width : Nat} (hwidth : 4 < width) {i : Nat} {line : Line}
    (hline : e.ledger.page[i]? = some line) :
    e.ShownFrom width i ((e.rowsByLine width).take i).flatten.length ↔ line.HasText := by
  have hroom : 0 < width - 4 := Nat.sub_pos_of_lt hwidth
  have hrows := getElem?_rowsByLine width hline
  rw [← isFirstRow_head_iff e.settings (e.picked == some i) hroom]
  constructor
  · rintro ⟨line', row, rest, hline', hrow, hfirst, -⟩
    obtain rfl : line = line' := Option.some.inj (hline.symm.trans hline')
    exact ⟨row, rest, Option.some.inj (hrows.symm.trans hrow), hfirst⟩
  · rintro ⟨row, rest, hlineRows, hfirst⟩
    rw [hlineRows] at hrows
    exact ⟨line, row, rest, hline, hrows, hfirst, getElem?_flatten_take hrows⟩

/-- A frame on a screen that is large enough measures the lines of the page. -/
theorem lineStarts_settledBy (hhelp : e.helpShown = false) (hpage : e.ledger.page ≠ [])
    (hwidth : minWidth ≤ width) (hheight : minHeight ≤ height) :
    (e.settledBy d width height).lineStarts =
      startsFrom 0 (e.rowsByLine (d.areas width height e).list.inner.width) := by
  rw [settledBy, hhelp, if_neg Bool.false_ne_true, if_neg (by omega)]
  change ({ e with tooSmall := false }.settleList _).lineStarts = _
  rw [settleList_of_ne (e := { e with tooSmall := false }) _ hpage]
  rfl

/-- Frames leave the rows of the lines as they are. -/
theorem KeepsData.rowsByLine {e' : Editor} (h : e.KeepsData e') (width : Nat) :
    e'.rowsByLine width = e.rowsByLine width := by
  rw [Editor.rowsByLine, Editor.rowsByLine, h.ledger, h.settings, h.picked]

theorem KeepsData.shownFrom_iff {e' : Editor} (h : e.KeepsData e') (width i start : Nat) :
    e'.ShownFrom width i start ↔ e.ShownFrom width i start := by
  rw [ShownFrom, ShownFrom, listRows, listRows, h.rowsByLine, h.ledger, h.settings]

/-- **A line is shown at its entry exactly if it has text.** A frame of a page with lines, on a
screen that is large enough, has an entry for each line, which counts the rows of the lines before
it; the row there is the first row of the line, with its amount, exactly if the line has text, and
if the line is edited this is the row that is highlighted. The entries are strictly increasing
indices of rows of the list exactly if every line has text or tax. The rows are drawn in the area of
the list, in its panel, with the highlighted row among them. All this is so however the screen is
divided, as long as the list has its whole width. -/
theorem shownFrom_lineStart_iff (h : e.Reachable) (hhelp : e.helpShown = false)
    (hpage : e.ledger.page ≠ []) (hwidth : minWidth ≤ width) (hheight : minHeight ≤ height)
    (hlist : (d.areas width height e).list.width = width) :
    let drawn := (e.drawBy d width height).1
    let list := (d.areas width height e).list
    drawn.lineStarts.length = e.ledger.page.length ∧
      (∀ i line, e.ledger.page[i]? = some line → ∃ start, drawn.lineStarts[i]? = some start ∧
        start = ((drawn.rowsByLine (width - 2)).take i).flatten.length ∧
        (drawn.ShownFrom (width - 2) i start ↔ line.HasText)) ∧
      (drawn.lineStarts.Pairwise (· < ·) ∧
          (∀ start ∈ drawn.lineStarts, start < (drawn.listRows (width - 2)).length) ↔
        ∀ line ∈ e.ledger.page, line.HasText ∨ line.tax.isSome = true) ∧
      (∀ i, e.picked = some i → ∃ line start, e.ledger.page[i]? = some line ∧
        drawn.chosenRow = some start ∧ (drawn.ShownFrom (width - 2) i start ↔ line.HasText)) ∧
      ∀ v, drawn.drawLines list v = Screen.drawList (drawn.listRows (width - 2)) drawn.chosenRow
        drawn.listScroll chosenStyle list.inner (drawn.listPanel.draw list v) := by
  intro drawn list
  have hkeeps : e.KeepsData drawn := keepsData_settledBy d width height e
  have hwide : 4 < width - 2 := by
    rw [minWidth] at hwidth
    omega
  have hstarts : drawn.lineStarts = startsFrom 0 (e.rowsByLine (width - 2)) := by
    change (e.settledBy d width height).lineStarts = _
    rw [lineStarts_settledBy hhelp hpage hwidth hheight, Area.inner, hlist]
  have hentry : ∀ i line, e.ledger.page[i]? = some line → ∃ start,
      drawn.lineStarts[i]? = some start ∧
      start = ((drawn.rowsByLine (width - 2)).take i).flatten.length ∧
      (drawn.ShownFrom (width - 2) i start ↔ line.HasText) := by
    intro i line hline
    have hi : i < (e.rowsByLine (width - 2)).length := by
      rw [length_rowsByLine]
      exact (List.getElem?_eq_some_iff.1 hline).1
    refine ⟨_, ?_, rfl, ?_⟩
    · rw [hstarts, getElem?_startsFrom 0 hi, Nat.zero_add, hkeeps.rowsByLine]
    · rw [hkeeps.shownFrom_iff, hkeeps.rowsByLine]
      exact shownFrom_iff hwide hline
  refine ⟨by rw [hstarts, length_startsFrom, length_rowsByLine], hentry, ?_, fun i hi => ?_,
    fun v => ?_⟩
  · rw [← forall_rowsByLine_iff hwide, ← pairwise_startsFrom_iff 0, hstarts, listRows,
      hkeeps.rowsByLine, Nat.zero_add]
  · obtain ⟨line, hline, -, -⟩ : e.ledger.Edits (some i) := hi ▸ (inStep_of_reachable h).edits
    obtain ⟨start, hstart, -, hshown⟩ := hentry i line hline
    refine ⟨line, start, hline, ?_, hshown⟩
    rw [chosenRow, hkeeps.picked, hi]
    exact hstart
  · rw [drawLines_of_ne_nil (by rwa [hkeeps.ledger]), Area.inner, hlist]

/-- A line of a blank between two others, the last of which is picked: that is the one whose row is
highlighted. -/
theorem shownFrom_lineStart_below_blank :
    let key (code : KeyCode) : Occurrence := .event (.key { code := code })
    let e := (ofSettings .standard).afterAll [key (.char '5'), key .enter, key (.char ' '),
      key .enter, key (.char '7'), key .enter, key .up]
    e.picked = some 2 ∧ ∃ start, (e.draw 50 16).1.chosenRow = some start ∧
      (e.draw 50 16).1.ShownFrom 48 2 start := by
  intro key e
  have hpicked : e.picked = some 2 := by decide +kernel
  have htext : e.ledger.page[2]?.map Line.expression = some ['7'] := by decide +kernel
  have hpage : e.ledger.page ≠ [] := by
    intro hnil
    rw [hnil] at htext
    cases htext
  have hreachable : e.Reachable := ⟨.standard, _, rfl⟩
  obtain ⟨-, -, -, hchosen, -⟩ := shownFrom_lineStart_iff (d := .standard) hreachable
    (by decide +kernel) hpage (show minWidth ≤ 50 by decide) (show minHeight ≤ 16 by decide) rfl
  obtain ⟨line, start, hline, hstart, hshown⟩ := hchosen 2 hpicked
  have hexpression : line.expression = ['7'] := by
    rw [hline] at htext
    exact Option.some.inj htext
  exact ⟨hpicked, start, hstart,
    hshown.2 ⟨'7', hexpression ▸ List.mem_cons_self, by decide⟩⟩

/-- **A line of blanks is not shown**, and the row of another line is highlighted when it is edited:
of a blank and the line `5` both entries are those of the first row, and that is the row of the
`5`. -/
theorem lineStarts_of_blank_line :
    let key (code : KeyCode) : Occurrence := .event (.key { code := code })
    let e := (ofSettings .standard).afterAll [key (.char ' '), key .enter, key (.char '5'),
      key .enter, key .up, key .up]
    let drawn := (e.draw 50 16).1
    e.Reachable ∧ e.helpShown = false ∧ e.ledger.page.map Line.expression = [[' '], ['5']] ∧
      drawn.lineStarts = [0, 0] ∧ drawn.picked = some 0 ∧ drawn.chosenRow = some 0 ∧
      (drawn.listRows 48).map Screen.plainText = ["> 5 = 5.00".toList] := by
  intro key e drawn
  exact ⟨⟨.standard, _, rfl⟩, by decide +kernel, by decide +kernel, by decide +kernel,
    by decide +kernel, by decide +kernel, by decide +kernel⟩

end

end Editor

end RunningTab
