import RunningTab.Proofs.Decimal.ReadBack
import RunningTab.Proofs.Editor.HelpEnd
import RunningTab.Proofs.Screen.Drawing

/-!
# How far the help can be scrolled

The keys that scroll the help stop at the index of its last line, which is meant to keep the last
line within reach. But what is scrolled are rows, and a line too wide for the screen has more than
one. The rows of the last line end with the last row of all, so the keys bring it into sight exactly
if there are no more rows than the index of the last line and the rows of the screen together
(`RunningTab.Editor.lastLineInSight_iff`).

Where every line fits there is one row for each, and one row of the screen would do. On twenty
columns the lines that are the same for all settings alone have seventy-four rows, so that on a
screen of forty rows or less the last line is out of reach
(`RunningTab.Editor.length_helpRows_of_narrow`).
-/

namespace RunningTab.Editor

open Screen (Area Canvas Span glyphs reflow)
open Screen.Glyph (OneColumn totalColumns)
open Text (Printable)

variable {e : Editor} {width height : Nat}

/-! ### The lines of the help -/

/-- The line of the help that names the rates of the tax mode. -/
def gstLine (e : Editor) : List Span :=
  [⟨"  GST mode        : ".toList ++ rateKeys e.settings.rates, .plain⟩]

/-- The line of the help that names the rate without it. -/
def basicLine (e : Editor) : List Span :=
  [⟨"  Basic mode      : F5 = ".toList ++ Decimal.shortText e.ledger.defaultRate ++ ['%'], .plain⟩]

/-- The lines before these two. -/
def linesBeforeRates : List (List Span) :=
  (ofSettings .standard).helpPage.take 26

/-- The lines behind them. -/
def linesBehindRates : List (List Span) :=
  (ofSettings .standard).helpPage.drop 28

/-- **Only two lines of the help depend on anything.** -/
theorem helpPage_eq (e : Editor) :
    e.helpPage = linesBeforeRates ++ [e.gstLine, e.basicLine] ++ linesBehindRates := rfl

theorem of_mem_helpPage {line : List Span} (h : line ∈ e.helpPage) :
    line ∈ linesBeforeRates ++ linesBehindRates ∨ line ∈ [e.gstLine, e.basicLine] := by
  rw [helpPage_eq] at h
  rcases List.mem_append.1 h with h | hbehind
  · exact (List.mem_append.1 h).imp_left (List.mem_append_left _)
  · exact Or.inl (List.mem_append_right _ hbehind)

/-- The rows that lines of the help take. -/
def rowsOf (width : Nat) (lines : List (List Span)) : List (List Screen.Glyph) :=
  lines.flatMap fun line => reflow width (glyphs .plain line)

/-- **The lines that are always the same**: they are printable but for the two with the sign of
division and with arrows, have sixty-eight glyphs at most, and take seventy-four rows in eighteen
columns. -/
theorem fixedLines_spec :
    (∀ line ∈ linesBeforeRates ++ linesBehindRates,
      ((∀ s ∈ line, Printable s.text) ∨ OneColumn (glyphs .plain line)) ∧
        (glyphs .plain line).length ≤ 68) ∧
    (rowsOf 18 (linesBeforeRates ++ linesBehindRates)).length = 74 := by
  simp only [linesBeforeRates, linesBehindRates, helpPage, helpLine, helpHeading,
    List.take_succ_cons, List.take_zero, List.drop_succ_cons, List.drop_zero, List.cons_append,
    List.nil_append]
  -- the kernel takes long to decode a string, and is spared it
  repeat rw [String.toList_ofList]
  decide +kernel

theorem printable_of_isDigit {c : Char} (h : Text.isDigit c = true) :
    0x20 ≤ c.toNat ∧ c.toNat < 0x7f := by
  have := Decimal.toNat_of_isDigit h
  omega

theorem printable_digits (n : Nat) : Printable (Decimal.digits n) :=
  fun _ hc => printable_of_isDigit (Decimal.isDigit_of_mem_digits hc)

theorem printable_shortText (x : Float) : Printable (Decimal.shortText x) := by
  intro c hc
  rcases Decimal.mem_shortText hc with hfigure | hword
  · rcases Bool.or_eq_true_iff.1 hfigure with hdigit | hdot
    · exact printable_of_isDigit hdigit
    · rw [beq_iff_eq.1 hdot]
      decide
  · exact (by decide : Printable "-NaNinf".toList) c hword

theorem printable_rateKeys (rates : List Float) : Printable (rateKeys rates) := by
  refine Printable.intercalate (by decide) fun t ht => ?_
  obtain ⟨⟨rate, i⟩, -, rfl⟩ := List.mem_map.1 ht
  have hkey : Printable (['F'] ++ Decimal.digits (i + 5)) :=
    Printable.append (by decide) (printable_digits _)
  exact ((hkey.append (by decide)).append (printable_shortText rate)).append (by decide)

theorem oneColumn_of_mem_fixed {line : List Span}
    (h : line ∈ linesBeforeRates ++ linesBehindRates) : OneColumn (glyphs .plain line) :=
  (fixedLines_spec.1 line h).1.elim (Screen.oneColumn_glyphs · .plain) id

/-- **Every glyph of the help takes one column.** -/
theorem oneColumn_of_mem_helpPage {line : List Span} (h : line ∈ e.helpPage) :
    OneColumn (glyphs .plain line) := by
  rcases of_mem_helpPage h with hfixed | hrates
  · exact oneColumn_of_mem_fixed hfixed
  · refine Screen.oneColumn_glyphs (fun s hs => ?_) .plain
    rcases List.mem_cons.1 hrates with rfl | hbasic
    · rw [List.mem_singleton.1 hs]
      exact Printable.append (by decide) (printable_rateKeys _)
    · rw [List.mem_singleton.1 hbasic] at hs
      rw [List.mem_singleton.1 hs]
      exact (Printable.append (by decide) (printable_shortText _)).append (by decide)

/-! ### The rows of the help -/

/-- All rows of the help. -/
def helpRows (width : Nat) (e : Editor) : List (List Screen.Glyph) :=
  e.helpParagraph.rows width

/-- The rows of its last line. -/
def lastLineRows (width : Nat) (e : Editor) : List (List Screen.Glyph) :=
  rowsOf width (e.helpPage.drop e.lastHelpLine)

/-- The rows before them. -/
def rowsBeforeLast (width : Nat) (e : Editor) : List (List Screen.Glyph) :=
  rowsOf width (e.helpPage.take e.lastHelpLine)

theorem helpRows_eq (width : Nat) (e : Editor) : e.helpRows width = rowsOf width e.helpPage := by
  rw [rowsOf, ← List.flatMap_map]
  rfl

theorem helpRows_eq_append (width : Nat) (e : Editor) :
    e.helpRows width = e.rowsBeforeLast width ++ e.lastLineRows width := by
  rw [rowsBeforeLast, lastLineRows, rowsOf, rowsOf, ← List.flatMap_append, List.take_append_drop,
    helpRows_eq, rowsOf]

theorem helpRows_congr {e' : Editor} (h : e'.helpPage = e.helpPage) (width : Nat) :
    e'.helpRows width = e.helpRows width := by
  rw [helpRows_eq, helpRows_eq, h]

theorem rowsBeforeLast_congr {e' : Editor} (h : e'.helpPage = e.helpPage) (width : Nat) :
    e'.rowsBeforeLast width = e.rowsBeforeLast width := by
  rw [rowsBeforeLast, rowsBeforeLast, lastHelpLine, lastHelpLine, h]

/-- There are at least as many rows as lines. -/
theorem length_le_length_rowsOf (hwidth : 0 < width) (lines : List (List Span)) :
    lines.length ≤ (rowsOf width lines).length := by
  induction lines with
  | nil => exact Nat.le_refl 0
  | cons line lines ih =>
    have hrow : 0 < (reflow width (glyphs .plain line)).length :=
      List.length_pos_iff.2 (Screen.reflow_ne_nil hwidth _)
    rw [rowsOf, List.flatMap_cons, List.length_append, List.length_cons]
    rw [rowsOf] at ih
    omega

/-- There are no more if all of them fit. -/
theorem length_rowsOf_of_fits (hwidth : 0 < width) {lines : List (List Span)}
    (hlines : ∀ line ∈ lines, OneColumn (glyphs .plain line))
    (hfits : ∀ line ∈ lines, totalColumns (glyphs .plain line) ≤ width) :
    (rowsOf width lines).length = lines.length := by
  induction lines with
  | nil => rfl
  | cons line lines ih =>
    have hrow := Screen.length_reflow_of_fits hwidth (hlines line List.mem_cons_self).columns_pos
      (hfits line List.mem_cons_self)
    have hrest := ih (fun l hl => hlines l (List.mem_cons_of_mem line hl))
      fun l hl => hfits l (List.mem_cons_of_mem line hl)
    rw [rowsOf, List.flatMap_cons, List.length_append, hrow, ← rowsOf, hrest, List.length_cons,
      Nat.add_comm]

/-- The rows of the help fit the width, and each glyph takes one column of it. -/
theorem of_mem_helpRows {row : List Screen.Glyph} (h : row ∈ e.helpRows width) :
    totalColumns row ≤ width ∧ OneColumn row := by
  rw [helpRows_eq, rowsOf] at h
  obtain ⟨line, hline, hrow⟩ := List.mem_flatMap.1 h
  exact Screen.of_mem_reflow (oneColumn_of_mem_helpPage hline) row hrow

/-! ### What is in sight -/

/-- **The last line of the help is in sight** of a frame: none of its rows is scrolled past, and
none is below the frame. -/
structure LastLineInSight (width height : Nat) (e : Editor) : Prop where
  notPast : e.helpScroll ≤ (e.rowsBeforeLast (width - 2)).length
  notBelow : (e.helpRows (width - 2)).length ≤ e.helpScroll + (height - 2)

theorem lastHelpLine_eq (e : Editor) : e.lastHelpLine = 37 := rfl

/-- **The frame of the help shows its rows from the one that it is scrolled to on**, one below the
other and each glyph in a cell of its own. -/
theorem symbolAt_draw_help (hshown : e.helpShown = true) (hscroll : e.helpScroll ≤ e.lastHelpLine)
    {i j : Nat} (hi : i < height - 2) {row : List Screen.Glyph} {g : Screen.Glyph}
    (hrow : (e.helpRows (width - 2))[e.helpScroll + i]? = some row) (hg : row[j]? = some g) :
    (e.draw width height).2.canvas.symbolAt (1 + j) (1 + i) = some g.symbol := by
  obtain ⟨hfits, hone⟩ := of_mem_helpRows (List.mem_of_getElem? hrow)
  have hj : j < row.length := (List.getElem?_eq_some_iff.1 hg).1
  have hwidth : 2 < width := by
    rw [hone.totalColumns_eq] at hfits
    omega
  have hbefore : totalColumns (row.take j) = j := by
    rw [(hone.sublist (List.take_sublist j row)).totalColumns_eq, List.length_take]
    omega
  have hvisible : (e.helpParagraph.visible (Area.inner ⟨0, 0, width, height⟩))[i]? = some row := by
    have hmin : min e.helpScroll maxHelpScroll = e.helpScroll :=
      Nat.min_eq_left (Nat.le_trans hscroll (by rw [lastHelpLine_eq]; decide))
    change (((e.helpRows (width - 2)).drop (min e.helpScroll maxHelpScroll)).take
      (height - 2))[i]? = some row
    rw [hmin, List.getElem?_take_of_lt hi, List.getElem?_drop, hrow]
  have hdraw : (e.draw width height).2 = e.paintHelp width height := by
    rw [draw, settled, if_pos hshown]
    exact if_pos hshown
  have hsymbol := Screen.Paragraph.symbolAt_drawIn e.helpParagraph
    { border := .double
      borderStyle := .colored .yellow
      ground := { background := some .black }
      titles := [title " tabcalc Help ".toList .center .plain] }
    (v := Canvas.blank width height) (a := ⟨0, 0, width, height⟩) Array.size_replicate
    (by rw [Nat.zero_add]; exact Nat.le_refl width)
    (by rw [Nat.zero_add]; exact Nat.le_refl height) rfl hvisible hfits
    hone.columns_pos hg
  have hleft : (Area.inner ⟨0, 0, width, height⟩).x = 1 := by
    simp only [Area.inner]
    omega
  have htop : (Area.inner ⟨0, 0, width, height⟩).y = 1 := by
    simp only [Area.inner]
    omega
  rw [hbefore, hleft, htop] at hsymbol
  rw [hdraw]
  exact hsymbol

/-! ### Scrolling down -/

/-- The keys that scroll the help down. -/
def ScrollsDown (k : Key) : Prop :=
  k.code = .down ∨ k.code = .pageDown

/-- The editor after keys. -/
def pressed (keys : List Key) (e : Editor) : Editor :=
  e.afterAll (keys.map fun k => .event (.key k))

theorem after_of_scrollsDown (hshown : e.helpShown = true) {k : Key} (hk : ScrollsDown k) :
    ∃ count, 0 < count ∧ e.after (.event (.key k)) =
      { e with status := none, helpScroll := min (e.helpScroll + count) e.lastHelpLine } := by
  rw [after_key_of_shown hshown]
  rcases hk with hk | hk <;> rw [hk]
  · exact ⟨1, by decide, rfl⟩
  · exact ⟨10, by decide, rfl⟩

/-- **Keys that scroll the help down** leave it shown and as it is. They scroll it at most to the
index of its last line, and there if they are as many. -/
theorem pressed_of_scrollsDown (hshown : e.helpShown = true) {keys : List Key}
    (hkeys : ∀ k ∈ keys, ScrollsDown k) :
    (e.pressed keys).helpShown = true ∧ (e.pressed keys).helpPage = e.helpPage ∧
      (keys ≠ [] → (e.pressed keys).helpScroll ≤ e.lastHelpLine) ∧
      min keys.length e.lastHelpLine ≤ (e.pressed keys).helpScroll := by
  induction keys using List.reverseRecOn with
  | nil => exact ⟨hshown, rfl, fun h => absurd rfl h, by simp⟩
  | append_singleton keys k ih =>
    obtain ⟨hstays, hpage, -, hmin⟩ := ih fun k' hk' => hkeys k' (List.mem_append_left _ hk')
    obtain ⟨count, hcount, hafter⟩ :=
      after_of_scrollsDown hstays (hkeys k (List.mem_append_right _ List.mem_cons_self))
    have hlast : (e.pressed keys).lastHelpLine = e.lastHelpLine := rfl
    rw [hlast] at hafter
    rw [pressed, List.map_append, List.map_singleton, afterAll_concat, ← pressed, hafter]
    refine ⟨hstays, hpage, fun _ => Nat.min_le_right .., ?_⟩
    rw [List.length_append, List.length_singleton]
    change _ ≤ min _ _
    omega

/-- The keys bring the last line into sight if its rows end in time. -/
theorem lastLineInSight_pressed (hshown : e.helpShown = true) (hwidth : 2 < width)
    (hrows : (e.helpRows (width - 2)).length ≤ e.lastHelpLine + (height - 2)) {keys : List Key}
    (hkeys : ∀ k ∈ keys, ScrollsDown k) (hlength : e.lastHelpLine ≤ keys.length) :
    (e.pressed keys).LastLineInSight width height := by
  obtain ⟨-, hpage, hle, hmin⟩ := pressed_of_scrollsDown hshown hkeys
  have hne : keys ≠ [] := by
    rintro rfl
    rw [lastHelpLine_eq] at hlength
    exact absurd hlength (by decide)
  have hscroll : (e.pressed keys).helpScroll = e.lastHelpLine := by
    have hle := hle hne
    omega
  -- every line before the last one has a row
  have hbefore := length_le_length_rowsOf (by omega : 0 < width - 2)
    (e.helpPage.take e.lastHelpLine)
  have hlines : (e.helpPage.take e.lastHelpLine).length = e.lastHelpLine := by
    rw [List.length_take, lastHelpLine]
    omega
  rw [hlines, ← rowsBeforeLast] at hbefore
  refine ⟨?_, ?_⟩
  · rwa [hscroll, rowsBeforeLast_congr hpage]
  · rwa [hscroll, helpRows_congr hpage]

/-- They do not otherwise. -/
theorem length_helpRows_le (hshown : e.helpShown = true) {keys : List Key} (hne : keys ≠ [])
    (hkeys : ∀ k ∈ keys, ScrollsDown k) (hsight : (e.pressed keys).LastLineInSight width height) :
    (e.helpRows (width - 2)).length ≤ e.lastHelpLine + (height - 2) := by
  obtain ⟨-, hpage, hle, -⟩ := pressed_of_scrollsDown hshown hkeys
  have hbelow := hsight.notBelow
  rw [helpRows_congr hpage] at hbelow
  exact Nat.le_trans hbelow (Nat.add_le_add_right (hle hne) _)

/-- The frame shows what is in sight. -/
theorem symbolAt_draw_pressed (hshown : e.helpShown = true) {keys : List Key} (hne : keys ≠ [])
    (hkeys : ∀ k ∈ keys, ScrollsDown k) {i j : Nat} (hi : i < height - 2)
    {row : List Screen.Glyph} {g : Screen.Glyph}
    (hrow : (e.helpRows (width - 2))[(e.pressed keys).helpScroll + i]? = some row)
    (hg : row[j]? = some g) :
    ((e.pressed keys).draw width height).2.canvas.symbolAt (1 + j) (1 + i) = some g.symbol := by
  obtain ⟨hstays, hpage, hle, -⟩ := pressed_of_scrollsDown hshown hkeys
  rw [← helpRows_congr hpage] at hrow
  exact symbolAt_draw_help hstays (hle hne) hi hrow hg

/-! ### Wide and narrow screens -/

/-- **On a screen of seventy columns** only the lines with the rates can be too wide. -/
theorem length_helpRows_of_wide (hwidth : 70 ≤ width)
    (hrates : ∀ line ∈ [e.gstLine, e.basicLine], totalColumns (glyphs .plain line) ≤ width - 2) :
    (e.helpRows (width - 2)).length = e.lastHelpLine + 1 := by
  rw [helpRows_eq]
  refine length_rowsOf_of_fits (by omega) (fun line => oneColumn_of_mem_helpPage) ?_
  intro line hline
  rcases of_mem_helpPage hline with hfixed | hrate
  · rw [(oneColumn_of_mem_fixed hfixed).totalColumns_eq]
    exact Nat.le_trans (fixedLines_spec.1 line hfixed).2 (by omega)
  · exact hrates line hrate

/-- **On a screen of twenty columns** the help has seventy-six rows or more, whatever the rates
are. -/
theorem length_helpRows_of_narrow (e : Editor) : 76 ≤ (e.helpRows 18).length := by
  have hfixed := fixedLines_spec.2
  have hrates := length_le_length_rowsOf (by decide : 0 < 18) [e.gstLine, e.basicLine]
  rw [rowsOf, List.flatMap_append, List.length_append, ← rowsOf, ← rowsOf] at hfixed
  rw [helpRows_eq, helpPage_eq, rowsOf, List.flatMap_append, List.flatMap_append,
    List.length_append, List.length_append, ← rowsOf, ← rowsOf, ← rowsOf]
  change 2 ≤ _ at hrates
  omega

/-- **The last line of the help can be brought into sight exactly if its rows end in time.** However
often the keys are pressed that scroll the help down, in whatever order, the last line is never in
sight if the help has more rows in the width of the screen than the index of its last line and the
rows of the screen together; otherwise it is as soon as they were pressed as often as there are
lines before it. In seventy columns that is so unless the rates are too many, and in twenty columns
it is not on any screen of forty rows or less. What is in sight is what is drawn: from the row that
the help is scrolled to on, one row below the other. -/
theorem lastLineInSight_iff (hshown : e.helpShown = true) (hwidth : 20 ≤ width)
    (hheight : 5 ≤ height) :
    let rows := e.helpRows (width - 2)
    let InTime := rows.length ≤ e.lastHelpLine + (height - 2)
    ((∃ keys ≠ [], (∀ k ∈ keys, ScrollsDown k) ∧
        (e.pressed keys).LastLineInSight width height) ↔ InTime) ∧
    (InTime → ∀ keys, (∀ k ∈ keys, ScrollsDown k) → e.lastHelpLine ≤ keys.length →
      (e.pressed keys).LastLineInSight width height) ∧
    (70 ≤ width →
      (∀ line ∈ [e.gstLine, e.basicLine], totalColumns (glyphs .plain line) ≤ width - 2) →
        InTime) ∧
    (width = 20 → height ≤ 40 → ¬ InTime) ∧
    ∀ keys ≠ [], (∀ k ∈ keys, ScrollsDown k) → ∀ i < height - 2, ∀ row,
      rows[(e.pressed keys).helpScroll + i]? = some row → ∀ j g, row[j]? = some g →
        ((e.pressed keys).draw width height).2.canvas.symbolAt (1 + j) (1 + i) =
          some g.symbol := by
  intro rows InTime
  have hreached (hrows : InTime) (keys : List Key) (hkeys : ∀ k ∈ keys, ScrollsDown k)
      (hlength : e.lastHelpLine ≤ keys.length) : (e.pressed keys).LastLineInSight width height :=
    lastLineInSight_pressed hshown (by omega) hrows hkeys hlength
  refine ⟨⟨?_, fun hrows => ?_⟩, hreached, fun hwide hrates => ?_, ?_, ?_⟩
  · rintro ⟨keys, hne, hkeys, hsight⟩
    exact length_helpRows_le hshown hne hkeys hsight
  · have hdown : ∀ k ∈ List.replicate e.lastHelpLine ({ code := .down } : Key), ScrollsDown k :=
      fun k hk => by rw [List.eq_of_mem_replicate hk]; exact Or.inl rfl
    refine ⟨_, ?_, hdown, hreached hrows _ hdown (by rw [List.length_replicate])⟩
    rw [lastHelpLine_eq]
    exact List.cons_ne_nil _ _
  · have hlength : rows.length = e.lastHelpLine + 1 := length_helpRows_of_wide hwide hrates
    change rows.length ≤ _
    omega
  · rintro rfl hlow hrows
    have hmany : 76 ≤ rows.length := length_helpRows_of_narrow e
    change rows.length ≤ e.lastHelpLine + (height - 2) at hrows
    rw [lastHelpLine_eq] at hrows
    omega
  · exact fun keys hne hkeys i hi row hrow j g hg =>
      symbolAt_draw_pressed hshown hne hkeys hi hrow hg

/-- With the standard settings the last line comes into sight on eighty columns and twenty-four
rows, and on twenty columns and forty rows it does not. -/
theorem lastLineInSight_standard :
    let e := (ofSettings .standard).afterAll [.event (.key { code := .function 1 })]
    e.helpShown = true ∧
      (∃ keys ≠ [], (∀ k ∈ keys, ScrollsDown k) ∧ (e.pressed keys).LastLineInSight 80 24) ∧
      ¬ ∃ keys ≠ [], (∀ k ∈ keys, ScrollsDown k) ∧ (e.pressed keys).LastLineInSight 20 40 := by
  intro e
  have hshown : e.helpShown = true := rfl
  have hrates : ∀ line ∈ [e.gstLine, e.basicLine], totalColumns (glyphs .plain line) ≤ 78 := by
    decide +kernel
  obtain ⟨hwide, -, hfits, -, -⟩ :=
    lastLineInSight_iff hshown (by decide : 20 ≤ 80) (by decide : 5 ≤ 24)
  obtain ⟨hnarrow, -, -, hmany, -⟩ :=
    lastLineInSight_iff hshown (by decide : 20 ≤ 20) (by decide : 5 ≤ 40)
  exact ⟨hshown, hwide.2 (hfits (by decide) hrates),
    fun h => hmany rfl (by decide) (hnarrow.1 h)⟩

/-- **On the smallest screen the last line of the help cannot be brought into sight.** Whichever
keys are pressed to scroll down, on twenty columns and five rows the frame ends before the first row
of the last line. -/
theorem lastLine_below_smallest_screen :
    let e := (ofSettings .standard).afterAll [.event (.key { code := .function 1 })]
    e.Reachable ∧ e.helpShown = true ∧
      ∀ keys, (∀ k ∈ keys, ScrollsDown k) →
        (e.pressed keys).helpScroll + (5 - 2) ≤ ((e.pressed keys).rowsBeforeLast 18).length ∧
          ¬ (e.pressed keys).LastLineInSight 20 5 := by
  intro e
  have hshown : e.helpShown = true := rfl
  refine ⟨⟨.standard, _, rfl⟩, hshown, fun keys hkeys => ?_⟩
  obtain ⟨-, hpage, hle, -⟩ := pressed_of_scrollsDown hshown hkeys
  have hscroll : (e.pressed keys).helpScroll ≤ 37 := by
    by_cases hne : keys = []
    · subst hne
      exact Nat.zero_le 37
    · exact hle hne
  have hlast : (e.lastLineRows 18).length = 2 := by
    change (rowsOf 18 [helpLine "  Ctrl+Q / Ctrl+C / quit : Exit"]).length = 2
    rw [helpLine, String.toList_ofList]
    decide +kernel
  have hrows := length_helpRows_of_narrow e
  have hsplit := congrArg List.length (helpRows_eq_append 18 e)
  rw [List.length_append, hlast] at hsplit
  rw [rowsBeforeLast_congr hpage]
  refine ⟨by omega, fun hsight => ?_⟩
  have hbelow := hsight.notBelow
  rw [helpRows_congr hpage] at hbelow
  change (e.helpRows 18).length ≤ _ + 3 at hbelow
  omega

end RunningTab.Editor
