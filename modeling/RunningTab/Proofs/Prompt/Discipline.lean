import Mathlib.Tactic.SplitIfs
import RunningTab.Proofs.Ledger.Selection
import RunningTab.Proofs.Prompt.Lines
import RunningTab.Proofs.Text.Cutting
import RunningTab.Prompt.Course

/-!
# The discipline of a session at the prompt

The ledger has one input, and at the prompt it serves twice: it holds what is being typed, so that
its value can be shown, and it holds the expression that an entry commits. Between the two it must
be empty, because the command `pop` clears an input that is not, instead of dropping a line. What
makes this work is that nothing is ever selected at the prompt (`RunningTab.Ledger.Idle`): what is
typed goes into the input and nowhere else.

So a line is carried out on an idle ledger with an empty input, and one of three things comes of it
(`RunningTab.Ledger.KeepsAll`, `RunningTab.Ledger.AddsLine`, `RunningTab.Ledger.TakesBack`),
exactly one (`RunningTab.Prompt.kept_added_or_takenBack`). Keys that carry no line out leave the
pages and the snapshots as they are.
-/

namespace RunningTab

/-! ### The expression of an entry -/

namespace Entry

/-- The expression that an entry commits. -/
def expression : Entry → Text
  | plain x => x
  | taxed x _ _ => x

/-- **The part of a line that is its expression**: what stands before the last `@`, without the
blanks at its ends, or the whole line if there is none. -/
def IsExpression (x t : Text) : Prop :=
  ('@' ∉ t ∧ x = t) ∨
    ∃ before behind, t = before ++ '@' :: behind ∧ '@' ∉ behind ∧ x = Text.trim before

/-- An entry commits the expression of its line. -/
theorem isExpression_of_ofLine {t : Text} {entry : Entry} (h : ofLine t = .ok entry) :
    IsExpression entry.expression t := by
  rw [ofLine] at h
  split at h
  · next hcut =>
    obtain rfl := Except.ok.inj h
    exact Or.inl ⟨Text.not_mem_of_cutLast?_eq_none hcut, rfl⟩
  · next before behind hcut =>
    obtain ⟨ht, hnot⟩ := Text.eq_append_of_cutLast?_eq_some hcut
    cases hsuffix : readSuffix (Text.trim behind) with
    | error fault => simp [hsuffix, Except.map] at h
    | ok suffix =>
      rw [hsuffix] at h
      obtain rfl := Except.ok.inj h
      exact Or.inr ⟨before, behind, ht, hnot, rfl⟩

/-- An entry without tax is the whole line. -/
theorem eq_of_ofLine_eq_plain {t x : Text} (h : ofLine t = .ok (.plain x)) : x = t := by
  rw [ofLine] at h
  split at h
  · exact (plain.inj (Except.ok.inj h)).symm
  · next behind _ =>
    cases hsuffix : readSuffix (Text.trim behind) with
    | error fault => simp [hsuffix, Except.map] at h
    | ok suffix => simp [hsuffix, Except.map] at h

/-- **A rejected entry**: its suffix is at fault, or there is no base amount before it. -/
def IsRejected (t : Text) : Prop :=
  (∃ fault, ofLine t = .error fault) ∨ ∃ direction rate, ofLine t = .ok (taxed [] direction rate)

end Entry

/-! ### What comes of a line -/

/-- **A command that takes back**: it restores a snapshot or drops lines. -/
def Command.takesBack : Command → Bool
  | undo | pop | clear => true
  | _ => false

namespace Ledger

/-- **A line keeps everything**: it is a command that takes nothing back, or a rejected entry. Only
a page command turns the page. -/
structure KeepsAll (t : Text) (l l' : Ledger) : Prop where
  command : (Command.ofLine t).takesBack = false
  rejected : Command.ofLine t = .entry t → Entry.IsRejected t
  pages : l'.pages = l.pages
  snapshots : l'.snapshots = l.snapshots
  current : l'.current = l.current ∨ ∃ number, Command.ofLine t = .page number

/-- **A line adds a line**: it is an entry, and its expression is what the new line has, at the end
of the current page. The pages of before are snapshot. -/
structure AddsLine (t : Text) (l l' : Ledger) : Prop where
  entry : Command.ofLine t = .entry t
  pages : ∃ new : Line, l'.page = l.page ++ [new] ∧
    l'.pages = l.pages.modify l.current (· ++ [new]) ∧
    Entry.IsExpression new.expression t ∧ new.expression ≠ []
  snapshots : l'.snapshots = l.snapshot.snapshots
  current : l'.current = l.current

/-- **A line takes back**: it is one of three commands, and does what this operation of the ledger
does, nothing else. With an empty input a retraction drops the last line of the page. -/
def TakesBack (t : Text) (l l' : Ledger) : Prop :=
  (Command.ofLine t = .undo ∧ l' = l.undo.1) ∨
  (Command.ofLine t = .pop ∧ l' = l.retract ∧ l'.pages = l.pages.modify l.current List.dropLast) ∨
  (Command.ofLine t = .clear ∧ l' = l.wipe)

/-- **An idle ledger**: a reachable one with nothing selected. -/
structure Idle (l : Ledger) : Prop where
  reachable : l.Reachable
  selected : l.selected = none

variable {l : Ledger}

/-! ### Idle ledgers -/

theorem Idle.edit (h : l.Idle) (t : Text) : (l.edit t).Idle := by
  refine ⟨h.reachable.after (.edit t), ?_⟩
  rw [edit_of_selected_eq_none h.selected]
  exact h.selected

/-- Restoring a snapshot selects nothing. -/
theorem selected_undo (h : l.selected = none) : l.undo.1.selected = none := by
  rw [undo]
  split
  · exact h
  · dsimp only
    split
    · exact h
    · rfl

/-- The input outlives an undo. -/
theorem input_undo (l : Ledger) : l.undo.1.input = l.input := by
  rw [undo]
  split
  · rfl
  · dsimp only
    split <;> rfl

/-- **With an empty input a retraction drops the last line**, if there is one. -/
theorem retract_of_input_eq_nil (h : l.Idle) (hinput : l.input = []) :
    l.retract.input = [] ∧ l.retract.selected = none ∧
      l.retract.pages = l.pages.modify l.current List.dropLast := by
  have hcurrent := (numbered_of_reachable h.reachable).getElem?_current
  rw [retract, if_neg (fun hne => hne hinput)]
  cases hlast : l.page.getLast? with
  | none =>
    have hpage : l.page = [] := List.getLast?_eq_none_iff.1 hlast
    refine ⟨hinput, h.selected, (List.ext_getElem? fun i => ?_).symm⟩
    rw [List.getElem?_modify]
    split
    · next hi => rw [← hi, hcurrent, hpage]; rfl
    · exact congrFun Option.map_id _
  | some last =>
    have hother : l.selected ≠ some last.id := by
      rw [h.selected]
      exact (Option.some_ne_none last.id).symm
    dsimp only
    rw [if_neg hother]
    exact ⟨hinput, h.selected, rfl⟩

/-- **Committing an expression on an idle ledger appends a line**, and empties the input. -/
theorem commit_edit (h : l.selected = none) {x : Text} (hx : x ≠ []) :
    (l.edit x).commit =
      ((l.snapshot.append x (Expr.evaluate x) none).released, some l.nextId) := by
  rw [edit_of_selected_eq_none h, commit]
  dsimp only
  rw [h]
  dsimp only
  rw [if_neg hx]
  rfl

/-- So does committing it with tax. -/
theorem exists_commitTaxed_edit (h : l.selected = none) {x : Text} (hx : x ≠ [])
    (direction : TaxDirection) (rate : Option Float) :
    ∃ result tax, (l.edit x).commitTaxed direction rate =
      ((l.snapshot.append x result tax).released, some l.nextId) := by
  have hnone : editedLine? { l with input := x } = none := by
    change l.selected.bind _ = none
    rw [h, Option.bind_none]
  rw [edit_of_selected_eq_none h, commitTaxed, if_neg hx]
  dsimp only
  rw [hnone]
  exact ⟨_, _, rfl⟩

/-- A line that is added makes a difference. -/
theorem AddsLine.pages_ne {t : Text} {l' : Ledger} (hadds : AddsLine t l l') :
    l'.pages ≠ l.pages := by
  intro hsame
  obtain ⟨new, hpage, -⟩ := hadds.pages
  rw [page, hsame, hadds.current] at hpage
  have hlength := congrArg List.length hpage
  rw [List.length_append, List.length_singleton] at hlength
  exact absurd hlength (Nat.ne_of_lt (Nat.lt_succ_self _))

/-- The current page when a line has been appended. -/
theorem page_released_append (h : l.Idle) (x : Text) (result : Float) (tax : Option LineTax) :
    (l.snapshot.append x result tax).released.page = l.page ++ [⟨l.nextId, x, result, tax⟩] := by
  obtain ⟨new, hnew⟩ : ∃ new : Line, new = ⟨l.nextId, x, result, tax⟩ := ⟨_, rfl⟩
  rw [← hnew]
  refine Eq.trans ?_ (page_onPage (numbered_of_reachable h.reachable).current_lt (· ++ [new]))
  rw [hnew]
  rfl

/-- What a line leaves behind that keeps, adds or takes back: an idle ledger with an empty input. -/
structure Settled (t : Text) (l l' : Ledger) : Prop where
  idle : l'.Idle
  input : l'.input = []
  outcome : KeepsAll t l l' ∨ AddsLine t l l' ∨ TakesBack t l l'

end Ledger

namespace Command

open Ledger (Idle KeepsAll AddsLine TakesBack Settled)

variable {l : Ledger} {t : Text}

/-- An entry is the line itself. -/
theorem eq_of_ofLine_eq_entry {x : Text} (h : ofLine t = .entry x) : x = t := by
  unfold ofLine at h
  split at h
  · exact (entry.inj h).symm
  · split at h <;> split_ifs at h <;> exact (entry.inj h).symm

/-- A command that is no entry and takes nothing back keeps everything, if it does nothing to the
pages, the snapshots and the current page. -/
theorem keeps_of_same {c : Command} {l' : Ledger} (hc : ofLine t = c) (hentry : ∀ x, c ≠ .entry x)
    (htakes : c.takesBack = false) (hpages : l'.pages = l.pages)
    (hsnapshots : l'.snapshots = l.snapshots)
    (hcurrent : l'.current = l.current ∨ ∃ number, c = .page number) : KeepsAll t l l' where
  command := hc ▸ htakes
  rejected := fun h => absurd (hc.symm.trans h) (hentry t)
  pages := hpages
  snapshots := hsnapshots
  current := hc ▸ hcurrent

/-- Turning the page by its number. -/
theorem fst_turnTo (number : Text) (l : Ledger) :
    (turnTo number l).1 = l ∨
      ∃ index < l.pages.length, (turnTo number l).1 = { l with current := index }.released := by
  rw [turnTo]
  split
  · next index _ =>
    dsimp only
    rw [Ledger.turnTo]
    split
    · next hindex => exact Or.inr ⟨index, hindex, rfl⟩
    · exact Or.inl rfl
  · exact Or.inl rfl

/-- **What comes of an entry**: it is rejected and nothing happens, or a line with its expression is
appended. -/
theorem enter_cases (h : l.Idle) (hinput : l.input = []) (ht : t ≠ []) :
    (Entry.IsRejected t ∧ (enter t l).1 = l) ∨
      ∃ entry result tax, Entry.ofLine t = .ok entry ∧ entry.expression ≠ [] ∧
        enter t l = committedReply
          ((l.snapshot.append entry.expression result tax).released, some l.nextId) := by
  have hsame : l.edit [] = l := by
    rw [Ledger.edit_of_selected_eq_none h.selected, ← hinput]
  cases hentry : Entry.ofLine t with
  | error fault => exact Or.inl ⟨Or.inl ⟨fault, hentry⟩, by rw [enter, hentry]⟩
  | ok entry =>
    cases entry with
    | plain x =>
      have hx : x ≠ [] := by
        rwa [Entry.eq_of_ofLine_eq_plain hentry]
      refine Or.inr ⟨.plain x, Expr.evaluate x, none, rfl, hx, ?_⟩
      rw [enter, hentry]
      dsimp only
      rw [Ledger.commit_edit h.selected hx]
      rfl
    | taxed x direction rate =>
      by_cases hx : x = []
      · subst hx
        have hnone : (l.edit []).commitTaxed direction rate = (l, none) := by
          rw [hsame, Ledger.commitTaxed, if_pos hinput]
        refine Or.inl ⟨Or.inr ⟨direction, rate, hentry⟩, ?_⟩
        rw [enter, hentry]
        dsimp only
        rw [hnone]
        rfl
      · obtain ⟨result, tax, hcommit⟩ :=
          Ledger.exists_commitTaxed_edit h.selected hx direction rate
        refine Or.inr ⟨.taxed x direction rate, result, tax, rfl, hx, ?_⟩
        rw [enter, hentry]
        dsimp only
        rw [hcommit]
        rfl

/-- **Every line keeps, adds or takes back**, and leaves an idle ledger with an empty input. -/
theorem settled_carryOut (h : l.Idle) (hinput : l.input = []) (ht : t ≠ []) :
    Settled t l (carryOut l (ofLine t)).1 := by
  have hreachable : (carryOut l (ofLine t)).1.Reachable := by
    obtain ⟨history, hhistory⟩ := exists_history_carryOut l (ofLine t)
    rw [hhistory]
    exact h.reachable.afterAll history
  cases hc : ofLine t with
  | quit => exact ⟨h, hinput, Or.inl (keeps_of_same hc nofun rfl rfl rfl (.inl rfl))⟩
  | total => exact ⟨h, hinput, Or.inl (keeps_of_same hc nofun rfl rfl rfl (.inl rfl))⟩
  | list => exact ⟨h, hinput, Or.inl (keeps_of_same hc nofun rfl rfl rfl (.inl rfl))⟩
  | pageUsage => exact ⟨h, hinput, Or.inl (keeps_of_same hc nofun rfl rfl rfl (.inl rfl))⟩
  | details x => exact ⟨h, hinput, Or.inl (keeps_of_same hc nofun rfl rfl rfl (.inl rfl))⟩
  | detailsUsage => exact ⟨h, hinput, Or.inl (keeps_of_same hc nofun rfl rfl rfl (.inl rfl))⟩
  | page number =>
    rw [hc] at hreachable
    change Ledger.Reachable (turnTo number l).1 at hreachable
    change Settled t l (turnTo number l).1
    rcases fst_turnTo number l with heq | ⟨index, -, heq⟩
    · rw [heq]
      exact ⟨h, hinput, Or.inl (keeps_of_same hc nofun rfl rfl rfl (.inl rfl))⟩
    · rw [heq] at hreachable ⊢
      exact ⟨⟨hreachable, rfl⟩, rfl,
        Or.inl (keeps_of_same hc nofun rfl rfl rfl (.inr ⟨number, rfl⟩))⟩
  | undo =>
    rw [hc] at hreachable
    exact ⟨⟨hreachable, Ledger.selected_undo h.selected⟩, (Ledger.input_undo l).trans hinput,
      Or.inr (Or.inr (Or.inl ⟨hc, rfl⟩))⟩
  | clear =>
    rw [hc] at hreachable
    exact ⟨⟨hreachable, rfl⟩, rfl, Or.inr (Or.inr (Or.inr (Or.inr ⟨hc, rfl⟩)))⟩
  | pop =>
    rw [hc] at hreachable
    obtain ⟨hempty, hselected, hpages⟩ := Ledger.retract_of_input_eq_nil h hinput
    exact ⟨⟨hreachable, hselected⟩, hempty, Or.inr (Or.inr (Or.inr (Or.inl ⟨hc, rfl, hpages⟩)))⟩
  | entry x =>
    rw [hc] at hreachable
    obtain rfl := eq_of_ofLine_eq_entry hc
    change Ledger.Reachable (enter x l).1 at hreachable
    change Settled x l (enter x l).1
    rcases enter_cases h hinput ht with ⟨hrejected, heq⟩ | ⟨entry, result, tax, hentry, hne, heq⟩
    · rw [heq]
      exact ⟨h, hinput, Or.inl ⟨by rw [hc]; rfl, fun _ => hrejected, rfl, rfl, .inl rfl⟩⟩
    · rw [heq, fst_committedReply] at hreachable ⊢
      exact ⟨⟨hreachable, rfl⟩, rfl, Or.inr (Or.inl
        ⟨hc, ⟨_, Ledger.page_released_append h _ result tax, rfl,
          Entry.isExpression_of_ofLine hentry, hne⟩, rfl, rfl⟩)⟩

/-! ### What is printed -/

/-- **The prompt says that it has committed nothing**: what is wrong with the suffix of an entry, or
that there is no base amount. -/
def Refuses (t : Text) (printed : List Text) : Prop :=
  (∃ fault, Entry.ofLine t = .error fault ∧ "Error: ".toList ++ fault.message ∈ printed) ∨
    "Empty base, nothing committed".toList ∈ printed

/-- A refusal begins with a capital `E`. -/
theorem Refuses.exists_head? {printed : List Text} (h : Refuses t printed) :
    ∃ line ∈ printed, line.head? = some 'E' := by
  rcases h with ⟨fault, -, hmem⟩ | hmem
  · exact ⟨_, hmem, rfl⟩
  · exact ⟨_, hmem, rfl⟩

/-- The line with a total does not. -/
theorem head?_summary (s : Settings) (l : Ledger) : (l.summary s).head? = some 'P' := rfl

/-- The reply to a commit that appended a line is a line. -/
theorem exists_committedReply (h : l.Idle) (x : Text) (result : Float) (tax : Option LineTax) :
    ∃ line, (committedReply ((l.snapshot.append x result tax).released, some l.nextId)).2 =
      .committed line := by
  have hsome : ((l.snapshot.append x result tax).released.page.line? l.nextId).isSome := by
    rw [Ledger.page_released_append h, Page.line?, List.find?_isSome]
    exact ⟨_, List.mem_append_right l.page List.mem_cons_self, by simp⟩
  obtain ⟨line, hline⟩ := Option.isSome_iff_exists.1 hsome
  refine ⟨line, ?_⟩
  rw [committedReply]
  dsimp only
  rw [Option.bind_some, hline]

/-- What is printed of a committed line says nothing of an empty base amount: its first row has an
equals sign, and the others begin with other letters. -/
theorem not_mem_lines_committed (s : Settings) (l : Ledger) (line : Line) :
    "Empty base, nothing committed".toList ∉ (Reply.committed line).lines s l := by
  intro hmem
  change _ ∈ Reply.lineLines s line ++ [l.summary s] at hmem
  rcases List.mem_append.1 hmem with hline | hsummary
  · rw [Reply.lineLines] at hline
    rcases List.mem_cons.1 hline with hfirst | hbase
    · have hequals : '=' ∈ line.expression ++ " = ".toList ++ s.amount line.result := by simp
      rw [← hfirst] at hequals
      exact absurd hequals (by decide)
    · split at hbase
      · exact absurd hbase (by simp)
      · have hhead := congrArg List.head? (List.mem_singleton.1 hbase)
        exact absurd hhead (by simp)
  · have hhead := congrArg List.head? (List.mem_singleton.1 hsummary)
    rw [head?_summary] at hhead
    exact absurd hhead (by decide)

/-- **Only a line that keeps everything is refused.** -/
theorem keeps_of_refuses (h : l.Idle) (hinput : l.input = []) (ht : t ≠ []) (s : Settings)
    (hrefuses : Refuses t (submitLine s l t).2) : KeepsAll t l (submitLine s l t).1 := by
  obtain ⟨-, -, hkeeps | hadds | htakes⟩ := settled_carryOut h hinput ht
  · exact hkeeps
  · exfalso
    have hc := hadds.entry
    have hmore := hadds.pages_ne
    rw [submitLine, hc] at hrefuses
    rw [hc] at hmore
    change (enter t l).1.pages ≠ l.pages at hmore
    change Refuses t ((enter t l).2.lines s (enter t l).1) at hrefuses
    rcases enter_cases h hinput ht with ⟨-, heq⟩ | ⟨entry, result, tax, hentry, -, heq⟩
    · exact hmore (by rw [heq])
    · obtain ⟨line, hline⟩ := exists_committedReply h entry.expression result tax
      rw [heq, hline] at hrefuses
      rcases hrefuses with ⟨fault, hfault, -⟩ | hempty
      · rw [hentry] at hfault
        exact absurd hfault nofun
      · exact not_mem_lines_committed s _ line hempty
  · exfalso
    obtain ⟨line, hline, hhead⟩ := hrefuses.exists_head?
    rw [submitLine] at hline
    rcases htakes with ⟨hc, -⟩ | ⟨hc, -⟩ | ⟨hc, -⟩
    · rw [hc] at hline
      change line ∈ [_, _] at hline
      rcases List.mem_cons.1 hline with rfl | hsummary
      · cases hdone : l.undo.2 <;> simp [hdone] at hhead
      · rw [List.mem_singleton.1 hsummary, head?_summary] at hhead
        exact absurd hhead (by decide)
    · rw [hc] at hline
      change line ∈ [_] at hline
      rw [List.mem_singleton.1 hline, head?_summary] at hhead
      exact absurd hhead (by decide)
    · rw [hc] at hline
      change line ∈ [_] at hline
      rw [List.mem_singleton.1 hline, head?_summary] at hhead
      exact absurd hhead (by decide)

end Command

/-! ### Keys -/

namespace Prompt

open Ledger (Idle KeepsAll AddsLine TakesBack)

variable {p : Prompt}

/-- Opening a prompt leaves the ledger as it is: nothing has been typed. -/
theorem ledger_opened (p : Prompt) : p.opened.1.ledger = p.ledger := rfl

/-- A line that is recalled is one of the history, or nothing happens. -/
theorem exists_recallAt (i : Nat) (p : Prompt) :
    ∃ j line, p.recallAt i = { p with recalled := j, line := line } ∧
      (j = p.recalled ∨ j ≤ p.history.length) := by
  rw [recallAt]
  split
  · next t ht => exact ⟨i, _, rfl, Or.inr (Nat.le_of_lt (List.getElem?_eq_some_iff.1 ht).1)⟩
  · exact ⟨p.recalled, p.line, rfl, Or.inl rfl⟩

/-- **Typing, moving and recalling change the line and the index of the recalled one**, which stays
within the history. -/
theorem exists_edited (k : Key) (p : Prompt) :
    ∃ i line, p.edited k = { p with recalled := i, line := line } ∧
      (i = p.recalled ∨ i ≤ p.history.length) := by
  rw [edited]
  split
  · exact ⟨p.recalled, p.line, rfl, Or.inl rfl⟩
  · split
    · rw [recallOlder]
      split
      · exact exists_recallAt _ p
      · exact ⟨p.recalled, p.line, rfl, Or.inl rfl⟩
    · rw [recallNewer]
      split
      · exact exists_recallAt _ p
      · exact ⟨p.history.length, _, rfl, Or.inr (Nat.le_refl _)⟩
    · exact ⟨p.recalled, _, rfl, Or.inl rfl⟩
    · exact ⟨p.recalled, _, rfl, Or.inl rfl⟩

/-- Drawing the row puts what has been typed into the input, unless nothing has. -/
theorem redraw_eq (p : Prompt) :
    p.redraw.1 =
      { p with ledger := if p.line.text = [] then p.ledger else p.ledger.edit p.line.text } := by
  change p.previewing = _
  rw [previewing]
  split <;> rfl

@[simp] theorem history_redraw (p : Prompt) : p.redraw.1.history = p.history := by
  rw [redraw_eq]

@[simp] theorem recalled_redraw (p : Prompt) : p.redraw.1.recalled = p.recalled := by
  rw [redraw_eq]

@[simp] theorem line_redraw (p : Prompt) : p.redraw.1.line = p.line := by
  rw [redraw_eq]

@[simp] theorem ended_redraw (p : Prompt) : p.redraw.1.ended = p.ended := by
  rw [redraw_eq]

theorem exists_ledger_redraw (h : p.ledger.selected = none) :
    ∃ x, p.redraw.1.ledger = { p.ledger with input := x } := by
  rw [redraw_eq]
  dsimp only
  split
  · exact ⟨p.ledger.input, rfl⟩
  · exact ⟨p.line.text, Ledger.edit_of_selected_eq_none h _⟩

/-- The enter key carries the line out. -/
theorem press_eq_submit {k : Key} (hended : p.ended = false) (hinterrupt : isInterrupt k = false)
    (henter : isEnter k = true) : p.press k = p.submit := by
  rw [press, if_neg (Bool.not_eq_true _ ▸ hended), if_neg (Bool.not_eq_true _ ▸ hinterrupt),
    if_pos henter]

/-- **A key that hands no line over changes the input of the ledger at most.** -/
theorem exists_ledger_press (h : p.ledger.selected = none) {k : Key}
    (hnone : p.handedOver? k = none) :
    ∃ x, (p.press k).1.ledger = { p.ledger with input := x } := by
  rw [press]
  split_ifs with hended hinterrupt henter
  · exact ⟨p.ledger.input, rfl⟩
  · exact ⟨p.ledger.input, rfl⟩
  · have hblank : Text.trim p.line.text = [] := by
      simpa [handedOver?, hended, hinterrupt, henter] using hnone
    refine ⟨[], ?_⟩
    rw [submit]
    dsimp only
    rw [if_pos hblank, ledger_opened]
    exact Ledger.edit_of_selected_eq_none h []
  · obtain ⟨i, line, hedited, -⟩ := exists_edited k p
    rw [hedited]
    exact exists_ledger_redraw h

/-- **A line is handed over by the enter key**: on the ledger with its input cleared, and without
the blanks at its ends, which leaves some of it. -/
theorem handedOver?_eq_some {k : Key} {l : Ledger} {t : Text}
    (h : p.handedOver? k = some (l, t)) :
    l = p.ledger.edit [] ∧ t = Text.trim p.line.text ∧ t ≠ [] ∧ p.ended = false ∧
      isInterrupt k = false ∧ isEnter k = true := by
  rw [handedOver?] at h
  split at h
  · exact absurd h nofun
  · next hkey =>
    obtain ⟨rfl, rfl⟩ := Prod.mk.inj (Option.some.inj h)
    simp only [not_or, Bool.not_eq_true] at hkey
    obtain ⟨hended, hinterrupt, henter, hne⟩ := hkey
    exact ⟨rfl, rfl, hne, hended, hinterrupt, (Bool.not_eq_false _).mp henter⟩

/-- The line that is handed over is carried out, and what is printed for it is written first. -/
theorem ledger_press_of_handedOver? {k : Key} {l : Ledger} {t : Text}
    (h : p.handedOver? k = some (l, t)) :
    (p.press k).1.ledger = (submitLine p.settings l t).1 ∧
      printed (submitLine p.settings l t).2 <+: (p.press k).2 := by
  obtain ⟨rfl, rfl, hne, hended, hinterrupt, henter⟩ := handedOver?_eq_some h
  rw [press_eq_submit hended hinterrupt henter, submit]
  dsimp only
  rw [if_neg hne]
  split
  · exact ⟨rfl, List.prefix_refl _⟩
  · exact ⟨rfl, List.prefix_append _ _⟩

/-- **The ledger of a session is idle** after every key. -/
theorem idle_press (h : p.ledger.Idle) (k : Key) : (p.press k).1.ledger.Idle := by
  cases hover : p.handedOver? k with
  | none =>
    obtain ⟨x, hx⟩ := exists_ledger_press h.selected hover
    rw [hx, ← Ledger.edit_of_selected_eq_none h.selected]
    exact h.edit x
  | some handed =>
    obtain ⟨l, t⟩ := handed
    obtain ⟨rfl, -, hne, -⟩ := handedOver?_eq_some hover
    rw [(ledger_press_of_handedOver? hover).1]
    exact (Command.settled_carryOut (h.edit []) (Ledger.input_edit [] p.ledger) hne).idle

/-- **What sessions have at their start and keys preserve, all reachable sessions have.** -/
theorem of_reachable {P : Prompt → Prop} (hstart : ∀ s row, P (start s row).1)
    (hstep : ∀ p k, P p → P (p.press k).1) (h : p.Reachable) : P p := by
  obtain ⟨s, row, keys, rfl⟩ := h
  have hp := hstart s row
  generalize (start s row).1 = p at hp
  rw [afterAll]
  induction keys generalizing p with
  | nil => exact hp
  | cons k keys ih => exact ih _ (hstep p k hp)

theorem idle_of_reachable (h : p.Reachable) : p.ledger.Idle :=
  of_reachable (P := fun p => p.ledger.Idle)
    (fun s _ => ⟨⟨s.pages, s.defaultRate, [], rfl⟩, rfl⟩) (fun _ k hp => idle_press hp k) h

/-- Exactly one of three statements is true. -/
def ExactlyOne (a b c : Prop) : Prop :=
  (a ∧ ¬ b ∧ ¬ c) ∨ (¬ a ∧ b ∧ ¬ c) ∨ (¬ a ∧ ¬ b ∧ c)

/-- A line that keeps or adds does not take back, and one that keeps does not add. -/
theorem exactlyOne_outcome {l l' : Ledger} {t : Text}
    (houtcome : KeepsAll t l l' ∨ AddsLine t l l' ∨ TakesBack t l l') :
    ExactlyOne (KeepsAll t l l') (AddsLine t l l') (TakesBack t l l') := by
  have hkeeps_adds : KeepsAll t l l' → ¬ AddsLine t l l' := fun hk ha => ha.pages_ne hk.pages
  have htakes : TakesBack t l l' → (Command.ofLine t).takesBack = true := by
    rintro (⟨hc, -⟩ | ⟨hc, -⟩ | ⟨hc, -⟩) <;> rw [hc] <;> rfl
  have hkeeps_takes : KeepsAll t l l' → ¬ TakesBack t l l' := fun hk ht =>
    Bool.false_ne_true (hk.command.symm.trans (htakes ht))
  have hadds_takes : AddsLine t l l' → ¬ TakesBack t l l' := by
    intro ha ht
    have hc := htakes ht
    rw [ha.entry] at hc
    exact Bool.false_ne_true hc
  rcases houtcome with hk | ha | ht
  · exact Or.inl ⟨hk, hkeeps_adds hk, hkeeps_takes hk⟩
  · exact Or.inr (Or.inl ⟨fun hk => hkeeps_adds hk ha, ha, hadds_takes ha⟩)
  · exact Or.inr (Or.inr ⟨fun hk => hkeeps_takes hk ht, fun ha => hadds_takes ha ht, ht⟩)

/-- **The discipline of a session.** A key that hands no line over changes nothing of the ledger but
the input. A line that is handed over is carried out on the ledger with an empty input and nothing
selected, and leaves it so; it keeps everything, adds one line, or takes back, exactly one of these;
and a refusal is printed only if it keeps everything. -/
theorem kept_added_or_takenBack (hp : p.Reachable) (k : Key) :
    (p.handedOver? k = none → ∃ x, (p.press k).1.ledger = { p.ledger with input := x }) ∧
    ∀ l t, p.handedOver? k = some (l, t) →
      l = { p.ledger with input := [] } ∧ l.selected = none ∧
      t = Text.trim p.line.text ∧ t ≠ [] ∧
      ∃ l' lines, submitLine p.settings l t = (l', lines) ∧ (p.press k).1.ledger = l' ∧
        printed lines <+: (p.press k).2 ∧ l'.input = [] ∧ l'.selected = none ∧
        ExactlyOne (KeepsAll t l l') (AddsLine t l l') (TakesBack t l l') ∧
        (Command.Refuses t lines → KeepsAll t l l') := by
  have hidle := idle_of_reachable hp
  refine ⟨exists_ledger_press hidle.selected, fun l t hover => ?_⟩
  obtain ⟨hl, ht, hne, -⟩ := handedOver?_eq_some hover
  have hidle' : l.Idle := hl ▸ hidle.edit []
  have hinput : l.input = [] := hl ▸ Ledger.input_edit [] p.ledger
  obtain ⟨hledger, hprinted⟩ := ledger_press_of_handedOver? hover
  obtain ⟨hafter, hempty, houtcome⟩ := Command.settled_carryOut hidle' hinput hne
  refine ⟨?_, hidle'.selected, ht, hne, _, _, rfl, hledger, hprinted, hempty, hafter.selected,
    exactlyOne_outcome houtcome, Command.keeps_of_refuses hidle' hinput hne p.settings⟩
  rw [hl, Ledger.edit_of_selected_eq_none hidle.selected]

/-- A line is committed and dropped by `pop`, and both lines are recalled: the first of them is
handed over again. -/
theorem kept_added_or_takenBack_after_recall :
    let type (t : Text) : List Key := t.map Key.plain
    let key (code : KeyCode) : Key := { code := code }
    let p := (start .standard 1).1.afterAll
      (type "7 @+".toList ++ key .enter :: type "pop".toList ++ [key .enter, key .up, key .up])
    ∃ l l' lines, p.Reachable ∧ p.handedOver? (key .enter) = some (l, "7 @+".toList) ∧
      submitLine p.settings l "7 @+".toList = (l', lines) ∧
      l.page.map Line.expression = [] ∧ l'.page.map Line.expression = ["7".toList] ∧
      (p.press (key .enter)).1.ledger = l' ∧ l'.input = [] ∧ l'.selected = none ∧
      ExactlyOne (KeepsAll "7 @+".toList l l') (AddsLine "7 @+".toList l l')
        (TakesBack "7 @+".toList l l') := by
  intro type key p
  have hp : p.Reachable := ⟨.standard, 1, _, rfl⟩
  have htext : Text.trim p.line.text = "7 @+".toList := by decide +kernel
  have hover : p.handedOver? (key .enter) = some (p.ledger.edit [], "7 @+".toList) := by
    rw [handedOver?, if_neg (by decide +kernel), htext]
  obtain ⟨-, -, -, -, l', lines, hline, hledger, -, hinput, hselected, hone, -⟩ :=
    (kept_added_or_takenBack hp (key .enter)).2 _ _ hover
  have hpage : (submitLine p.settings (p.ledger.edit []) "7 @+".toList).1.page.map
      Line.expression = ["7".toList] := by decide +kernel
  rw [hline] at hpage
  exact ⟨_, l', lines, hp, hover, hline, by decide +kernel, hpage, hledger, hinput, hselected, hone⟩

end Prompt

end RunningTab
