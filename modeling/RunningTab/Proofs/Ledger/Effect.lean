import RunningTab.Ledger.Operation

/-!
# What an operation does to the lines

Fourteen operations, but only six things that any of them does to the pages, to the snapshots of
them and to the next identifier (`RunningTab.Ledger.Effect`): nothing, a change of one line in
place, with a snapshot or without, a new line at the end, a loss of lines, and the return of a
snapshot. Which page is looked at changes only where the pages do not. That each operation does one
of these (`RunningTab.Ledger.effect_after`) is all that statements about the lines of every
reachable ledger need; they follow by induction on the history (`RunningTab.Ledger.of_reachable`).

Every line that an operation writes agrees with its own text (`RunningTab.Line.Agrees`), and the
effects say so.
-/

namespace RunningTab

/-! ### Lines that agree with their text -/

/-- **A line agrees with its text** if its result, or the base amount of its tax, is the value of
the text, and a taxed result is what the tax makes of the base amount. -/
def Line.Agrees (line : Line) : Prop :=
  match line.tax with
  | none => line.result = Expr.evaluate line.expression
  | some tax =>
    tax.breakdown.base = Expr.evaluate line.expression ∧
      (line.result, tax.breakdown) = withTax tax.breakdown.base tax.breakdown.rate tax.direction

/-- A line without tax, worked out from its text. -/
theorem Line.agrees_plain (id : Nat) (t : Text) :
    Line.Agrees ⟨id, t, Expr.evaluate t, none⟩ :=
  rfl

/-- A line with tax, worked out from its text. -/
theorem Line.agrees_taxed (id : Nat) (t : Text) (rate : Float) (direction : TaxDirection) :
    Line.Agrees ⟨id, t, (withTax (Expr.evaluate t) rate direction).1,
      some ⟨direction, (withTax (Expr.evaluate t) rate direction).2⟩⟩ := by
  cases direction <;> exact ⟨rfl, rfl⟩

/-! ### Changing one page or one line -/

/-- What a change of one page makes of that page and what the other pages have anyway, all pages
have after it. -/
theorem forall_mem_modify {Q R : Page → Prop} {pages : List Page} (h : ∀ page ∈ pages, Q page)
    (i : Nat) {f : Page → Page} (hother : ∀ page, Q page → R page)
    (hf : ∀ page, Q page → R (f page)) : ∀ page ∈ pages.modify i f, R page := by
  induction pages generalizing i with
  | nil =>
    rw [List.modify_nil]
    exact fun page hpage => absurd hpage (by simp)
  | cons page pages ih =>
    obtain ⟨hpage, hpages⟩ := List.forall_mem_cons.1 h
    cases i with
    | zero =>
      rw [List.modify_zero_cons]
      exact List.forall_mem_cons.2 ⟨hf page hpage, fun p hp => hother p (hpages p hp)⟩
    | succ i =>
      rw [List.modify_succ_cons]
      exact List.forall_mem_cons.2 ⟨hother page hpage, ih hpages i⟩

namespace Page

/-- Only the line with the identifier matters to a change. -/
theorem amend_congr {id : Nat} {f g : Line → Line} (h : ∀ line, line.id = id → f line = g line)
    (p : Page) : p.amend id f = p.amend id g := by
  induction p with
  | nil => rfl
  | cons line p ih =>
    rw [amend, amend, ih]
    split
    · next hid => rw [h line hid]
    · rfl

/-- A line of a changed page is the new one or was there before. -/
theorem mem_amend {line new : Line} {p : Page} (h : line ∈ p.amend new.id fun _ => new) :
    line = new ∨ line ∈ p := by
  induction p with
  | nil => exact absurd h (by simp [amend])
  | cons first p ih =>
    rw [amend] at h
    split at h
    · rcases List.mem_cons.1 h with rfl | hp
      · exact Or.inl rfl
      · exact Or.inr (List.mem_cons_of_mem first hp)
    · rcases List.mem_cons.1 h with rfl | hp
      · exact Or.inr List.mem_cons_self
      · exact (ih hp).imp id fun hmem => List.mem_cons_of_mem first hmem

/-- A change in place keeps the identifiers. -/
theorem map_id_amend (new : Line) (p : Page) :
    (p.amend new.id fun _ => new).map Line.id = p.map Line.id := by
  induction p with
  | nil => rfl
  | cons first p ih =>
    rw [amend]
    split
    · next h => rw [List.map_cons, List.map_cons, h]
    · rw [List.map_cons, List.map_cons, ih]

end Page

namespace Ledger

/-! ### Effects -/

/-- **What an operation can do to the lines**, the snapshots of them, the next identifier and the
page that is looked at. -/
inductive Effect (l : Ledger) : Ledger → Prop where
  /-- Nothing. -/
  | nothing {l' : Ledger} (pages : l'.pages = l.pages) (snapshots : l'.snapshots = l.snapshots)
      (nextId : l'.nextId = l.nextId)
      (current : l'.current = l.current ∨ l'.current < l.pages.length) : Effect l l'
  /-- A line follows the input. -/
  | follow {l' : Ledger} (new : Line) (agrees : new.Agrees)
      (pages : l'.pages = l.pages.modify l.current (Page.amend new.id fun _ => new))
      (snapshots : l'.snapshots = l.snapshots) (nextId : l'.nextId = l.nextId)
      (current : l'.current = l.current) : Effect l l'
  /-- A line is replaced after a snapshot. -/
  | replace {l' : Ledger} (new : Line) (agrees : new.Agrees)
      (pages : l'.pages = l.pages.modify l.current (Page.amend new.id fun _ => new))
      (snapshots : l'.snapshots = l.snapshot.snapshots) (nextId : l'.nextId = l.nextId)
      (current : l'.current = l.current) : Effect l l'
  /-- A line with the next identifier is appended after a snapshot. -/
  | append {l' : Ledger} (new : Line) (agrees : new.Agrees) (id : new.id = l.nextId)
      (pages : l'.pages = l.pages.modify l.current (· ++ [new]))
      (snapshots : l'.snapshots = l.snapshot.snapshots) (nextId : l'.nextId = l.nextId + 1)
      (current : l'.current = l.current) : Effect l l'
  /-- Lines are dropped after a snapshot. -/
  | drop {l' : Ledger} (f : Page → Page) (sublist : ∀ p, (f p).Sublist p)
      (pages : l'.pages = l.pages.modify l.current f)
      (snapshots : l'.snapshots = l.snapshot.snapshots) (nextId : l'.nextId = l.nextId)
      (current : l'.current = l.current) : Effect l l'
  /-- The latest snapshot comes back. -/
  | restore {l' : Ledger} (snapshots : l.snapshots = l'.pages :: l'.snapshots)
      (nextId : l'.nextId = l.nextId) (current : l'.current = l.current) : Effect l l'

theorem effect_edit (t : Text) (l : Ledger) : Effect l (l.edit t) := by
  rw [edit]
  split
  · next line _ =>
    refine .follow ⟨line.id, t, Expr.evaluate t, none⟩ (Line.agrees_plain line.id t) ?_ rfl
      rfl rfl
    -- the line keeps its identifier, so it is the same line that replaces it on any page
    refine congrArg (l.pages.modify l.current) (funext fun p => Page.amend_congr ?_ p)
    intro old hid
    rw [hid]
  · exact .nothing rfl rfl rfl (.inl rfl)

theorem effect_erase (position : Nat) (l : Ledger) : Effect l (l.erase position).1 := by
  rw [erase]
  split
  · exact .nothing rfl rfl rfl (.inl rfl)
  · exact effect_edit _ l

theorem effect_commit (l : Ledger) : Effect l l.commit.1 := by
  rw [commit]
  split
  · exact .nothing rfl rfl rfl (.inl rfl)
  · split
    · exact .nothing rfl rfl rfl (.inl rfl)
    · exact .append ⟨l.nextId, l.input, Expr.evaluate l.input, none⟩ (Line.agrees_plain _ _)
        rfl rfl rfl rfl rfl

theorem effect_commitTaxed (direction : TaxDirection) (rate : Option Float) (l : Ledger) :
    Effect l (l.commitTaxed direction rate).1 := by
  rw [commitTaxed]
  split
  · exact .nothing rfl rfl rfl (.inl rfl)
  · dsimp only
    split
    · next line _ =>
      exact .replace ⟨line.id, l.input, _, _⟩ (Line.agrees_taxed line.id l.input _ direction)
        rfl rfl rfl rfl
    · exact .append ⟨l.nextId, l.input, _, _⟩ (Line.agrees_taxed l.nextId l.input _ direction)
        rfl rfl rfl rfl rfl

theorem effect_select (id : Nat) (l : Ledger) : Effect l (l.select id).1 := by
  rw [select]
  split <;> exact .nothing rfl rfl rfl (.inl rfl)

theorem effect_retract (l : Ledger) : Effect l l.retract := by
  rw [retract]
  split
  · exact effect_edit [] l
  · split
    · exact .nothing rfl rfl rfl (.inl rfl)
    · dsimp only
      split <;> exact .drop List.dropLast List.dropLast_sublist rfl rfl rfl rfl

theorem effect_turnTo (index : Nat) (l : Ledger) : Effect l (l.turnTo index).1 := by
  rw [turnTo]
  split
  · next hindex => exact .nothing rfl rfl rfl (.inr hindex)
  · exact .nothing rfl rfl rfl (.inl rfl)

theorem effect_previousPage (l : Ledger) : Effect l l.previousPage.1 := by
  rw [previousPage]
  split
  · exact .nothing rfl rfl rfl (.inl rfl)
  · exact effect_turnTo _ l

theorem effect_undo (l : Ledger) : Effect l l.undo.1 := by
  rw [undo]
  split
  · exact .nothing rfl rfl rfl (.inl rfl)
  · next pages rest h =>
    dsimp only
    split <;> exact .restore h rfl rfl

/-- **Each operation has one of the effects.** -/
theorem effect_after (l : Ledger) (op : Operation) : Effect l (l.after op) := by
  cases op with
  | edit t => exact effect_edit t l
  | insert position t => exact effect_edit _ l
  | erase position => exact effect_erase position l
  | commit => exact effect_commit l
  | commitTaxed direction rate => exact effect_commitTaxed direction rate l
  | select id => exact effect_select id l
  | deselect => exact .nothing rfl rfl rfl (.inl rfl)
  | retract => exact effect_retract l
  | wipe => exact .drop (fun _ => []) List.nil_sublist rfl rfl rfl rfl
  | turnTo index => exact effect_turnTo index l
  | nextPage => exact effect_turnTo _ l
  | previousPage => exact effect_previousPage l
  | undo => exact effect_undo l
  | turnGst on => exact .nothing rfl rfl rfl (.inl rfl)

/-- **An operation makes no pages up**: what is among the snapshots after it were the pages before
it, or were among the snapshots before it. -/
theorem Effect.mem_of_mem_snapshots {l l' : Ledger} (h : Effect l l') {pages : List Page}
    (hpages : pages ∈ l'.snapshots) : pages ∈ l.pages :: l.snapshots := by
  have hmore : l'.snapshots = l.snapshot.snapshots → pages ∈ l.pages :: l.snapshots := by
    intro hs
    rw [hs] at hpages
    exact List.mem_of_mem_take hpages
  rcases h with ⟨-, hs, -⟩ | ⟨-, -, -, hs, -⟩ | ⟨-, -, -, hs, -⟩ | ⟨-, -, -, -, hs, -⟩ |
    ⟨-, -, -, hs, -⟩ | ⟨hs, -⟩
  · exact List.mem_cons_of_mem l.pages (hs ▸ hpages)
  · exact List.mem_cons_of_mem l.pages (hs ▸ hpages)
  · exact hmore hs
  · exact hmore hs
  · exact hmore hs
  · rw [hs]
    exact List.mem_cons_of_mem l.pages (List.mem_cons_of_mem l'.pages hpages)

/-! ### Lines that are kept -/

/-- Every line that the ledger keeps has a property, in the snapshots too. -/
def AllLines (P : Line → Prop) (l : Ledger) : Prop :=
  ∀ pages ∈ l.pages :: l.snapshots, ∀ page ∈ pages, ∀ line ∈ page, P line

/-- An empty ledger keeps no lines. -/
theorem allLines_blank (P : Line → Prop) (pageCount : Nat) (rate : Float) :
    (blank pageCount rate).AllLines P := by
  intro pages hpages page hpage line hline
  obtain rfl : pages = List.replicate (max pageCount 1) [] := List.mem_singleton.1 hpages
  obtain rfl : page = [] := List.eq_of_mem_replicate hpage
  exact absurd hline (by simp)

/-! ### Histories -/

theorem afterAll_concat (l : Ledger) (history : List Operation) (op : Operation) :
    l.afterAll (history ++ [op]) = (l.afterAll history).after op :=
  afterAll_append l history [op]

/-- Operations lead from reachable ledgers to reachable ones. -/
theorem Reachable.after {l : Ledger} (h : l.Reachable) (op : Operation) :
    (l.after op).Reachable := by
  obtain ⟨pageCount, rate, history, rfl⟩ := h
  exact ⟨pageCount, rate, history ++ [op], (afterAll_concat _ history op).symm⟩

/-- What operations preserve, histories preserve. -/
theorem afterAll_of_step {P : Ledger → Prop} (hstep : ∀ l op, P l → P (l.after op)) {l : Ledger}
    (hl : P l) (history : List Operation) : P (l.afterAll history) := by
  induction history generalizing l with
  | nil => exact hl
  | cons op history ih => exact ih (hstep l op hl)

theorem Reachable.afterAll {l : Ledger} (h : l.Reachable) (history : List Operation) :
    (l.afterAll history).Reachable :=
  afterAll_of_step (fun _ op hl => hl.after op) h history

/-- **What the blank ledgers have and operations preserve, all reachable ledgers have.** -/
theorem of_reachable {P : Ledger → Prop} (hblank : ∀ pageCount rate, P (blank pageCount rate))
    (hstep : ∀ l op, P l → P (l.after op)) {l : Ledger} (h : l.Reachable) : P l := by
  obtain ⟨pageCount, rate, history, rfl⟩ := h
  exact afterAll_of_step hstep (hblank pageCount rate) history

end Ledger

end RunningTab
