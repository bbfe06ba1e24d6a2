import Mathlib.Data.List.Basic
import RunningTab.Proofs.Ledger.Selection
import RunningTab.Proofs.Ledger.Undoing

/-!
# The identity of lines

An identifier is one line's for good. What an operation does to the identifiers of the pages is one
of three things (`RunningTab.Ledger.Effect.identifiers`): some of the current page go, the next one
comes at the end of the current page, or the latest snapshot comes back. So no two pages ever share
an identifier (`RunningTab.Ledger.apart_of_reachable`), and what is kept anywhere, on the pages or
in a snapshot, was handed out once (`RunningTab.Ledger.kept_afterAll`).

That undo brings old pages back while the next identifier stays is what makes the last point a
statement about runs and not about ledgers: the identifiers that a history hands out
(`RunningTab.Ledger.handedOut`) are consecutive, however many lines were dropped and however many
undos came between (`RunningTab.Ledger.handedOut_eq_range'`). All of it is put together in
`RunningTab.Ledger.identity_afterAll`.
-/

namespace RunningTab

/-! ### Pages apart -/

/-- Two pages have no identifier in common. -/
def Page.Apart (p q : Page) : Prop :=
  ∀ id ∈ p.map Line.id, id ∉ q.map Line.id

/-- A relation between any two pages survives a change of one that keeps it on either side. -/
theorem pairwise_modify {Q : Page → Prop} {r : Page → Page → Prop} {pages : List Page}
    (hQ : ∀ page ∈ pages, Q page) (h : pages.Pairwise r) (i : Nat) {f : Page → Page}
    (hleft : ∀ p q, Q q → r p q → r (f p) q) (hright : ∀ p q, Q p → r p q → r p (f q)) :
    (pages.modify i f).Pairwise r := by
  induction pages generalizing i with
  | nil =>
    rw [List.modify_nil]
    exact List.Pairwise.nil
  | cons page pages ih =>
    obtain ⟨hpage, hpages⟩ := List.forall_mem_cons.1 hQ
    obtain ⟨hfirst, hrest⟩ := List.pairwise_cons.1 h
    cases i with
    | zero =>
      rw [List.modify_zero_cons]
      exact List.pairwise_cons.2 ⟨fun q hq => hleft page q (hpages q hq) (hfirst q hq), hrest⟩
    | succ i =>
      rw [List.modify_succ_cons]
      refine List.pairwise_cons.2 ⟨?_, ih hpages hrest i⟩
      exact forall_mem_modify hfirst i (fun _ hq => hq) fun q hq => hright page q hpage hq

namespace Ledger

variable {l l' : Ledger}

/-! ### What an operation does to the identifiers -/

/-- **The identifiers after an operation**: some of the current page are gone, or the next one has
come at its end, or the latest snapshot is back. -/
theorem Effect.identifiers (h : Effect l l') :
    (∃ f : Page → Page, l'.pages = l.pages.modify l.current f ∧
      (∀ p, ((f p).map Line.id).Sublist (p.map Line.id)) ∧ l'.nextId = l.nextId) ∨
    (∃ f : Page → Page, l'.pages = l.pages.modify l.current f ∧
      (∀ p, (f p).map Line.id = p.map Line.id ++ [l.nextId]) ∧ l'.nextId = l.nextId + 1) ∨
    (l.snapshots = l'.pages :: l'.snapshots ∧ l'.nextId = l.nextId) := by
  have hamend : ∀ (new : Line) (p : Page),
      ((p.amend new.id fun _ => new).map Line.id).Sublist (p.map Line.id) := by
    intro new p
    rw [Page.map_id_amend]
  rcases h with ⟨hp, -, hn, -⟩ | ⟨new, -, hp, -, hn, -⟩ | ⟨new, -, hp, -, hn, -⟩ |
    ⟨new, -, hid, hp, -, hn, -⟩ | ⟨f, hf, hp, -, hn, -⟩ | ⟨hs, hn, -⟩
  · exact Or.inl ⟨id, by rw [hp, List.modify_id], fun p => List.Sublist.refl _, hn⟩
  · exact Or.inl ⟨_, hp, hamend new, hn⟩
  · exact Or.inl ⟨_, hp, hamend new, hn⟩
  · exact Or.inr (Or.inl ⟨_, hp, fun p => by simp [hid], hn⟩)
  · exact Or.inl ⟨f, hp, fun p => (hf p).map Line.id, hn⟩
  · exact Or.inr (Or.inr ⟨hs, hn⟩)

/-- What the blank ledgers have and operations on reachable ledgers preserve, all reachable ledgers
have. -/
theorem Reachable.induction {P : Ledger → Prop}
    (hblank : ∀ pageCount rate, P (blank pageCount rate))
    (hstep : ∀ l op, l.Reachable → P l → P (l.after op)) (h : l.Reachable) : P l := by
  refine (of_reachable (P := fun l => l.Reachable ∧ P l) (fun pageCount rate => ?_)
    (fun l op hl => ?_) h).2
  · exact ⟨⟨pageCount, rate, [], rfl⟩, hblank pageCount rate⟩
  · exact ⟨hl.1.after op, hstep l op hl.1 hl.2⟩

/-- There are always as many pages as at the start. -/
theorem length_pages_after (hl : l.Numbered) (op : Operation) :
    (l.after op).pages.length = l.pages.length := by
  rcases (effect_after l op).identifiers with ⟨f, hp, -⟩ | ⟨f, hp, -⟩ | ⟨hs, -⟩
  · rw [hp, List.length_modify]
  · rw [hp, List.length_modify]
  · refine hl.length_eq _ ?_
    rw [hs]
    exact List.mem_cons_self

/-! ### Distinct identifiers -/

/-- No two pages that a ledger keeps side by side have an identifier in common. -/
def AllApart (l : Ledger) : Prop :=
  ∀ pages ∈ l.pages :: l.snapshots, pages.Pairwise Page.Apart

/-- Pages stay apart if the current one gets no identifiers but the next one. -/
theorem pairwise_apart_modify (hl : l.Numbered) (hapart : l.pages.Pairwise Page.Apart)
    {f : Page → Page}
    (hf : ∀ p : Page, ∀ id ∈ (f p).map Line.id, id ∈ p.map Line.id ∨ id = l.nextId) :
    (l.pages.modify l.current f).Pairwise Page.Apart := by
  refine pairwise_modify (hl.increasing l.pages List.mem_cons_self) hapart l.current ?_ ?_
  · intro p q hq hpq id hid hmem
    rcases hf p id hid with hold | rfl
    · exact hpq id hold hmem
    · exact Nat.lt_irrefl _ (hq.2 l.nextId hmem)
  · intro p q hp hpq id hid hmem
    rcases hf q id hmem with hold | rfl
    · exact hpq id hid hold
    · exact Nat.lt_irrefl _ (hp.2 l.nextId hid)

/-- **Operations keep the pages apart.** -/
theorem AllApart.after (hl : l.Numbered) (h : l.AllApart) (op : Operation) :
    (l.after op).AllApart := by
  have heffect := effect_after l op
  have hpages : l.pages.Pairwise Page.Apart := h l.pages List.mem_cons_self
  refine List.forall_mem_cons.2 ⟨?_, fun pages hmem => h pages (heffect.mem_of_mem_snapshots hmem)⟩
  rcases heffect.identifiers with ⟨f, hp, hf, -⟩ | ⟨f, hp, hf, -⟩ | ⟨hs, -⟩
  · rw [hp]
    exact pairwise_apart_modify hl hpages fun p id hid => Or.inl ((hf p).subset hid)
  · rw [hp]
    refine pairwise_apart_modify hl hpages fun p id hid => ?_
    rw [hf, List.mem_append, List.mem_singleton] at hid
    exact hid
  · refine h _ (List.mem_cons_of_mem l.pages ?_)
    rw [hs]
    exact List.mem_cons_self

/-- **In every reachable ledger no two pages share an identifier**, also in the snapshots. -/
theorem apart_of_reachable (h : l.Reachable) : l.AllApart := by
  refine h.induction (fun pageCount rate => ?_)
    fun l op hl hapart => hapart.after (numbered_of_reachable hl) op
  intro pages hpages
  obtain rfl : pages = List.replicate (max pageCount 1) [] := List.mem_singleton.1 hpages
  exact List.pairwise_replicate.2 (Or.inr fun id hid => absurd hid (by simp))

/-! ### The selected line -/

/-- The selected identifier, if there is one, is that of a line of the current page. -/
def SelectsLine (l : Ledger) : Prop :=
  ∀ id, l.selected = some id → id ∈ l.page.map Line.id

theorem selectsLine_of_none (h : l.selected = none) : l.SelectsLine := by
  intro id hid
  rw [h] at hid
  exact absurd hid (by simp)

/-- A line that is found by an identifier has it. -/
theorem id_of_line? {p : Page} {id : Nat} {line : Line} (h : p.line? id = some line) :
    line.id = id := by
  simpa using List.find?_some h

theorem mem_of_line? {p : Page} {id : Nat} {line : Line} (h : p.line? id = some line) :
    id ∈ p.map Line.id := by
  rw [← id_of_line? h]
  exact List.mem_map_of_mem (List.mem_of_find?_eq_some h)

/-- The edited line keeps its identifier, so an edit keeps those of the page. -/
theorem SelectsLine.edit (hl : l.Numbered) (h : l.SelectsLine) (t : Text) :
    (l.edit t).SelectsLine := by
  rw [Ledger.edit]
  split
  · next line _ =>
    intro id hid
    rw [page_onPage (l := { l with input := t }) hl.current_lt,
      Page.amend_congr (g := fun _ => ⟨line.id, t, Expr.evaluate t, none⟩)
        (fun old hold => by rw [hold]) _]
    rw [Page.map_id_amend ⟨line.id, t, Expr.evaluate t, none⟩]
    exact h id hid
  · exact h

/-- If the last line was selected, nothing is when it is gone. -/
theorem SelectsLine.retract (hl : l.Numbered) (h : l.SelectsLine) : l.retract.SelectsLine := by
  rw [Ledger.retract]
  split
  · exact h.edit hl []
  · split
    · exact h
    · next last hlast =>
      dsimp only
      split
      · exact selectsLine_of_none rfl
      · next hother =>
        intro id hid
        have hpage : (l.snapshot.onPage List.dropLast).page = l.page.dropLast :=
          page_onPage (l := l.snapshot) hl.current_lt List.dropLast
        have hmem : id ∈ l.page.map Line.id := h id hid
        have hne : id ≠ last.id := by
          rintro rfl
          exact hother hid
        rw [← List.dropLast_append_getLast? last hlast, List.map_append, List.mem_append] at hmem
        rw [hpage]
        rcases hmem with hmem | hmem
        · exact hmem
        · exact absurd (List.mem_singleton.1 hmem) hne

/-- A selection is kept over an undo only if its line is there again. -/
theorem selectsLine_undo (h : l.SelectsLine) : l.undo.1.SelectsLine := by
  rw [undo]
  split
  · exact h
  · dsimp only
    split
    · next pages rest _ hsome =>
      intro id hid
      obtain ⟨line, hline⟩ := Option.isSome_iff_exists.1 hsome
      rw [editedLine?, show Ledger.selected _ = some id from hid, Option.bind_some] at hline
      exact mem_of_line? hline
    · exact selectsLine_of_none rfl

theorem selectsLine_turnTo (h : l.SelectsLine) (index : Nat) : (l.turnTo index).1.SelectsLine := by
  rw [turnTo]
  split
  · exact selectsLine_of_none rfl
  · exact h

/-- **Operations keep the selection on the current page.** -/
theorem SelectsLine.after (hl : l.Numbered) (h : l.SelectsLine) (op : Operation) :
    (l.after op).SelectsLine := by
  cases op with
  | edit t => exact h.edit hl t
  | insert position t => exact h.edit hl _
  | erase position =>
    change (l.erase position).1.SelectsLine
    rw [erase]
    split
    · exact h
    · exact h.edit hl _
  | commit =>
    change l.commit.1.SelectsLine
    rcases commit_eq_or l with heq | ⟨id, -, hnone⟩
    · rw [heq]
      exact h
    · exact selectsLine_of_none hnone
  | commitTaxed direction rate =>
    change (l.commitTaxed direction rate).1.SelectsLine
    rcases commitTaxed_eq_or direction rate l with heq | ⟨id, -, hnone⟩
    · rw [heq]
      exact h
    · exact selectsLine_of_none hnone
  | select id =>
    change (l.select id).1.SelectsLine
    rw [select]
    split
    · next line hline =>
      intro id' hid
      obtain rfl : id = id' := Option.some.inj hid
      exact mem_of_line? hline
    · exact h
  | deselect => exact selectsLine_of_none rfl
  | retract => exact h.retract hl
  | wipe => exact selectsLine_of_none rfl
  | turnTo index => exact selectsLine_turnTo h index
  | nextPage => exact selectsLine_turnTo h _
  | previousPage =>
    change l.previousPage.1.SelectsLine
    rw [previousPage]
    split
    · exact h
    · exact selectsLine_turnTo h _
  | undo => exact selectsLine_undo h
  | turnGst on => exact h

theorem selectsLine_of_reachable (h : l.Reachable) : l.SelectsLine :=
  h.induction (fun _ _ => selectsLine_of_none rfl)
    fun _ op hl hselects => hselects.after (numbered_of_reachable hl) op

/-! ### Identifiers handed out -/

/-- **The line that an operation appends**: the one behind the last line of the page that was looked
at. What an undo puts there is no new line. -/
def appended? (l : Ledger) (op : Operation) : Option Line :=
  if op.isUndo then none else ((l.after op).pages.getD l.current [])[l.page.length]?

/-- **The identifiers that a history hands out** to new lines, in order. -/
def handedOut (l : Ledger) : List Operation → List Nat
  | [] => []
  | op :: history => ((l.appended? op).map Line.id).toList ++ (l.after op).handedOut history

/-- Only an undo restores a snapshot. -/
theorem not_restore {op : Operation} (hl : l.Reachable) (hop : op.isUndo = false) :
    l.snapshots ≠ (l.after op).pages :: (l.after op).snapshots := by
  intro h
  have hle : l.snapshots.length ≤ 50 := length_snapshots_le hl
  have hlength := congrArg List.length h
  rw [List.length_cons, snapshots_after hop] at hlength
  split at hlength
  · rw [pushed, List.length_take, List.length_cons, snapshotLimit] at hlength
    omega
  · omega

theorem nextId_undo (l : Ledger) : l.undo.1.nextId = l.nextId := by
  rw [undo]
  split
  · rfl
  · dsimp only
    split <;> rfl

/-- **An appended line has the next identifier**, which is then used up; nothing else uses it up. -/
theorem appended?_cases (hl : l.Reachable) (op : Operation) :
    (∃ new, l.appended? op = some new ∧ new.id = l.nextId ∧
        (l.after op).nextId = l.nextId + 1) ∨
      l.appended? op = none ∧ (l.after op).nextId = l.nextId := by
  rw [appended?]
  cases hop : op.isUndo with
  | true =>
    obtain rfl : op = .undo := Operation.eq_undo hop
    exact Or.inr ⟨rfl, nextId_undo l⟩
  | false =>
    have hpage : ∀ f : Page → Page,
        (l.pages.modify l.current f).getD l.current [] = f l.page := fun f =>
      page_onPage (numbered_of_reachable hl).current_lt f
    rw [if_neg Bool.false_ne_true]
    rcases (effect_after l op).identifiers with ⟨f, hp, hf, hn⟩ | ⟨f, hp, hf, hn⟩ | ⟨hs, -⟩
    · have hle : (f l.page).length ≤ l.page.length := by
        simpa using (hf l.page).length_le
      exact Or.inr ⟨by rw [hp, hpage, List.getElem?_eq_none hle], hn⟩
    · have hmap : ((f l.page)[l.page.length]?).map Line.id = some l.nextId := by
        rw [← List.getElem?_map, hf]
        simp
      obtain ⟨new, hnew, hid⟩ := Option.map_eq_some_iff.1 hmap
      exact Or.inl ⟨new, by rw [hp, hpage, hnew], hid, hn⟩
    · exact absurd hs (not_restore hl hop)

/-- **What a history hands out is consecutive**, from the next identifier before it to the one after
it. -/
theorem handedOut_eq_range' (hl : l.Reachable) (history : List Operation) :
    ∃ n, (l.afterAll history).nextId = l.nextId + n ∧
      l.handedOut history = List.range' l.nextId n := by
  induction history generalizing l with
  | nil => exact ⟨0, rfl, rfl⟩
  | cons op history ih =>
    obtain ⟨n, hn, hrange⟩ := ih (hl.after op)
    rw [handedOut, hrange]
    change ∃ m, ((l.after op).afterAll history).nextId = l.nextId + m ∧ _
    rcases appended?_cases hl op with ⟨new, happended, hid, hnext⟩ | ⟨happended, hnext⟩
    · refine ⟨n + 1, by omega, ?_⟩
      rw [happended, hnext, Option.map_some, hid, List.range'_succ]
      rfl
    · refine ⟨n, by omega, ?_⟩
      rw [happended, hnext]
      rfl

/-! ### Identifiers kept -/

/-- A line of an identifier is kept, on a page or in a snapshot. -/
def Keeps (l : Ledger) (id : Nat) : Prop :=
  ∃ pages ∈ l.pages :: l.snapshots, ∃ page ∈ pages, id ∈ page.map Line.id

/-- What is kept after an operation was kept before it, or the operation handed it out. -/
theorem Keeps.of_after (hl : l.Reachable) {op : Operation} {id : Nat} (h : (l.after op).Keeps id) :
    l.Keeps id ∨ id ∈ (l.appended? op).map Line.id := by
  have heffect := effect_after l op
  obtain ⟨pages, hpages, page, hpage, hid⟩ := h
  rcases List.mem_cons.1 hpages with rfl | hmem
  · have hold : ∀ page ∈ l.pages, ∀ id ∈ page.map Line.id, l.Keeps id := fun page hpage id hid =>
      ⟨l.pages, List.mem_cons_self, page, hpage, hid⟩
    rcases heffect.identifiers with ⟨f, hp, hf, -⟩ | ⟨f, hp, hf, hn⟩ | ⟨hs, -⟩
    · rw [hp] at hpage
      exact Or.inl (forall_mem_modify hold l.current (fun _ h => h)
        (fun p h id hid => h id ((hf p).subset hid)) page hpage id hid)
    · -- the next identifier has been used up, so it was handed out
      have hnew : l.nextId ∈ (l.appended? op).map Line.id := by
        rcases appended?_cases hl op with ⟨new, happended, hnextId, -⟩ | ⟨-, hsame⟩
        · rw [happended, Option.map_some, hnextId]
          rfl
        · omega
      rw [hp] at hpage
      refine forall_mem_modify (R := fun page => ∀ id ∈ page.map Line.id,
        l.Keeps id ∨ id ∈ (l.appended? op).map Line.id) hold l.current
        (fun _ h id hid => Or.inl (h id hid)) (fun p h id hid => ?_) page hpage id hid
      rw [hf, List.mem_append, List.mem_singleton] at hid
      rcases hid with hid | rfl
      · exact Or.inl (h id hid)
      · exact Or.inr hnew
    · exact Or.inl ⟨_, List.mem_cons_of_mem l.pages (hs ▸ List.mem_cons_self), page, hpage, hid⟩
  · exact Or.inl ⟨pages, heffect.mem_of_mem_snapshots hmem, page, hpage, hid⟩

/-- **What is kept was kept at the start or handed out since.** -/
theorem kept_afterAll (hl : l.Reachable) (history : List Operation) {id : Nat}
    (h : (l.afterAll history).Keeps id) : l.Keeps id ∨ id ∈ l.handedOut history := by
  induction history generalizing l with
  | nil => exact Or.inl h
  | cons op history ih =>
    rw [handedOut, List.mem_append, Option.mem_toList]
    rcases ih (hl.after op) h with hkept | hout
    · exact (hkept.of_after hl).imp (fun hold => hold) Or.inl
    · exact Or.inr (Or.inr hout)

/-! ### Every run -/

/-- **What a run leaves of the identities of lines**: `pageCount` is the number of pages that were
asked for, `out` the identifiers that were handed out, the first one first. -/
structure Identified (pageCount : Nat) (out : List Nat) (l : Ledger) : Prop where
  count : ∀ pages ∈ l.pages :: l.snapshots, pages.length = max pageCount 1
  /-- No two pages share an identifier. -/
  apart : ∀ pages ∈ l.pages :: l.snapshots, pages.Pairwise Page.Apart
  increasing : ∀ pages ∈ l.pages :: l.snapshots, ∀ page ∈ pages,
    (page.map Line.id).Pairwise (· < ·)
  lt_nextId : ∀ pages ∈ l.pages :: l.snapshots, ∀ page ∈ pages, ∀ id ∈ page.map Line.id,
    id < l.nextId
  mem_out : ∀ pages ∈ l.pages :: l.snapshots, ∀ page ∈ pages, ∀ id ∈ page.map Line.id, id ∈ out
  current_lt : l.current < l.pages.length
  /-- A selected line is one of the page that is looked at. -/
  selects : ∀ id, l.selected = some id → id ∈ l.page.map Line.id
  snapshots_le : l.snapshots.length ≤ 50
  /-- An identifier is greater than those handed out before it. -/
  out_increasing : out.Pairwise (· < ·)

section

variable (pageCount : Nat) (rate : Float) (history : List Operation)

theorem length_pages_afterAll :
    ((blank pageCount rate).afterAll history).pages.length = max pageCount 1 := by
  refine (afterAll_of_step (P := fun l => l.Reachable ∧ l.pages.length = max pageCount 1)
    (fun l op hl => ⟨hl.1.after op, ?_⟩) ⟨⟨pageCount, rate, [], rfl⟩, List.length_replicate⟩
    history).2
  rw [length_pages_after (numbered_of_reachable hl.1), hl.2]

/-- A blank ledger keeps no lines. -/
theorem not_keeps_blank (id : Nat) : ¬(blank pageCount rate).Keeps id := by
  rintro ⟨pages, hpages, page, hpage, hid⟩
  obtain ⟨line, hline, -⟩ := List.mem_map.1 hid
  exact allLines_blank (fun _ => False) pageCount rate pages hpages page hpage line hline

/-- **Lines have their identity for good.** After any history from empty pages, the pages and each
snapshot are as many as at the start; the identifiers of a page increase, no two pages share one,
and all are below the next one and were handed out on the way; one of the pages is looked at; a
selected line is one of that page; there are at most fifty snapshots. Each identifier that the
history hands out is greater than those it handed out before. -/
theorem identity_afterAll :
    ((blank pageCount rate).afterAll history).Identified pageCount
      ((blank pageCount rate).handedOut history) := by
  have hblank : (blank pageCount rate).Reachable := ⟨pageCount, rate, [], rfl⟩
  have hl : ((blank pageCount rate).afterAll history).Reachable := ⟨pageCount, rate, history, rfl⟩
  have hnumbered := numbered_of_reachable hl
  refine
    { count := fun pages hpages => ?_
      apart := apart_of_reachable hl
      increasing := fun pages hpages page hpage => (hnumbered.increasing pages hpages page hpage).1
      lt_nextId := fun pages hpages page hpage => (hnumbered.increasing pages hpages page hpage).2
      mem_out := fun pages hpages page hpage id hid => ?_
      current_lt := hnumbered.current_lt
      selects := selectsLine_of_reachable hl
      snapshots_le := length_snapshots_le hl
      out_increasing := ?_ }
  · rw [hnumbered.length_eq_of_mem hpages]
    exact length_pages_afterAll pageCount rate history
  · rcases kept_afterAll hblank history ⟨pages, hpages, page, hpage, hid⟩ with hkept | hout
    · exact absurd hkept (not_keeps_blank pageCount rate id)
    · exact hout
  · obtain ⟨n, -, hrange⟩ := handedOut_eq_range' hblank history
    rw [hrange]
    exact List.pairwise_lt_range'

end

-- a dropped line comes back with its identifier, and the line after that gets one of its own
example :
    (blank 2 18.0).handedOut
      [.edit "1".toList, .commit, .retract, .undo, .nextPage, .edit "2".toList, .commit, .undo,
        .edit "3".toList, .commitTaxed .add none] = [1, 2, 3] := rfl

end Ledger

end RunningTab
