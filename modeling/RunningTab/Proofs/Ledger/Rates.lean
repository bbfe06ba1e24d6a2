import RunningTab.Proofs.Ledger.Effect

/-!
# How lines are written

An operation writes a line in two ways only: worked out from its text without a tax, or with a tax
at the rate that it was given, the default rate if it was given none. So what all lines of these two
kinds have, every line of the ledger keeps having (`RunningTab.Ledger.forall_lines_after`). In
particular the rates of a history are the rates of its lines
(`RunningTab.Ledger.rated_afterAll`): where none but rates of a kind are asked for, all taxed lines
are at rates of this kind.
-/

namespace RunningTab.Ledger

/-! ### Lines that are kept -/

section

variable {P : Line → Prop} {l : Ledger}

/-- Every line on the pages has a property. -/
def PageLines (P : Line → Prop) (l : Ledger) : Prop :=
  ∀ page ∈ l.pages, ∀ line ∈ page, P line

theorem PageLines.edit (h : l.PageLines P) (hplain : ∀ id t, P ⟨id, t, Expr.evaluate t, none⟩)
    (t : Text) : (l.edit t).PageLines P := by
  rw [Ledger.edit]
  split
  · next edited _ =>
    refine forall_mem_modify h l.current (fun _ hp => hp) fun page hpage line hline => ?_
    rw [Page.amend_congr (g := fun _ => ⟨edited.id, t, Expr.evaluate t, none⟩)
      (fun old hold => by rw [hold]) page] at hline
    have hcases : line = ⟨edited.id, t, Expr.evaluate t, none⟩ ∨ line ∈ page := Page.mem_amend hline
    rcases hcases with rfl | hmem
    · exact hplain edited.id t
    · exact hpage line hmem
  · exact h

theorem PageLines.append (h : l.PageLines P) {new : Line} (hnew : P new) :
    ∀ page ∈ l.pages.modify l.current (· ++ [new]), ∀ line ∈ page, P line := by
  refine forall_mem_modify h l.current (fun _ hp => hp) fun page hpage line hline => ?_
  rcases List.mem_append.1 hline with hmem | hmem
  · exact hpage line hmem
  · rw [List.mem_singleton.1 hmem]
    exact hnew

theorem PageLines.commit (h : l.PageLines P) (hplain : ∀ id t, P ⟨id, t, Expr.evaluate t, none⟩) :
    l.commit.1.PageLines P := by
  rw [Ledger.commit]
  split
  · exact h
  · split
    · exact h
    · exact h.append (hplain l.nextId l.input)

/-- A line with tax, as a commit writes it. -/
def taxedLine (id : Nat) (t : Text) (rate : Float) (direction : TaxDirection) : Line :=
  ⟨id, t, (withTax (Expr.evaluate t) rate direction).1,
    some ⟨direction, (withTax (Expr.evaluate t) rate direction).2⟩⟩

theorem PageLines.commitTaxed (h : l.PageLines P) {direction : TaxDirection} {rate : Option Float}
    (htaxed : ∀ id t, P (taxedLine id t (rate.getD l.defaultRate) direction)) :
    (l.commitTaxed direction rate).1.PageLines P := by
  rw [Ledger.commitTaxed]
  split
  · exact h
  · dsimp only
    split
    · next edited _ =>
      refine forall_mem_modify h l.current (fun _ hp => hp) fun page hpage line hline => ?_
      have hcases : line = taxedLine edited.id l.input (rate.getD l.defaultRate) direction ∨
          line ∈ page :=
        Page.mem_amend hline
      rcases hcases with rfl | hmem
      · exact htaxed edited.id l.input
      · exact hpage line hmem
    · exact h.append (htaxed l.nextId l.input)

theorem PageLines.retract (h : l.PageLines P)
    (hplain : ∀ id t, P ⟨id, t, Expr.evaluate t, none⟩) : l.retract.PageLines P := by
  have hdrop : ∀ page ∈ l.pages.modify l.current List.dropLast, ∀ line ∈ page, P line :=
    forall_mem_modify h l.current (fun _ hp => hp) fun page hpage line hline =>
      hpage line (List.dropLast_subset page hline)
  rw [Ledger.retract]
  split
  · exact h.edit hplain []
  · split
    · exact h
    · dsimp only
      split <;> exact hdrop

theorem PageLines.turnTo (h : l.PageLines P) (index : Nat) : (l.turnTo index).1.PageLines P := by
  rw [Ledger.turnTo]
  split <;> exact h

/-- **A property of all lines that an operation can write is kept by it.** -/
theorem forall_lines_after (h : l.AllLines P) (op : Operation)
    (hplain : ∀ id t, P ⟨id, t, Expr.evaluate t, none⟩)
    (htaxed : ∀ direction rate, op = .commitTaxed direction rate →
      ∀ id t, P (taxedLine id t (rate.getD l.defaultRate) direction)) :
    (l.after op).AllLines P := by
  have hpages : l.PageLines P := h l.pages List.mem_cons_self
  refine List.forall_mem_cons.2
    ⟨?_, fun pages hmem => h pages ((effect_after l op).mem_of_mem_snapshots hmem)⟩
  change (l.after op).PageLines P
  cases op with
  | edit t => exact hpages.edit hplain t
  | insert position t => exact hpages.edit hplain _
  | erase position =>
    change (l.erase position).1.PageLines P
    rw [erase]
    split
    · exact hpages
    · exact hpages.edit hplain _
  | commit => exact hpages.commit hplain
  | commitTaxed direction rate => exact hpages.commitTaxed (htaxed direction rate rfl)
  | select id =>
    change (l.select id).1.PageLines P
    rw [select]
    split <;> exact hpages
  | deselect => exact hpages
  | retract => exact hpages.retract hplain
  | wipe =>
    exact forall_mem_modify hpages l.current (fun _ hp => hp) fun _ _ line hline =>
      absurd hline (by simp)
  | turnTo index => exact hpages.turnTo index
  | nextPage => exact hpages.turnTo _
  | previousPage =>
    change l.previousPage.1.PageLines P
    rw [previousPage]
    split
    · exact hpages
    · exact hpages.turnTo _
  | undo =>
    change l.undo.1.PageLines P
    rw [undo]
    split
    · exact hpages
    · next pages rest hsnapshots =>
      have hold : ∀ page ∈ pages, ∀ line ∈ page, P line :=
        h pages (List.mem_cons_of_mem l.pages (hsnapshots ▸ List.mem_cons_self))
      dsimp only
      split <;> exact hold
  | turnGst on => exact hpages

end

/-! ### Rates -/

/-- A rate that an operation is given is of a kind. -/
def Operation.AtRate (R : Float → Prop) : Operation → Prop
  | .commitTaxed _ (some rate) => R rate
  | _ => True

theorem Operation.AtRate.mono {R R' : Float → Prop} {op : Operation} (h : op.AtRate R)
    (hR : ∀ rate, R rate → R' rate) : op.AtRate R' := by
  cases op with
  | commitTaxed direction rate =>
    cases rate with
    | none => trivial
    | some rate => exact hR rate h
  | _ => trivial

/-- A line agrees with its text, and a tax on it is at a rate of a kind. -/
def Rated (R : Float → Prop) (line : Line) : Prop :=
  line.Agrees ∧ ∀ tax ∈ line.tax, R tax.breakdown.rate

/-- The default rate stays. -/
theorem defaultRate_after (l : Ledger) (op : Operation) :
    (l.after op).defaultRate = l.defaultRate := by
  have hedit : ∀ t, (l.edit t).defaultRate = l.defaultRate := by
    intro t
    rw [edit]
    split <;> rfl
  have hturnTo : ∀ index, (l.turnTo index).1.defaultRate = l.defaultRate := by
    intro index
    rw [turnTo]
    split <;> rfl
  cases op with
  | edit t => exact hedit t
  | insert position t => exact hedit _
  | erase position =>
    change (l.erase position).1.defaultRate = _
    rw [erase]
    split
    · rfl
    · exact hedit _
  | commit =>
    change l.commit.1.defaultRate = _
    rw [commit]
    split
    · rfl
    · split <;> rfl
  | commitTaxed direction rate =>
    change (l.commitTaxed direction rate).1.defaultRate = _
    rw [commitTaxed]
    split
    · rfl
    · dsimp only
      split <;> rfl
  | select id =>
    change (l.select id).1.defaultRate = _
    rw [select]
    split <;> rfl
  | deselect => rfl
  | retract =>
    change l.retract.defaultRate = _
    rw [retract]
    split
    · exact hedit []
    · split
      · rfl
      · dsimp only
        split <;> rfl
  | wipe => rfl
  | turnTo index => exact hturnTo index
  | nextPage => exact hturnTo _
  | previousPage =>
    change l.previousPage.1.defaultRate = _
    rw [previousPage]
    split
    · rfl
    · exact hturnTo _
  | undo =>
    change l.undo.1.defaultRate = _
    rw [undo]
    split
    · rfl
    · dsimp only
      split <;> rfl
  | turnGst on => rfl

/-- A taxed line is at the rate it is written with. -/
theorem rated_taxedLine {R : Float → Prop} {rate : Float} (h : R rate) (id : Nat) (t : Text)
    (direction : TaxDirection) : Rated R (taxedLine id t rate direction) := by
  refine ⟨Line.agrees_taxed id t rate direction, fun tax htax => ?_⟩
  obtain rfl := Option.mem_some_iff.1 htax
  cases direction <;> exact h

/-- **The rates of a history are the rates of its lines.** -/
theorem rated_afterAll {R : Float → Prop} {l : Ledger} (hdefault : R l.defaultRate)
    (hl : l.AllLines (Rated R)) {history : List Operation}
    (hrates : ∀ op ∈ history, op.AtRate R) : (l.afterAll history).AllLines (Rated R) := by
  induction history generalizing l with
  | nil => exact hl
  | cons op history ih =>
    obtain ⟨hop, hrest⟩ := List.forall_mem_cons.1 hrates
    refine ih (by rw [defaultRate_after]; exact hdefault) (forall_lines_after hl op ?_ ?_) hrest
    · exact fun id t => ⟨Line.agrees_plain id t, fun tax htax => absurd htax (by simp)⟩
    · rintro direction rate rfl id t
      refine rated_taxedLine ?_ id t direction
      cases rate with
      | none => exact hdefault
      | some rate => exact hop

end RunningTab.Ledger
