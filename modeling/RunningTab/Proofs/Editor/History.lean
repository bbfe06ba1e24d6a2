import Mathlib.Tactic.SplitIfs
import RunningTab.Proofs.Editor.Redraw
import RunningTab.Proofs.Ledger.Rates

/-!
# The history of an editor

Whatever happens to an editor, its ledger moves by operations of its own: none for most events, one
for what types, commits, picks or turns, two for an undo, which ends the editing as well. The rates
those operations ask for are the rates of the settings, which never change
(`RunningTab.Editor.Follows`). So the ledger of an editor has a history like any other, and what is
known of the histories at some rates is known of the editor with these rates in its settings
(`RunningTab.Editor.exists_history`).
-/

namespace RunningTab.Editor

/-! ### Editors that follow one another -/

/-- **An editor follows another one**: it has its settings, and its ledger comes about by operations
at the rates of these. -/
structure Follows (e e' : Editor) : Prop where
  settings : e'.settings = e.settings
  history : ∃ history : List Ledger.Operation, (∀ op ∈ history, op.AtRate (· ∈ e.settings.rates)) ∧
    e'.ledger = e.ledger.afterAll history

variable {e e' e'' : Editor}

/-- An editor with the same settings and the same ledger. -/
theorem Follows.of_same (hsettings : e'.settings = e.settings) (hledger : e'.ledger = e.ledger) :
    e.Follows e' :=
  ⟨hsettings, [], fun _ hop => absurd hop (by simp), hledger⟩

theorem Follows.refl (e : Editor) : e.Follows e :=
  .of_same rfl rfl

/-- An editor whose ledger has had one operation. -/
theorem Follows.of_operation (op : Ledger.Operation) (hop : op.AtRate (· ∈ e.settings.rates))
    (hsettings : e'.settings = e.settings) (hledger : e'.ledger = e.ledger.after op) :
    e.Follows e' :=
  ⟨hsettings, [op], List.forall_mem_singleton.2 hop, hledger⟩

theorem Follows.trans (h : e.Follows e') (h' : e'.Follows e'') : e.Follows e'' := by
  obtain ⟨hsettings, history, hrates, hledger⟩ := h
  obtain ⟨hsettings', history', hrates', hledger'⟩ := h'
  refine ⟨hsettings'.trans hsettings, history ++ history', ?_, ?_⟩
  · rw [hsettings] at hrates'
    exact List.forall_mem_append.2 ⟨hrates, hrates'⟩
  · rw [hledger', hledger, Ledger.afterAll_append]

/-- What the editor keeps beside its ledger and its settings does not matter. -/
theorem Follows.then_same (h : e.Follows e') (hsettings : e''.settings = e'.settings)
    (hledger : e''.ledger = e'.ledger) : e.Follows e'' :=
  h.trans (.of_same hsettings hledger)

/-! ### Typing and committing -/

theorem follows_insertText (e : Editor) (t : Text) : e.Follows (e.insertText t) :=
  .of_operation (.insert e.cursor t) trivial rfl rfl

theorem follows_erase (e : Editor) (position : Nat) : e.Follows (e.erase position) :=
  .of_operation (.erase position) trivial rfl rfl

theorem follows_delete (e : Editor) : e.Follows e.delete := by
  rw [delete]
  split
  · exact follows_erase e _
  · exact .refl e

theorem follows_paste (e : Editor) (t : Text) : e.Follows (e.paste t) := by
  rw [paste]
  split
  · exact .refl e
  · exact follows_insertText e _

/-- The editor takes over the ledger of a commit, whether there was anything to commit or not. -/
theorem follows_afterCommit {r : Ledger × Option Nat} (op : Ledger.Operation)
    (hop : op.AtRate (· ∈ e.settings.rates)) (hr : r.1 = e.ledger.after op) :
    e.Follows (e.afterCommit r) := by
  rw [afterCommit]
  split
  · exact .of_operation op hop rfl hr
  · exact .of_operation op hop rfl hr

theorem follows_submit (e : Editor) : e.Follows e.submit := by
  rw [submit]
  split
  · exact .of_same rfl rfl
  · split
    · exact .of_operation (.edit []) trivial rfl rfl
    · exact follows_afterCommit .commit trivial rfl

/-- A tax key gives one of the rates of the settings, or none. -/
theorem mem_rates_of_rateOn {slot : Nat} {rate : Float} (h : e.rateOn slot = some (some rate)) :
    rate ∈ e.settings.rates := by
  rw [rateOn] at h
  split at h
  · obtain ⟨rate', hrate', heq⟩ := Option.map_eq_some_iff.1 h
    exact Option.some.inj heq ▸ List.mem_of_getElem? hrate'
  · split at h <;> exact absurd h (by simp)

theorem follows_commitTaxed (e : Editor) (slot : Nat) (direction : TaxDirection) :
    e.Follows (e.commitTaxed slot direction) := by
  rw [commitTaxed]
  split
  · next rate hrate =>
    refine follows_afterCommit (.commitTaxed direction rate) ?_ rfl
    cases rate with
    | none => trivial
    | some rate => exact mem_rates_of_rateOn hrate
  · exact .refl e

/-! ### Picking, turning, clearing -/

theorem follows_release (e : Editor) : e.Follows e.release := by
  rw [release]
  split
  · exact .of_operation .deselect trivial rfl rfl
  · exact .of_same rfl rfl

theorem follows_pick (e : Editor) (index : Nat) : e.Follows (e.pick index) := by
  rw [pick]
  split
  · next line _ => exact .of_operation (.select line.id) trivial rfl rfl
  · exact .refl e

theorem follows_lineUp (e : Editor) : e.Follows e.lineUp := by
  rw [lineUp]
  split
  · exact .refl e
  · exact (follows_pick e _).then_same rfl rfl

theorem follows_lineDown (e : Editor) : e.Follows e.lineDown := by
  rw [lineDown]
  split
  · exact .refl e
  · split
    · exact (follows_pick e _).then_same rfl rfl
    · exact (follows_release e).then_same rfl rfl

theorem follows_turnTo (e : Editor) (index : Nat) : e.Follows (e.turnTo index) :=
  .of_operation (.turnTo index) trivial rfl rfl

/-- An undo of the editor is an undo of the ledger, and the end of the editing. -/
theorem follows_undo (e : Editor) : e.Follows e.undo := by
  rw [undo]
  split
  · refine ⟨rfl, [.undo, .deselect], ?_, rfl⟩
    exact List.forall_mem_cons.2 ⟨trivial, List.forall_mem_singleton.2 trivial⟩
  · exact .refl e

/-! ### Events and frames -/

theorem follows_pressInHelp (e : Editor) (code : KeyCode) : e.Follows (e.pressInHelp code) := by
  unfold pressInHelp
  split <;> exact .of_same rfl rfl

theorem follows_pressControl (e : Editor) (c : Char) : e.Follows (e.pressControl c) := by
  rw [pressControl]
  split_ifs
  · exact .of_same rfl rfl
  · exact .of_operation .retract trivial rfl rfl
  · exact .of_operation .wipe trivial rfl rfl
  · exact follows_undo e
  · exact .of_operation (.turnGst _) trivial rfl rfl
  · exact .of_same rfl rfl
  · exact follows_insertText e _
  · exact .refl e

theorem follows_pressFunction (e : Editor) (n : Nat) (shift : Bool) :
    e.Follows (e.pressFunction n shift) := by
  rw [pressFunction]
  split
  · exact follows_commitTaxed e _ _
  · split
    · exact follows_commitTaxed e _ _
    · split
      · exact .of_same rfl rfl
      · exact .refl e

theorem follows_pressInEditor (e : Editor) (k : Key) : e.Follows (e.pressInEditor k) := by
  rw [pressInEditor]
  cases k.code with
  | char c =>
    dsimp only
    split_ifs
    · exact follows_pressControl e c
    · exact .refl e
    · exact follows_insertText e [c]
  | function n => exact follows_pressFunction e n k.shift
  | enter => exact follows_submit e
  | backspace => exact follows_erase e e.cursor
  | delete => exact follows_delete e
  | insert => exact .refl e
  | left => dsimp only; split <;> exact .of_same rfl rfl
  | right => dsimp only; split <;> exact .of_same rfl rfl
  | up => exact follows_lineUp e
  | down => exact follows_lineDown e
  | home => exact .of_same rfl rfl
  | toEnd => exact .of_same rfl rfl
  | pageUp => exact .of_same rfl rfl
  | pageDown => exact .of_same rfl rfl
  | tab => exact follows_turnTo e _
  | backTab => exact follows_turnTo e _
  | escape => exact follows_release e

theorem follows_press (e : Editor) (k : Key) : e.Follows (e.press k) := by
  rw [press]
  split
  · exact follows_pressInHelp e k.code
  · exact follows_pressInEditor e k

theorem follows_wheel (e : Editor) (action : MouseAction) : e.Follows (e.wheel action) := by
  unfold wheel
  split <;> exact .of_same rfl rfl

theorem follows_handle (e : Editor) (event : Event) : e.Follows (e.handle event) := by
  cases event with
  | key k clipboard =>
    have hquiet : e.Follows { e with status := none } := .of_same rfl rfl
    rcases handle_key e k clipboard with ⟨said, hcopied⟩ | hpressed
    · rw [hcopied]
      exact .of_same rfl rfl
    · rw [hpressed]
      exact hquiet.trans (follows_press _ k)
  | paste t =>
    rw [handle]
    split
    · exact .refl e
    · exact follows_paste e t
  | mouse action => exact follows_wheel e action

/-- **An editor is followed by what any occurrence makes of it.** -/
theorem follows_after (e : Editor) (occurrence : Occurrence) : e.Follows (e.after occurrence) := by
  cases occurrence with
  | event event => exact follows_handle e event
  | frame width height =>
    have hkeeps := keepsData_settled width height e
    exact .of_same hkeeps.settings hkeeps.ledger

/-! ### Courses -/

theorem follows_afterAll (e : Editor) (course : List Occurrence) :
    e.Follows (e.afterAll course) := by
  induction course generalizing e with
  | nil => exact .refl e
  | cons occurrence course ih => exact (follows_after e occurrence).trans (ih _)

/-- **The ledger of an editor has a history at the rates of its settings**, whatever the course. -/
theorem exists_history (s : Settings) (course : List Occurrence) :
    ∃ history : List Ledger.Operation, (∀ op ∈ history, op.AtRate (· ∈ s.rates)) ∧
      ((ofSettings s).afterAll course).ledger =
        (Ledger.blank s.pages s.defaultRate).afterAll history := by
  obtain ⟨-, history, hrates, hledger⟩ := follows_afterAll (ofSettings s) course
  -- an editor begins by setting the tax mode
  exact ⟨.turnGst s.gstMode :: history, List.forall_mem_cons.2 ⟨trivial, hrates⟩, hledger⟩

end RunningTab.Editor
