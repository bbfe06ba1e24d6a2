import RunningTab.Ledger.Operation
import RunningTab.Prompt.Command

/-!
# The history of lines at the prompt

A command is at most two operations of the ledger: an entry puts its expression into the input and
commits it, every other command is one operation or none
(`RunningTab.Command.exists_history_carryOut`). So the ledger after any lines at the prompt
(`RunningTab.Ledger.afterLines`) has a history. Its rates are those that were typed: a suffix may
give any number.
-/

namespace RunningTab

namespace Command

/-- A reply changes nothing. -/
theorem fst_committedReply (r : Ledger × Option Nat) : (committedReply r).1 = r.1 := by
  rw [committedReply]
  split <;> rfl

theorem exists_history_turnTo (number : Text) (l : Ledger) :
    ∃ history, (turnTo number l).1 = l.afterAll history := by
  rw [turnTo]
  split
  · next index _ => exact ⟨[.turnTo index], rfl⟩
  · exact ⟨[], rfl⟩

theorem exists_history_enter (t : Text) (l : Ledger) :
    ∃ history, (enter t l).1 = l.afterAll history := by
  rw [enter]
  split
  · exact ⟨[], rfl⟩
  · next expression _ => exact ⟨[.edit expression, .commit], fst_committedReply _⟩
  · next expression direction rate _ =>
    exact ⟨[.edit expression, .commitTaxed direction rate], fst_committedReply _⟩

/-- **A command is some operations of the ledger.** -/
theorem exists_history_carryOut (l : Ledger) (c : Command) :
    ∃ history, (carryOut l c).1 = l.afterAll history := by
  cases c with
  | quit => exact ⟨[], rfl⟩
  | total => exact ⟨[], rfl⟩
  | undo => exact ⟨[.undo], rfl⟩
  | clear => exact ⟨[.wipe], rfl⟩
  | pop => exact ⟨[.retract], rfl⟩
  | list => exact ⟨[], rfl⟩
  | page number => exact exists_history_turnTo number l
  | pageUsage => exact ⟨[], rfl⟩
  | details expression => exact ⟨[], rfl⟩
  | detailsUsage => exact ⟨[], rfl⟩
  | entry t => exact exists_history_enter t l

end Command

namespace Ledger

/-- The ledger after lines at the prompt. -/
def afterLines (s : Settings) (l : Ledger) (lines : List Text) : Ledger :=
  lines.foldl (fun l t => (submitLine s l t).1) l

/-- **Lines at the prompt are a history of the ledger.** -/
theorem exists_history_afterLines (s : Settings) (l : Ledger) (lines : List Text) :
    ∃ history, l.afterLines s lines = l.afterAll history := by
  induction lines generalizing l with
  | nil => exact ⟨[], rfl⟩
  | cons t lines ih =>
    obtain ⟨first, hfirst⟩ := Command.exists_history_carryOut l (Command.ofLine t)
    obtain ⟨rest, hrest⟩ := ih (submitLine s l t).1
    refine ⟨first ++ rest, ?_⟩
    rw [afterAll_append, ← hfirst]
    exact hrest

end Ledger

end RunningTab
