import RunningTab.Ledger.Basic

/-!
# Operations on a ledger as data

What can be done to a ledger, as one type (`RunningTab.Ledger.Operation`), so that a history
is a list and a statement about all histories is an induction on it
(`RunningTab.Ledger.afterAll`).
-/

namespace RunningTab.Ledger

/-- Something to do to a ledger. -/
inductive Operation where
  | edit (t : Text)
  | insert (position : Nat) (t : Text)
  | erase (position : Nat)
  | commit
  | commitTaxed (direction : TaxDirection) (rate : Option Float)
  | select (id : Nat)
  | deselect
  | retract
  | wipe
  | turnTo (index : Nat)
  | nextPage
  | previousPage
  | undo
  | turnGst (on : Bool)

/-- The ledger after an operation. -/
def after (l : Ledger) : Operation → Ledger
  | .edit t => l.edit t
  | .insert position t => (l.insert position t).1
  | .erase position => (l.erase position).1
  | .commit => l.commit.1
  | .commitTaxed direction rate => (l.commitTaxed direction rate).1
  | .select id => (l.select id).1
  | .deselect => l.deselect
  | .retract => l.retract
  | .wipe => l.wipe
  | .turnTo index => (l.turnTo index).1
  | .nextPage => l.nextPage.1
  | .previousPage => l.previousPage.1
  | .undo => l.undo.1
  | .turnGst on => l.turnGst on

/-- The ledger after a history. -/
def afterAll (l : Ledger) (history : List Operation) : Ledger :=
  history.foldl after l

theorem afterAll_append (l : Ledger) (history later : List Operation) :
    l.afterAll (history ++ later) = (l.afterAll history).afterAll later :=
  List.foldl_append

/-- **The reachable ledgers**: what a history makes of empty pages. -/
def Reachable (l : Ledger) : Prop :=
  ∃ pageCount defaultRate history, l = (blank pageCount defaultRate).afterAll history

end RunningTab.Ledger
