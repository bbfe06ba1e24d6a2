import RunningTab.Ledger.Typing
import RunningTab.Prompt.Entry
import RunningTab.Settings.Basic
import RunningTab.Text.Bytes
import RunningTab.Text.Lowercase

/-!
# Commands

A line typed at the prompt is a command word, in any case, or else an entry to commit
(`RunningTab.Command.ofLine`). Carrying it out changes the ledger and gives a reply
(`RunningTab.Command.carryOut`); what is printed is read off the reply and the ledger then
(`RunningTab.Reply.lines`).
-/

namespace RunningTab

/-- What a line at the prompt asks for. -/
inductive Command where
  | quit
  | total
  | undo
  | clear
  | pop
  | list
  /-- Turn to a page, by its number as it was typed. -/
  | page (number : Text)
  | pageUsage
  /-- Show the work on an expression. -/
  | details (expression : Text)
  | detailsUsage
  /-- Commit a line. -/
  | entry (t : Text)
  deriving DecidableEq, Repr

/-- What a command is answered with. -/
inductive Reply where
  | farewell
  | summary
  | undone (done : Bool)
  | listing
  | noSuchPage
  | pageUsage
  | detailsUsage
  | worked (expression : Text) (run : Expr.Run)
  | rejected (fault : Entry.Fault)
  | nothingCommitted
  | committed (line : Line)

namespace Command

/-! ### Reading commands -/

/-- The word `details`. -/
def detailsWord : Text := "details".toList

/-- **The command that a line is.** -/
def ofLine (t : Text) : Command :=
  match Text.words (Text.lower t) with
  | [] => entry t
  | word :: arguments =>
    match arguments with
    | [] =>
      if isQuitWord word then quit
      else if word = "total".toList then total
      else if word = "undo".toList then undo
      else if word = "clear".toList then clear
      else if word = "pop".toList then pop
      else if word = "list".toList then list
      else if word = "page".toList then pageUsage
      else if word = detailsWord then detailsUsage
      else entry t
    | argument :: _ =>
      if word = "page".toList then page argument
      else if word = detailsWord then
        details (Text.trim (Text.dropBytes (Text.byteSize detailsWord) t))
      else entry t

/-- The largest page number that can be read. -/
def maxPageNumber : Nat := 0xffffffffffffffff

/-! ### Carrying commands out -/

/-- Turns to a page by its number. -/
def turnTo (number : Text) (l : Ledger) : Ledger × Reply :=
  match Decimal.readWhole? maxPageNumber number with
  | some (index + 1) =>
    let turned := l.turnTo index
    (turned.1, if turned.2 then .summary else .noSuchPage)
  | _ => (l, .noSuchPage)

/-- The reply to a commit that gave an identifier or none. -/
def committedReply (r : Ledger × Option Nat) : Ledger × Reply :=
  match r.2.bind fun id => r.1.page.line? id with
  | some line => (r.1, .committed line)
  | none => (r.1, .nothingCommitted)

/-- Commits an entry. -/
def enter (t : Text) (l : Ledger) : Ledger × Reply :=
  match Entry.ofLine t with
  | .error fault => (l, .rejected fault)
  | .ok (.plain expression) => committedReply (l.edit expression).commit
  | .ok (.taxed expression direction rate) =>
    committedReply ((l.edit expression).commitTaxed direction rate)

/-- **The ledger after a command, and the reply to it.** -/
def carryOut (l : Ledger) : Command → Ledger × Reply
  | quit => (l, .farewell)
  | total => (l, .summary)
  | undo => (l.undo.1, .undone l.undo.2)
  | clear => (l.wipe, .summary)
  | pop => (l.retract, .summary)
  | list => (l, .listing)
  | page number => turnTo number l
  | pageUsage => (l, .pageUsage)
  | details expression => (l, .worked expression (Expr.work expression))
  | detailsUsage => (l, .detailsUsage)
  | entry t => enter t l

end Command

/-! ### Replies in print -/

namespace Ledger

/-- The number of the current page and its total. -/
def summary (s : Settings) (l : Ledger) : Text :=
  "Page ".toList ++ Decimal.digits (l.current + 1) ++ " total: ".toList ++ s.amount l.pageTotal

/-- The lines of the current page, numbered. -/
def listing (s : Settings) (l : Ledger) : List Text :=
  l.page.zipIdx.map fun (line, i) =>
    let number := Decimal.digits (i + 1)
    List.replicate (3 - number.length) ' ' ++ number ++ ". ".toList ++ line.expression ++
      " = ".toList ++ s.amount line.result

end Ledger

namespace Reply

/-- The steps of a run, numbered, with their results in full. -/
def stepLines (steps : List Expr.Step) : List Text :=
  steps.zipIdx.map fun (step, i) => step.listed (i + 1) (Decimal.shortText step.result)

/-- The work on an expression in print. -/
def workLines (s : Settings) (expression : Text) (run : Expr.Run) : List Text :=
  match run.outcome with
  | .ok x => stepLines run.steps ++ [expression ++ " = ".toList ++ s.amount x]
  | .error e => [expression ++ " = Error: ".toList ++ e.message]

/-- A committed line in print, with its tax if it has one. -/
def lineLines (s : Settings) (line : Line) : List Text :=
  (line.expression ++ " = ".toList ++ s.amount line.result) ::
    match line.tax with
    | none => []
    | some tax =>
      ["base ".toList ++ s.amount tax.breakdown.base ++ ", tax ".toList ++
        Decimal.shortText tax.breakdown.rate ++ "% = ".toList ++ s.amount tax.breakdown.amount]

/-- **What is printed of a reply**, `l` being the ledger after the command. -/
def lines (s : Settings) (l : Ledger) : Reply → List Text
  | farewell => ["Goodbye!".toList]
  | summary => [l.summary s]
  | undone done => [(if done then "Undone" else "Nothing to undo").toList, l.summary s]
  | listing => l.listing s ++ [l.summary s]
  | noSuchPage => ["Pages are numbered 1 to ".toList ++ Decimal.digits l.pages.length]
  | pageUsage => ["Usage: page N (1 to ".toList ++ Decimal.digits l.pages.length ++ ")".toList]
  | detailsUsage => ["Usage: details <expr>".toList]
  | worked expression run => workLines s expression run
  | rejected fault => ["Error: ".toList ++ fault.message]
  | nothingCommitted => ["Empty base, nothing committed".toList, l.summary s]
  | committed line => lineLines s line ++ [l.summary s]

end Reply

/-- **The ledger after a line at the prompt, and what is printed.** -/
def submitLine (s : Settings) (l : Ledger) (t : Text) : Ledger × List Text :=
  let r := Command.carryOut l (Command.ofLine t)
  (r.1, r.2.lines s r.1)

end RunningTab
