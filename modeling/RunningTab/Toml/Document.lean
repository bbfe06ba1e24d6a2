import RunningTab.Toml.Statement

/-!
# Documents

The statements of a text, carried out one after the other, give the entries of a document. Every
key is defined at most once and every table has at most one header; a text that breaks a rule
anywhere gives no document at all.
-/

namespace RunningTab.Toml

/-- A document in the making: its entries and the table that keys now go to. -/
structure Draft where
  entries : Entries
  path : List Text

/-- Opens the table of a header, which must be new or only implied so far. -/
def openTable (key : Text) (es : Entries) : Option Entries :=
  match es.get? key with
  | none => some (es ++ [(key, .table .header [])])
  | some (.table .implied sub) => some (es.erase key ++ [(key, .table .header sub)])
  | some _ => none

/-- Opens a new element of an array of tables. -/
def openElement (key : Text) (es : Entries) : Option Entries :=
  match es.get? key with
  | none => some (es ++ [(key, .tables [[]])])
  | some (.tables elements) => some (es.replace key (.tables (elements ++ [[]])))
  | some _ => none

/-- Carries out a header with the given way of opening its table. -/
def Draft.opened (d : Draft) (path : List Text) (open? : Text → Entries → Option Entries) :
    Option Draft := do
  let key ← path.getLast?
  let es ← d.entries.withTableAt .ofHeader (fun _ es => open? key es) path.dropLast .header
  return ⟨es, path⟩

/-- Carries out a statement. -/
def Draft.after (d : Draft) : Statement → Option Draft
  | .header path => d.opened path openTable
  | .elementHeader path => d.opened path openElement
  | .pair key node =>
    (d.entries.withTableAt .ofHeader (fun kind es => es.define .ofKey key node kind) d.path
      .header).map (⟨·, d.path⟩)

/-- **The entries of the document that a text is**, if it is one. -/
def document? (t : Text) : Option Entries := do
  let statements ← statements? t
  let draft ← statements.foldlM Draft.after ⟨[], []⟩
  return draft.entries

end RunningTab.Toml
