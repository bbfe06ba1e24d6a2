import RunningTab.Text.Blank

/-!
# The contents of a settings file

What a TOML document holds: values, tables, and arrays of tables. A table remembers how it came
to be (`RunningTab.Toml.TableKind`), because the format forbids to define a table twice and tells
the ways of defining one apart. `RunningTab.Toml.Node.withTableAt` finds the table at the end of a
path and changes it; every definition of a document goes through it.
-/

namespace RunningTab.Toml

/-- How a table came to be. -/
inductive TableKind where
  /-- By a header of its own, as an element of an array of tables, or as the document. -/
  | header
  /-- As a stage on the way of another table's header. -/
  | implied
  /-- As a stage of a dotted key. -/
  | dotted
  /-- In braces. -/
  | inline
  /-- As a stage of a dotted key in braces. -/
  | inlineDotted
  deriving DecidableEq, Repr

namespace TableKind

/-- Whether the table is written in braces, and so cannot be reached from outside. -/
def isInline : TableKind → Bool
  | inline | inlineDotted => true
  | _ => false

/-- Whether the table is a stage of a dotted key. -/
def isDotted : TableKind → Bool
  | dotted | inlineDotted => true
  | _ => false

end TableKind

/-- Something that a key can stand for. -/
inductive Node where
  | text (t : Text)
  | integer (n : Int)
  | float (x : Float)
  | boolean (b : Bool)
  | datetime
  | array (elements : List Node)
  | table (kind : TableKind) (entries : List (Text × Node))
  /-- An array of tables, each with a header of its own. -/
  | tables (elements : List (List (Text × Node)))

/-- The entries of a table, in the order in which they were made. -/
abbrev Entries := List (Text × Node)

namespace Entries

/-- What a key stands for. -/
def get? (key : Text) (es : Entries) : Option Node :=
  (es.find? fun e => e.1 = key).map Prod.snd

/-- The entries without a key. -/
def erase (key : Text) (es : Entries) : Entries :=
  es.filter fun e => e.1 ≠ key

/-- The entries with another node for a key that they hold. -/
def replace (key : Text) (node : Node) (es : Entries) : Entries :=
  es.map fun e => if e.1 = key then (key, node) else e

end Entries

/-! ### Reaching a table -/

/-- Which tables a path may lead through, and what tables it makes where there are none. -/
structure Passage where
  /-- The kind of the tables that are made. -/
  made : TableKind
  /-- The kinds of tables that may be passed. -/
  admits : TableKind → Bool

namespace Passage

/-- The passage of a header: all tables but those in braces. -/
def ofHeader : Passage := ⟨.implied, fun k => !k.isInline⟩

/-- The passage of a dotted key: only tables without a header of their own. -/
def ofKey : Passage := ⟨.dotted, fun k => k == .implied || k == .dotted⟩

/-- The passage of a dotted key in braces. -/
def ofInlineKey : Passage := ⟨.inlineDotted, fun k => k == .inlineDotted⟩

end Passage

/-- Changes the table at the end of a path, if there is one or one can be made; in an array of
tables the path goes through the last element. -/
def Entries.withTableAt (passage : Passage) (f : TableKind → Entries → Option Entries) :
    List Text → TableKind → Entries → Option Entries
  | [], kind, es => f kind es
  | key :: path, _, es =>
    match es.get? key with
    | none =>
      (withTableAt passage f path passage.made []).map fun sub =>
        es ++ [(key, .table passage.made sub)]
    | some (.table kind sub) =>
      if passage.admits kind then
        (withTableAt passage f path kind sub).map fun sub => es.replace key (.table kind sub)
      else none
    | some (.tables elements) =>
      match elements.getLast? with
      | none => none
      | some last =>
        if passage.made.isInline then none
        else
          (withTableAt passage f path .header last).map fun last =>
            es.replace key (.tables (elements.dropLast ++ [last]))
    | some _ => none

/-- Defines a key of a table, unless it is defined already. A dotted key must end in a table that
dotted keys made, a plain one in a table that they did not make. -/
def Entries.define (passage : Passage) (path : List Text) (node : Node) (kind : TableKind)
    (es : Entries) : Option Entries :=
  match path.getLast? with
  | none => none
  | some key =>
    es.withTableAt passage (fun kind sub =>
      if kind.isDotted == path.dropLast.isEmpty then none
      else if (sub.get? key).isSome then none
      else some (sub ++ [(key, node)])) path.dropLast kind

end RunningTab.Toml
