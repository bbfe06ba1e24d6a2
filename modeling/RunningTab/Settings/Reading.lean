import RunningTab.Settings.Basic
import RunningTab.Toml.Document

/-!
# Reading settings

Settings are read from three records of a TOML document, `ledger`, `tax` and `display`. Each record
and each field may be missing; unknown keys are passed over. A record may also be an array, its
fields then go by position. Anything else that does not fit, anywhere in the file, makes the whole
file count as empty (`RunningTab.Settings.ofFile`).
-/

namespace RunningTab.Toml.Node

/-! ### Records -/

/-- Whether a node can stand for a record. A date and time can: one without any field. -/
def isRecord : Node → Bool
  | table .. | array _ | tables _ | datetime => true
  | _ => false

/-- The field of a record with a name, or with a position where fields have no names. -/
def field (name : String) (position : Nat) : Node → Option Node
  | table _ es => Entries.get? name.toList es
  | array elements => elements[position]?
  | tables elements => elements[position]?.map (table .header)
  | _ => none

/-! ### Fields -/

/-- A whole number that is not negative. -/
def toCount? : Node → Option Nat
  | integer n => if 0 ≤ n then some n.toNat else none
  | _ => none

/-- A number; a whole number will do. -/
def toFloat? : Node → Option Float
  | float x => some x
  | integer n => some (if n < 0 then -Decimal.nearest n.natAbs 1 else Decimal.nearest n.natAbs 1)
  | _ => none

/-- A truth value. -/
def toBool? : Node → Option Bool
  | boolean b => some b
  | _ => none

/-- An array of numbers. -/
def toFloats? : Node → Option (List Float)
  | array elements => elements.mapM toFloat?
  | tables [] => some []
  | _ => none

/-- A text that names a decimal policy. -/
def toPolicy? : Node → Option DecimalPlaces
  | text t => (DecimalPlaces.ofText t).toOption
  | _ => none

/-- Whether a node holds nothing. -/
def isVoid : Node → Bool
  | array [] | table _ [] | tables [] => true
  | _ => false

/-- The word for a grouping, as a text or as the one key of a table that holds nothing. -/
def toGrouping? : Node → Option Grouping
  | text t => Grouping.ofWord? t
  | table kind es =>
    if kind.isInline ∧ es.length ≠ 1 then none
    else es.head?.bind fun e => if e.2.isVoid then Grouping.ofWord? e.1 else none
  | _ => none

/-- What a field is read as, the standard value if it is missing. -/
def orStandard {α : Type} (standard : α) (read : Node → Option α) : Option Node → Option α
  | none => some standard
  | some node => read node

end RunningTab.Toml.Node

namespace RunningTab.Settings

open Toml (Node)

/-- The record of a document with a name; a missing one is empty. -/
def record? (name : String) (es : Toml.Entries) : Option Node :=
  let node := (Toml.Entries.get? name.toList es).getD (.table .implied [])
  if node.isRecord then some node else none

/-- The settings that a document gives, not validated. -/
def ofDocument? (es : Toml.Entries) : Option Settings := do
  let ledger ← record? "ledger" es
  let tax ← record? "tax" es
  let display ← record? "display" es
  let pages ← Node.orStandard standard.pages Node.toCount? (ledger.field "pages" 0)
  let defaultRate ←
    Node.orStandard standard.defaultRate Node.toFloat? (tax.field "default_rate" 0)
  let rates ← Node.orStandard standard.rates Node.toFloats? (tax.field "rates" 1)
  let gstMode ← Node.orStandard standard.gstMode Node.toBool? (tax.field "gst_mode" 2)
  let decimals ← Node.orStandard standard.decimals Node.toPolicy? (display.field "decimals" 0)
  let grouping ← Node.orStandard standard.grouping Node.toGrouping? (display.field "grouping" 1)
  return ⟨pages, defaultRate, rates, gstMode, decimals, grouping⟩

/-- The settings that a text gives, not validated; nothing if the text is faulty anywhere. -/
def ofText? (t : Text) : Option Settings :=
  (Toml.document? t).bind ofDocument?

/-- **The settings of a file**, which may be missing. -/
def ofFile (contents : Option Text) : Settings :=
  ((contents.bind ofText?).getD standard).validated

end RunningTab.Settings
