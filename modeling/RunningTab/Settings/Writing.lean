import RunningTab.Decimal.Shortest
import RunningTab.Settings.Basic

/-!
# Writing settings

The text of a settings file: the three records under their headers, an empty line between them.
Floats have a point always, arrays of more than one number take a line for each.
-/

namespace RunningTab.Settings

/-- The text of a finite float. -/
def floatText (x : Float) : Text :=
  let t := Decimal.shortText x
  if t.contains '.' then t else t ++ ".0".toList

/-- The text of an array of floats. -/
def floatsText : List Float → Text
  | [] => "[]".toList
  | [x] => "[".toList ++ floatText x ++ "]".toList
  | xs =>
    "[\n".toList ++ xs.flatMap (fun x => "    ".toList ++ floatText x ++ ",\n".toList) ++
      "]".toList

/-- The text of a truth value. -/
def boolText (b : Bool) : Text :=
  if b then "true".toList else "false".toList

/-- A line that sets a key. -/
def line (key : String) (value : Text) : Text :=
  key.toList ++ " = ".toList ++ value ++ "\n".toList

/-- A text in quotes, if nothing in it needs an escape. -/
def quotedText (t : Text) : Text :=
  "\"".toList ++ t ++ "\"".toList

/-- **The text of a settings file.** -/
def text (s : Settings) : Text :=
  "[ledger]\n".toList ++ line "pages" (Decimal.digits s.pages) ++
    "\n[tax]\n".toList ++ line "default_rate" (floatText s.defaultRate) ++
    line "rates" (floatsText s.rates) ++ line "gst_mode" (boolText s.gstMode) ++
    "\n[display]\n".toList ++ line "decimals" (quotedText s.decimals.text) ++
    line "grouping" (quotedText s.grouping.word)

end RunningTab.Settings
