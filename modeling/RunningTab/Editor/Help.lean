import RunningTab.Editor.Basic
import RunningTab.Screen.Style

/-!
# The help text

The lines of the help, the rates in them taken from the settings.
-/

namespace RunningTab.Editor

open Screen (Span Style)

/-- A line of help. -/
def helpLine (t : String) : List Span := [⟨t.toList, .plain⟩]

/-- A heading of the help. -/
def helpHeading (t : String) : List Span :=
  [⟨t.toList, { foreground := some .cyan, underlined := true }⟩]

/-- The rates of the tax mode with their keys. -/
def rateKeys (rates : List Float) : Text :=
  List.intercalate ", ".toList (rates.zipIdx.map fun (rate, i) =>
    ['F'] ++ Decimal.digits (i + 5) ++ " = ".toList ++ Decimal.shortText rate ++ ['%'])

/-- **The lines of the help.** -/
def helpPage (e : Editor) : List (List Span) :=
  [[⟨"tabcalc - Calculator With a Running Tab".toList, (Style.colored .green).strong⟩],
   helpLine "",
   helpHeading "Operations:",
   helpLine "  + : Addition        (e.g., 5 + 3 = 8)",
   helpLine "  - : Subtraction     (e.g., 10 - 4 = 6)",
   helpLine "  * or x : Multiply   (e.g., 6x7 = 42)",
   helpLine "  / or ÷ : Divide     (e.g., 15 / 3 = 5, 5 / 0 = 0)",
   helpLine "  ( ) : Grouping      (unclosed '(' is closed for you)",
   helpLine "",
   helpHeading "Percentages:",
   helpLine "  50%      = 0.5",
   helpLine "  50x10%   = 5       (10% of 50)",
   helpLine "  100+5%   = 105     (adds 5% of 100)",
   helpLine "  100-5%   = 95      (takes 5% of 100 off)",
   helpLine "",
   helpHeading "Lines and Pages:",
   helpLine "  Enter    : Commit the line (or finish editing)",
   helpLine "  Up/Down  : Pick a committed line to edit",
   helpLine "  Esc      : Stop editing",
   helpLine "  Tab      : Next page, Shift+Tab : Previous page",
   helpLine "  Ctrl+U   : Clear input, or drop the last line",
   helpLine "  Ctrl+L   : Clear the page",
   helpLine "  Ctrl+Z   : Undo the last change to the lines",
   helpLine "",
   helpHeading "Tax:",
   helpLine "  Ctrl+G          : Toggle GST mode",
   [⟨"  GST mode        : ".toList ++ rateKeys e.settings.rates, .plain⟩],
   [⟨"  Basic mode      : F5 = ".toList ++ Decimal.shortText e.ledger.defaultRate ++ ['%'],
     .plain⟩],
   helpLine "  Shift+F5..F7    : Take tax out instead of adding it (also F8..F10)",
   helpLine "",
   helpHeading "Editing:",
   helpLine "  ← → : Move cursor, Ctrl+←/→ : Move by terms",
   helpLine "  Home/End : Move to start/end of line",
   helpLine "  Ctrl+P : Smart parenthesis",
   helpLine "  Ctrl+D : Show evaluation steps",
   helpLine "  Paste : Only digits and operators are kept",
   helpLine "  Ctrl+Y : Copy the grand total",
   helpLine "  Ctrl+Q / Ctrl+C / quit : Exit"]

end RunningTab.Editor
