import RunningTab.Ledger.Operation
import RunningTab.Ledger.Typing
import RunningTab.Amount.Show
import RunningTab.Prompt.Entry
import RunningTab.Toml.Node
import RunningTab.Toml.Scalar
import RunningTab.Toml.Quoted
import RunningTab.Toml.Statement
import RunningTab.Toml.Document
import RunningTab.Settings.Reading
import RunningTab.Settings.Writing
import RunningTab.Prompt.Command
import RunningTab.Display.Wrap
import RunningTab.Display.Highlight
import RunningTab.Screen.Paragraph
import RunningTab.Screen.Choice
import RunningTab.Editor.Event
import RunningTab.Editor.Paint
import RunningTab.Editor.Course
import RunningTab.Editor.Session
import RunningTab.Prompt.Session
import RunningTab.Prompt.Course
import RunningTab.CommandLine.Program
import RunningTab.Main
import RunningTab.Proofs.Decimal.Value
import RunningTab.Proofs.Decimal.Overflow
import RunningTab.Proofs.Decimal.Negation
import RunningTab.Proofs.Decimal.Comparison
import RunningTab.Proofs.Decimal.Closest
import RunningTab.Proofs.Decimal.Arithmetic
import RunningTab.Proofs.Decimal.LowerBound
import RunningTab.Proofs.Decimal.Nearest
import RunningTab.Proofs.Decimal.Rounding
import RunningTab.Proofs.Decimal.Shortest
import RunningTab.Proofs.Decimal.Figures
import RunningTab.Proofs.Decimal.ReadBack
import RunningTab.Proofs.Tax
import RunningTab.Proofs.Expr.Pieces
import RunningTab.Proofs.Expr.Sweep
import RunningTab.Proofs.Expr.Phrase
import RunningTab.Proofs.Expr.Reading
import RunningTab.Proofs.Expr.Postfix
import RunningTab.Proofs.Expr.Joining
import RunningTab.Proofs.Expr.Meaning
import RunningTab.Proofs.Expr.Stacked
import RunningTab.Proofs.Expr.Conservation
import RunningTab.Proofs.Expr.Depth
import RunningTab.Proofs.Expr.Parentheses
import RunningTab.Proofs.Expr.Fault
import RunningTab.Proofs.Expr.Refusal
import RunningTab.Proofs.Expr.Adjacency
import RunningTab.Proofs.Expr.WrittenOut
import RunningTab.Proofs.Text.Words
import RunningTab.Proofs.Text.Cutting
import RunningTab.Proofs.Expr.Blanks
import RunningTab.Proofs.Expr.Completion
import RunningTab.Proofs.Display.Spacing
import RunningTab.Proofs.Display.Lossless
import RunningTab.Proofs.Display.Signs
import RunningTab.Proofs.Display.Wrapping
import RunningTab.Proofs.Ledger.Effect
import RunningTab.Proofs.Ledger.Rates
import RunningTab.Proofs.Ledger.Agreement
import RunningTab.Proofs.Ledger.Undoing
import RunningTab.Proofs.Ledger.Numbering
import RunningTab.Proofs.Ledger.Selection
import RunningTab.Proofs.Ledger.Identity
import RunningTab.Proofs.Ledger.EditedText
import RunningTab.Proofs.Ledger.TakingBack
import RunningTab.Proofs.Ledger.Reports
import RunningTab.Proofs.Ledger.Parenthesis
import RunningTab.Proofs.Ledger.Totals
import RunningTab.Proofs.Editor.Walk
import RunningTab.Proofs.Editor.InStep
import RunningTab.Proofs.Editor.History
import RunningTab.Proofs.Editor.Looking
import RunningTab.Proofs.Editor.Redraw
import RunningTab.Proofs.Editor.FirstRows
import RunningTab.Proofs.Editor.HelpEnd
import RunningTab.Proofs.Editor.Pasting
import RunningTab.Proofs.Text.Clusters
import RunningTab.Proofs.Text.Columns
import RunningTab.Proofs.Text.Lowercase
import RunningTab.Proofs.Screen.Reflow
import RunningTab.Proofs.Screen.Drawing
import RunningTab.Proofs.Editor.HelpReach
import RunningTab.Proofs.Editor.InView
import RunningTab.Proofs.Prompt.Lines
import RunningTab.Proofs.Prompt.Discipline
import RunningTab.Proofs.Prompt.Recall
import RunningTab.Proofs.Prompt.Clearing
import RunningTab.Proofs.Prompt.Suffix
import RunningTab.Proofs.Amount.Shown
import RunningTab.Proofs.Amount.Groups
import RunningTab.Proofs.Typing
import RunningTab.Proofs.Prompt.Details
import RunningTab.Proofs.Amounts
import RunningTab.Proofs.Amount.Reread
import RunningTab.Proofs.Toml.Scalar
import RunningTab.Proofs.Toml.Lines
import RunningTab.Proofs.Settings.Reading
import RunningTab.Proofs.Settings.RoundTrip
import RunningTab.Proofs.Settings.Clamping
