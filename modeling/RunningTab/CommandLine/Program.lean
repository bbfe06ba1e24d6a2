import RunningTab.CommandLine.Arguments
import RunningTab.CommandLine.Files
import RunningTab.Prompt.Command
import RunningTab.Settings.Reading
import RunningTab.Settings.Writing

/-!
# The program

What the program does with its arguments: it writes the settings back, or works out one expression,
or opens a session. An expression without a value prints zero, like the preview of a line; the cause
is said only if the steps are asked for.
-/

namespace RunningTab.CommandLine

/-- What the program leaves behind: its exit code and what it printed. -/
structure Output where
  code : Nat
  printed : Text
  /-- What was printed as an error. -/
  complaint : Text
  deriving DecidableEq, Repr

/-- A task of the program. -/
inductive Task where
  /-- Write the settings to their file. -/
  | writeSettings
  /-- Work out an expression, with or without its steps. -/
  | workOut (expression : Text) (details : Bool)
  /-- Open a session, at the prompt or on the whole screen. -/
  | openSession (line : Bool)
  deriving DecidableEq, Repr

/-- The task that arguments set. Writing settings comes before everything else. -/
def Task.ofArguments (a : Arguments) : Task :=
  if a.writeConfig then .writeSettings
  else if a.expression ≠ [] then .workOut (Text.spaced a.expression) a.details
  else .openSession a.line

/-! ### Working out an expression -/

/-- The value printed for a run. -/
def printedValue (run : Expr.Run) : Float :=
  match run.outcome with
  | .ok x => x
  | .error _ => 0.0

/-- The complaint about a run that failed. -/
def complaintOf (run : Expr.Run) : Text :=
  match run.outcome with
  | .ok _ => []
  | .error e => "Error: ".toList ++ e.message ++ ['\n']

/-- **Works out an expression.** -/
def workOut (expression : Text) (details : Bool) : Output :=
  let run := Expr.work expression
  let steps := if details then Reply.stepLines run.steps else []
  { code := 0
    printed := (steps ++ [showPlain (printedValue run)]).flatMap (· ++ ['\n'])
    complaint := if details then complaintOf run else [] }

/-! ### Writing the settings -/

/-- What is printed when the settings have been written to a file. -/
def written (path : Text) : Output :=
  ⟨0, "Wrote ".toList ++ path ++ ['\n'], []⟩

/-- What is printed when the settings cannot be written. -/
def notWritten (cause : Text) : Output :=
  { code := 1
    printed := []
    complaint := "Error: Failed to read config: ".toList ++ cause ++
      "\n\nCaused by:\n    ".toList ++ cause ++ ['\n'] }

/-- **Writes the settings back to their file**, with every value in range. -/
def writeSettings (home path : Text) (fs : Files) : Output × Files :=
  let place := Path.ofText home path
  let s := Settings.ofFile (fs.read? place)
  match fs.write place s.text with
  | .ok fs => (written path, fs)
  | .error fault => (notWritten fault.message, fs)

/-! ### The whole program -/

/-- What is printed when the arguments are misused. -/
def misused : Output where
  code := 2
  printed := []
  complaint :=
    "Usage: tabcalc [--details] [--config PATH] [--line] [--write-config] [EXPRESSION]...\n".toList

/-- The settings file in a directory for such files. -/
def standardPath (configHome : Text) : Text :=
  configHome ++ "/tabcalc/config.toml".toList

/-- **What the program leaves behind** if it opens no session: `home` is the directory with the
files and `configHome` the one for settings. -/
def run (home configHome : Text) (fs : Files) (words : List Text) : Output × Files :=
  match Arguments.ofWords? words with
  | none => (misused, fs)
  | some a =>
    match Task.ofArguments a with
    | .writeSettings => writeSettings home (a.config.getD (standardPath configHome)) fs
    | .workOut expression details => (workOut expression details, fs)
    | .openSession _ => (⟨0, [], []⟩, fs)

end RunningTab.CommandLine
