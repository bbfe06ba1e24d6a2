import RunningTab.CommandLine.Program

/-!
# The command line

Reads the arguments and the settings file, prints what the program says, and, where a session is
asked for, carries out the lines of standard input one by one.
-/

namespace RunningTab.CommandLine

/-- The contents of a file, if it can be read. -/
def contents? (path : String) : IO (Option Text) := do
  try
    return some (← IO.FS.readFile path).toList
  catch _ =>
    return none

/-- The directory for settings files. -/
def configHome : IO String := do
  match ← IO.getEnv "XDG_CONFIG_HOME" with
  | some dir => return dir
  | none =>
    match ← IO.getEnv "HOME" with
    | some home => return home ++ "/.config"
    | none => return "/tmp"

/-- The text before the last slash. -/
def directoryOf (path : Text) : Text :=
  ((Text.cutLast? '/' path).map Prod.fst).getD []

/-- Writes a text to a file and makes the directories on the way. -/
def store (path contents : Text) : IO Unit := do
  let directory := directoryOf path
  unless directory.isEmpty do
    IO.FS.createDirAll (String.ofList directory)
  IO.FS.writeFile (String.ofList path) (String.ofList contents)

/-- What is said of a failed write. -/
def causeOf : IO.Error → Text
  | .alreadyExists .. => WriteFault.fileExists.message
  | .inappropriateType _ code _ =>
    if code = 20 then WriteFault.notADirectory.message else WriteFault.isADirectory.message
  | e => (toString e).toList

/-- Prints what the program leaves behind. -/
def report (o : Output) : IO UInt32 := do
  IO.print (String.ofList o.printed)
  IO.eprint (String.ofList o.complaint)
  return UInt32.ofNat o.code

/-- Carries out the lines of standard input until one ends the session. -/
partial def lines (s : Settings) (l : Ledger) : IO Unit := do
  let line ← (← IO.getStdin).getLine
  unless line.isEmpty do
    let t := Text.trim line.toList
    if t.isEmpty then lines s l
    else
      let (l, printed) := submitLine s l t
      for p in printed do
        IO.println ("  " ++ String.ofList p)
      unless isQuitWord (Text.lower t) do
        lines s l

end RunningTab.CommandLine

open RunningTab CommandLine in
/-- The program. -/
def main (words : List String) : IO UInt32 := do
  match Arguments.ofWords? (words.map String.toList) with
  | none => report misused
  | some a =>
    let path := a.config.getD (standardPath (← configHome).toList)
    let s := Settings.ofFile (← contents? (String.ofList path))
    match Task.ofArguments a with
    | .writeSettings =>
      try
        store path s.text
        report (written path)
      catch e =>
        report (notWritten (causeOf e))
    | .workOut expression details => report (workOut expression details)
    | .openSession _ =>
      lines s (Ledger.blank s.pages s.defaultRate)
      return 0
