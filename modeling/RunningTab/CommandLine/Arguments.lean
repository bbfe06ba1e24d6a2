import RunningTab.Text.Blank

/-!
# Arguments of the program

Options come before the expression: from the first word on that is no option, everything belongs to
the expression, words that look like options included. A double dash before that word is dropped and
ends the options too. No option may be given twice, and a word that begins like an option but is
none starts the expression.
-/

namespace RunningTab.CommandLine

/-- What the program is asked for. -/
structure Arguments where
  /-- The words of the expression. -/
  expression : List Text := []
  /-- Whether every step is printed. -/
  details : Bool := false
  /-- The settings file to use. -/
  config : Option Text := none
  /-- Whether lines are typed at a prompt. -/
  line : Bool := false
  /-- Whether the settings are written back. -/
  writeConfig : Bool := false
  deriving DecidableEq, Repr

namespace Arguments

/-- The options without a value. -/
inductive Switch where
  | details
  | line
  | writeConfig
  deriving DecidableEq, Repr

/-- The word for a switch. -/
def Switch.word : Switch → Text
  | details => "--details".toList
  | line => "--line".toList
  | writeConfig => "--write-config".toList

/-- The switch with a word. -/
def Switch.ofWord? (t : Text) : Option Switch :=
  [details, line, writeConfig].find? fun s => s.word = t

/-- The word for the option that names a settings file. -/
def configWord : Text := "--config".toList

/-- Turns a switch on, unless it is on. -/
def turnOn? (a : Arguments) : Switch → Option Arguments
  | .details => if a.details then none else some { a with details := true }
  | .line => if a.line then none else some { a with line := true }
  | .writeConfig => if a.writeConfig then none else some { a with writeConfig := true }

/-- Names the settings file, unless one is named. -/
def name? (a : Arguments) (path : Text) : Option Arguments :=
  if a.config.isSome ∨ path = [] then none else some { a with config := some path }

/-- A word up to its first equals sign, and the value behind it. -/
def splitValue (t : Text) : Text × Option Text :=
  match t.dropWhile (· != '=') with
  | [] => (t, none)
  | _ :: value => (t.takeWhile (· != '='), some value)

/-- Whether a word is an option or a double dash, with or without a value. -/
def isOption (t : Text) : Bool :=
  let name := (splitValue t).1
  t == "--".toList || name == configWord || (Switch.ofWord? name).isSome

/-- The arguments after the given words; nothing if they are misused. -/
def after? (a : Arguments) : List Text → Option Arguments
  | [] => some a
  | word :: rest =>
    if word = "--".toList then some { a with expression := rest }
    else
      match splitValue word with
      | (name, none) =>
        if name = configWord then
          match rest with
          | [] => none
          | path :: rest => if isOption path then none else (a.name? path).bind (after? · rest)
        else
          match Switch.ofWord? name with
          | some s => (a.turnOn? s).bind (after? · rest)
          | none => some { a with expression := word :: rest }
      | (name, some value) =>
        if name = configWord then (a.name? value).bind (after? · rest)
        else if (Switch.ofWord? name).isSome then none
        else some { a with expression := word :: rest }

/-- **The arguments that words give**, if they are used as intended. -/
def ofWords? (words : List Text) : Option Arguments :=
  after? {} words

end Arguments

end RunningTab.CommandLine
