import RunningTab.Text.Blank

/-!
# Files below a directory

The files that the program can see, by the parts of their paths, and what writing one does: missing
directories are made, and a file or a directory in the way is a fault.
-/

namespace RunningTab.CommandLine

/-- The parts of a path below the directory. -/
abbrev Path := List Text

namespace Path

/-- The parts of a text between slashes. -/
def parts : Text → List Text
  | [] => [[]]
  | c :: t =>
    if c = '/' then [] :: parts t
    else
      match parts t with
      | p :: ps => (c :: p) :: ps
      | [] => [[c]]

/-- The path with a part added: nothing for an empty part and a dot, one part less for two dots. -/
def extended (p : Path) (part : Text) : Path :=
  if part = [] ∨ part = ['.'] then p
  else if part = ['.', '.'] then p.dropLast
  else p ++ [part]

/-- The path that a text names: from the directory whose own text is `home`, or below it. -/
def ofText (home t : Text) : Path :=
  let below := if home.isPrefixOf t then t.drop home.length else t
  (parts below).foldl extended []

end Path

/-- Why a file cannot be written. -/
inductive WriteFault where
  /-- There is a file where its directory should be. -/
  | fileExists
  /-- There is a file where a directory further up should be. -/
  | notADirectory
  /-- It is a directory itself. -/
  | isADirectory
  deriving DecidableEq, Repr

/-- What is said of a fault. -/
def WriteFault.message : WriteFault → Text
  | fileExists => "File exists (os error 17)".toList
  | notADirectory => "Not a directory (os error 20)".toList
  | isADirectory => "Is a directory (os error 21)".toList

/-- The files below a directory with their contents. -/
abbrev Files := List (Path × Text)

namespace Files

/-- The contents of a file. -/
def read? (path : Path) (fs : Files) : Option Text :=
  (fs.find? fun f => f.1 = path).map Prod.snd

/-- Whether a path is that of a directory: the one that all is below, or one on the way to a
file. -/
def isDirectory (path : Path) (fs : Files) : Bool :=
  path.isEmpty || fs.any fun f => path.isPrefixOf f.1 && f.1 != path

/-- Whether there is a file somewhere on the way to a path. -/
def isBlocked (path : Path) (fs : Files) : Bool :=
  fs.any fun f => f.1.isPrefixOf path && f.1 != path

/-- **Writes a file**, in place of an earlier one. -/
def write (path : Path) (contents : Text) (fs : Files) : Except WriteFault Files :=
  if (fs.read? path.dropLast).isSome then .error .fileExists
  else if fs.isBlocked path then .error .notADirectory
  else if fs.isDirectory path then .error .isADirectory
  else .ok (fs.filter (·.1 ≠ path) ++ [(path, contents)])

end Files

end RunningTab.CommandLine
