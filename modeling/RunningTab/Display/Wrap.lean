import RunningTab.Text.Cluster
import RunningTab.Text.Width

/-!
# Wrapping

A text is broken into lines of a given width, greedily by words. A word wider than a line has lines
of its own and is cut between grapheme clusters; what comes after it starts a new line.
-/

namespace RunningTab.Display

/-! ### Cutting long words -/

/-- The columns that a cluster takes in a cut word, at least one. -/
def clusterColumns (g : Text) : Nat :=
  max (Text.width g) 1

/-- The pieces of a word with the given clusters, the first of which continues a piece of `taken`
columns: that piece's rest, and the pieces after it. -/
def cutAfter (width taken : Nat) : List Text → Text × List Text
  | [] => ([], [])
  | g :: gs =>
    if width < taken + clusterColumns g then
      let r := cutAfter width (clusterColumns g) gs
      ([], (g ++ r.1) :: r.2)
    else
      let r := cutAfter width (taken + clusterColumns g) gs
      (g ++ r.1, r.2)

/-- The pieces of a word that is wider than a line. -/
def cutWord (width : Nat) (word : Text) : List Text :=
  let r := cutAfter width 0 (Text.clusters word)
  if r.1 = [] ∧ r.2 = [] then [] else r.1 :: r.2

/-! ### Lines -/

/-- The lines of the given words, the first of which may still go on the line that the words in
`line` make up, of `taken` columns. -/
def wrapAfter (width : Nat) : (line : List Text) → (taken : Nat) → List Text → List Text
  | [], _, [] => []
  | line, _, [] => [Text.spaced line]
  | line, taken, word :: rest =>
    let columns := Text.width word
    if width < columns then
      (if line = [] then [] else [Text.spaced line]) ++ cutWord width word ++
        wrapAfter width [] 0 rest
    else if line = [] then wrapAfter width [word] columns rest
    else if width < taken + columns + 1 then
      Text.spaced line :: wrapAfter width [word] columns rest
    else wrapAfter width (line ++ [word]) (taken + 1 + columns) rest

/-- **The lines of a text in a given width**; no width has one empty line. -/
def wrap (width : Nat) (t : Text) : List Text :=
  if width = 0 then [[]] else wrapAfter width [] 0 (Text.words t)

end RunningTab.Display
