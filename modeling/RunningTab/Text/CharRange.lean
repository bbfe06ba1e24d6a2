import RunningTab.Text.Blank

/-!
# Ranges of characters

A property of characters as a sorted list of ranges, each given by its first and its last
character's number.
-/

namespace RunningTab.Text

/-- The first and the last character number of a range. -/
abbrev CharRange := Nat × Nat

/-- Whether a number lies in one of the ranges, which must be sorted. -/
def inRanges (n : Nat) : List CharRange → Bool
  | [] => false
  | (low, high) :: rest => if n < low then false else n ≤ high || inRanges n rest

end RunningTab.Text
