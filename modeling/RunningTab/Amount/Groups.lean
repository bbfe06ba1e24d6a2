import RunningTab.Amount.Policy

/-!
# Groups of digits

The digits of a whole number cut into groups from the right. The last group is the largest;
all before it have one size, except the first, which takes what is left.
-/

namespace RunningTab.Grouping

/-- The digits cut into groups of `size + 1` from the right. -/
def groupsOf (size : Nat) (t : Text) : List Text :=
  if _h : t.length ≤ size + 1 then [t]
  else groupsOf size (t.take (t.length - (size + 1))) ++ [t.drop (t.length - (size + 1))]
termination_by t.length
decreasing_by simp; omega

/-- The digits cut into a last group of `size + 1` and groups by `others` before it. -/
def groupsEnding (size : Nat) (others : Text → List Text) (t : Text) : List Text :=
  if t.length ≤ size + 1 then [t]
  else others (t.take (t.length - (size + 1))) ++ [t.drop (t.length - (size + 1))]

/-- The groups of the digits of a whole number. -/
def groups : Grouping → Text → List Text
  | indian, t => groupsEnding 2 (groupsOf 1) t
  | international, t => groupsOf 2 t
  | none, t => [t]

/-- **The digits with commas between their groups.** -/
def apply (g : Grouping) (t : Text) : Text :=
  List.intercalate [','] (g.groups t)

end RunningTab.Grouping
