import RunningTab.Text.Blank

/-!
# Positions in bytes

The size of a text in UTF-8 and the byte offsets of its characters. An offset that is not the start
of a character, or the end, cuts the text nowhere (`RunningTab.Text.splitAtByte?`), and everything
that edits by bytes goes through such a cut.
-/

namespace RunningTab.Text

/-- The number of bytes of a text in UTF-8. -/
def byteSize (t : Text) : Nat :=
  t.foldr (fun c n => c.utf8Size + n) 0

/-- The byte offset of the character with the given index; the end if there is none. -/
def byteOffset (t : Text) (index : Nat) : Nat :=
  byteSize (t.take index)

/-- The text before a byte offset and from there on, if a character starts there or the text ends
there. -/
def splitAtByte? : Nat → Text → Option (Text × Text)
  | 0, t => some ([], t)
  | _ + 1, [] => none
  | n + 1, c :: t =>
    if c.utf8Size ≤ n + 1 then
      (splitAtByte? (n + 1 - c.utf8Size) t).map fun r => (c :: r.1, r.2)
    else none
termination_by _ t => t.length

/-- The text from a byte offset on. -/
def dropBytes (n : Nat) (t : Text) : Text :=
  ((splitAtByte? n t).map Prod.snd).getD []

end RunningTab.Text
