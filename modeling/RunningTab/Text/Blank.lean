/-!
# Texts and their blanks

A text is the list of its characters, so every statement about texts is a
statement about lists. The blanks are the twenty-five characters with the Unicode
property `White_Space` (`RunningTab.Text.isBlank`); the core library's own test
knows only four of them, so it cannot stand in.

From the blanks come the two things the rest of the library does with them:
cutting them off at the ends (`RunningTab.Text.trim`) and falling apart into words
at them (`RunningTab.Text.words`).
-/

namespace RunningTab

/-- A text is the list of its characters. -/
abbrev Text := List Char

namespace Text

/-! ### The blank characters -/

/-- The characters with the Unicode property `White_Space`. -/
def isBlank (c : Char) : Bool :=
  (0x9 ≤ c.toNat && c.toNat ≤ 0xd) || c.toNat == 0x20 || c.toNat == 0x85 || c.toNat == 0xa0 ||
    c.toNat == 0x1680 || (0x2000 ≤ c.toNat && c.toNat ≤ 0x200a) || c.toNat == 0x2028 ||
    c.toNat == 0x2029 || c.toNat == 0x202f || c.toNat == 0x205f || c.toNat == 0x3000

/-- The ASCII decimal digits. -/
def isDigit (c : Char) : Bool :=
  '0' ≤ c && c ≤ '9'

/-! ### Cutting blanks off -/

/-- The text from its first character that fails the test. -/
def trimStartBy (p : Char → Bool) (t : Text) : Text :=
  t.dropWhile p

/-- The text up to its last character that fails the test. -/
def trimEndBy (p : Char → Bool) (t : Text) : Text :=
  (t.reverse.dropWhile p).reverse

/-- The text without the blanks at its two ends. -/
def trim (t : Text) : Text :=
  trimEndBy isBlank (trimStartBy isBlank t)

/-! ### Words -/

/-- The maximal runs of characters that are not blank, in order. -/
def words : Text → List Text
  | [] => []
  | c :: cs =>
    if isBlank c then words cs
    else
      match cs, words cs with
      | d :: _, w :: ws => if isBlank d then [c] :: w :: ws else (c :: w) :: ws
      | _, ws => [c] :: ws

/-- The texts one after the other, a single space between neighbours. -/
def spaced (ws : List Text) : Text :=
  List.intercalate [' '] ws

/-- The text after the last occurrence of a character, and what stands before it;
nothing if the character does not occur. -/
def cutLast? (c : Char) : Text → Option (Text × Text)
  | [] => none
  | d :: ds =>
    match cutLast? c ds with
    | some (before, after) => some (d :: before, after)
    | none => if d = c then some ([], ds) else none

end Text

end RunningTab
