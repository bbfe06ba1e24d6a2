import RunningTab.Text.Ligature

/-!
# Column widths

How many columns of a terminal a text takes (`RunningTab.Text.width`). A character takes none, one
or two columns, control characters one. Three things are not sums of characters: a carriage return
with its line feed takes one column, an emoji sequence takes two, however many characters it is
made of (`RunningTab.Text.emojiLength`), and a ligature takes what its rule says
(`RunningTab.Text.ligature?`).
-/

namespace RunningTab.Text

/-- The columns of a single character. -/
def charWidth (c : Char) : Nat :=
  let n := c.toNat
  if n < 0x300 then (if n = 0xad then 0 else 1)
  else if inRanges n columnless then 0
  else if inRanges n doubleWidth then 2
  else 1

/-! ### Emoji sequences -/

/-- The character that asks for an emoji before it to be shown as one. -/
def emojiSelector : Char := '\uFE0F'

/-- The skin tones. -/
def isModifier (c : Char) : Bool :=
  0x1f3fb ≤ c.toNat && c.toNat ≤ 0x1f3ff

/-- The regional indicators, two of which make a flag. -/
def isRegional (c : Char) : Bool :=
  0x1f1e6 ≤ c.toNat && c.toNat ≤ 0x1f1ff

/-- The number of characters of a single emoji at the head of a text, zero if there is none: a flag,
an emoji with a skin tone, one with a selector, or one that needs neither. A regional indicator
alone is none. -/
def emojiElementLength : Text → Nat
  | [] => 0
  | c :: t =>
    if c.toNat < 0x203c && t.head? != some emojiSelector then 0
    else if isRegional c then (if t.head?.any isRegional then 2 else 0)
    else if inRanges c.toNat emojiModifierBase && t.head?.any isModifier then 2
    else if inRanges c.toNat emoji && t.head? == some emojiSelector then 2
    else if inRanges c.toNat emojiPresentation then 1
    else 0

/-- The number of characters that further emoji and their joiners take. The first number bounds how
many there are. -/
def joinedLength : Nat → Text → Nat
  | n + 1, c :: t =>
    if c = joiner ∧ emojiElementLength t ≠ 0 then
      1 + emojiElementLength t + joinedLength n (t.drop (emojiElementLength t))
    else 0
  | _, _ => 0

/-- The number of characters of an emoji sequence at the head of a text, zero if there is none. -/
def emojiLength (t : Text) : Nat :=
  let first := emojiElementLength t
  if first = 0 then 0 else first + joinedLength t.length (t.drop first)

/-! ### Texts -/

/-- The columns of a text whose first `skipped` characters belong to an emoji sequence or a ligature
counted before. -/
def widthAfter : (skipped : Nat) → Text → Nat
  | _, [] => 0
  | k + 1, _ :: t => widthAfter k t
  | 0, c :: t =>
    match emojiLength (c :: t) with
    | n + 1 => 2 + widthAfter n t
    | 0 =>
      match ligature? (c :: t) with
      | some (n, columns) => columns + widthAfter (n - 1) t
      | none => (if c = '\r' ∧ t.head? = some '\n' then 0 else charWidth c) + widthAfter 0 t

/-- **The columns of a text.** -/
def width (t : Text) : Nat :=
  widthAfter 0 t

end RunningTab.Text
