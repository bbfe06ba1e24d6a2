import RunningTab.Text.WidthTable

/-!
# Ligatures

Some scripts show two letters as one. Which letters these are is a list of rules
(`RunningTab.Text.ligatureRules`); every rule names the first and the second letters, what may stand
between them without parting them, and the columns of the whole, so a text is measured by asking the
rules what it begins with (`RunningTab.Text.ligature?`).
-/

namespace RunningTab.Text

/-- The character that joins its neighbours. -/
def joiner : Char := '\u200D'

/-- Letters that are shown as one. -/
structure LigatureRule where
  /-- The numbers of the first letters. -/
  first : List CharRange
  /-- The numbers of the second letters. -/
  second : List CharRange
  /-- The characters that may stand between the two. -/
  between : Char → Bool
  /-- Those of them that must occur there; every character if none must. -/
  needed : Option (Char → Bool)
  /-- The columns of the ligature. -/
  columns : Nat

/-- The marks over and under Arabic letters: characters without a column that join nothing. -/
def isMark (c : Char) : Bool :=
  inRanges c.toNat columnless && c != joiner && c != '\u200C'

/-- The marks that change how a letter looks without being seen themselves, and the joiner. -/
def isUnseen (c : Char) : Bool :=
  inRanges c.toNat [(0x34f, 0x34f), (0x17b4, 0x17b5), (0x180b, 0x180d), (0x180f, 0x180f),
    (0x200d, 0x200d), (0xfe00, 0xfe0f), (0xe0100, 0xe01ef)]

/-- The Arabic letter `lam` before an `alef`. -/
def lamAlef : LigatureRule where
  first := [(0x644, 0x644), (0x6b5, 0x6b8), (0x76a, 0x76a), (0x8a6, 0x8a6), (0x8c7, 0x8c7)]
  second := [(0x622, 0x623), (0x625, 0x625), (0x627, 0x627), (0x671, 0x673), (0x675, 0x675),
    (0x773, 0x774), (0x870, 0x882)]
  between := isMark
  needed := none
  columns := 1

/-- The Hebrew letters `alef` and `lamed` with a joiner between them. -/
def alefLamed : LigatureRule where
  first := [(0x5d0, 0x5d0)]
  second := [(0x5dc, 0x5dc)]
  between := isUnseen
  needed := some (· == joiner)
  columns := 1

/-- A Khmer letter below another: the sign that sinks it, and the letter itself. -/
def sunkenLetter : LigatureRule where
  first := [(0x17d2, 0x17d2)]
  second := [(0x1780, 0x1782), (0x1784, 0x1787), (0x1789, 0x178c), (0x178e, 0x1793),
    (0x1795, 0x1798), (0x179b, 0x179d), (0x17a0, 0x17a0), (0x17a2, 0x17a2), (0x17a7, 0x17a7),
    (0x17ab, 0x17ac), (0x17af, 0x17af)]
  between := isUnseen
  needed := none
  columns := 0

/-- The Tifinagh consonants. -/
def tifinaghConsonants : List CharRange := [(0x2d31, 0x2d65), (0x2d6f, 0x2d6f)]

/-- Two Tifinagh consonants with a joiner, or the joiner of that script, between them. -/
def consonantPair : LigatureRule where
  first := tifinaghConsonants
  second := tifinaghConsonants
  between := fun c => isUnseen c || c == '\u2D7F'
  needed := some fun c => c == joiner || c == '\u2D7F'
  columns := 1

/-- Two Lisu tone letters. -/
def tonePair : LigatureRule where
  first := [(0xa4f8, 0xa4fb)]
  second := [(0xa4fc, 0xa4fd)]
  between := isUnseen
  needed := none
  columns := 1

/-- The Old Turkic letters `ec` and `i` with a joiner between them. -/
def runePair : LigatureRule where
  first := [(0x10c32, 0x10c32)]
  second := [(0x10c03, 0x10c03)]
  between := isUnseen
  needed := some (· == joiner)
  columns := 1

/-- The rules for ligatures. -/
def ligatureRules : List LigatureRule :=
  [lamAlef, alefLamed, sunkenLetter, consonantPair, tonePair, runePair]

/-- The number of characters of a rule's ligature at the head of a text, if there is one. -/
def LigatureRule.length? (r : LigatureRule) : Text → Option Nat
  | [] => none
  | c :: t =>
    let gap := t.takeWhile r.between
    match t.drop gap.length with
    | [] => none
    | d :: _ =>
      if inRanges c.toNat r.first && inRanges d.toNat r.second && r.needed.all gap.any then
        some (gap.length + 2)
      else none

/-- **The ligature at the head of a text**, if there is one: how many characters it has and how many
columns it takes. -/
def ligature? (t : Text) : Option (Nat × Nat) :=
  if t.head?.any (0x5d0 ≤ ·.toNat) then
    ligatureRules.findSome? fun r => (r.length? t).map (·, r.columns)
  else none

end RunningTab.Text
