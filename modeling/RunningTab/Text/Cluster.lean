import RunningTab.Text.ClusterTable

/-!
# Grapheme clusters

A text falls apart into what readers take for single characters, its extended grapheme clusters
(`RunningTab.Text.clusters`). Whether two neighbours belong together depends on their classes and on
a little of what came before, which the state keeps: whether an emoji can be continued by a joined
one, whether a consonant waits for another that is linked to it, and whether a regional indicator
still waits for its partner.
-/

namespace RunningTab.Text

/-- The classes of characters that the rules tell apart. -/
inductive ClusterClass where
  | carriageReturn
  | lineFeed
  | control
  | extend
  /-- A character of the class `extend` that links two consonants. -/
  | linker
  /-- The character of the class `extend` that keeps its neighbours apart. -/
  | nonJoiner
  | joiner
  | regional
  | leading
  | spacing
  | hangulL
  | hangulV
  | hangulT
  | hangulLV
  | hangulLVT
  | pictograph
  /-- A letter that a linker joins to another such letter. -/
  | consonant
  | other
  deriving DecidableEq, Repr

/-- The class of a character. -/
def clusterClass (c : Char) : ClusterClass :=
  let n := c.toNat
  if n = 0xd then .carriageReturn
  else if n = 0xa then .lineFeed
  else if 0x20 ≤ n ∧ n < 0x7f then .other
  else if n = 0x200c then .nonJoiner
  else if n = 0x200d then .joiner
  else if 0x1f1e6 ≤ n ∧ n ≤ 0x1f1ff then .regional
  else if (0x1100 ≤ n ∧ n ≤ 0x115f) ∨ (0xa960 ≤ n ∧ n ≤ 0xa97c) then .hangulL
  else if (0x1160 ≤ n ∧ n ≤ 0x11a7) ∨ (0xd7b0 ≤ n ∧ n ≤ 0xd7c6) then .hangulV
  else if (0x11a8 ≤ n ∧ n ≤ 0x11ff) ∨ (0xd7cb ≤ n ∧ n ≤ 0xd7fb) then .hangulT
  else if 0xac00 ≤ n ∧ n ≤ 0xd7a3 then
    if (n - 0xac00) % 28 = 0 then .hangulLV else .hangulLVT
  else if inRanges n conjunctConsonant then .consonant
  else if inRanges n conjunctLinker then .linker
  else if inRanges n clusterControl then .control
  else if inRanges n clusterExtend then .extend
  else if inRanges n clusterSpacingMark then .spacing
  else if inRanges n clusterPrepend then .leading
  else if inRanges n pictographic then .pictograph
  else .other

/-- Whether a class extends every cluster that is no break. -/
def ClusterClass.isExtending : ClusterClass → Bool
  | extend | linker | nonJoiner => true
  | _ => false

/-- What the rules need to know of the characters before a boundary. -/
structure ClusterState where
  /-- The class of the last character. -/
  last : ClusterClass
  /-- Whether the characters end in a pictograph and characters that extend it. -/
  pictured : Bool
  /-- Whether they end in a joiner behind such a pictograph. -/
  joined : Bool
  /-- Whether they end in a consonant and characters that do not part it from another. -/
  consonantal : Bool
  /-- Whether there is a linker among these. -/
  linked : Bool
  /-- Whether they end in a regional indicator without a partner. -/
  unpaired : Bool

namespace ClusterState

/-- The state after the first character of a text. -/
def start (c : ClusterClass) : ClusterState where
  last := c
  pictured := c == .pictograph
  joined := false
  consonantal := c == .consonant
  linked := false
  unpaired := c == .regional

/-- The state after one more character. -/
def next (s : ClusterState) (c : ClusterClass) : ClusterState where
  last := c
  pictured := c == .pictograph || c.isExtending && s.pictured
  joined := c == .joiner && s.pictured
  consonantal := c == .consonant ||
    (c == .extend || c == .linker || c == .joiner) && s.consonantal
  linked := s.consonantal && (c == .linker || (c == .extend || c == .joiner) && s.linked)
  unpaired := c == .regional && !s.unpaired

/-- Whether a class ends every cluster. -/
def isBreak : ClusterClass → Bool
  | .control | .carriageReturn | .lineFeed => true
  | _ => false

/-- Whether a Hangul letter or syllable is continued by another. -/
def continuesHangul : ClusterClass → ClusterClass → Bool
  | .hangulL, .hangulL | .hangulL, .hangulV | .hangulL, .hangulLV | .hangulL, .hangulLVT
  | .hangulLV, .hangulV | .hangulLV, .hangulT | .hangulV, .hangulV | .hangulV, .hangulT
  | .hangulLVT, .hangulT | .hangulT, .hangulT => true
  | _, _ => false

/-- Whether a cluster goes on with a character of the given class. -/
def continues (s : ClusterState) (c : ClusterClass) : Bool :=
  if s.last == .carriageReturn && c == .lineFeed then true
  else if isBreak s.last || isBreak c then false
  else
    continuesHangul s.last c || c.isExtending || c == .joiner || c == .spacing ||
      s.last == .leading || (s.joined && c == .pictograph) || (s.linked && c == .consonant) ||
      (s.unpaired && c == .regional)

end ClusterState

/-- The rest of a begun cluster, and the clusters after it. -/
def clustersAfter (s : ClusterState) : Text → Text × List Text
  | [] => ([], [])
  | c :: t =>
    let r := clustersAfter (s.next (clusterClass c)) t
    if s.continues (clusterClass c) then (c :: r.1, r.2) else ([], (c :: r.1) :: r.2)

/-- **The grapheme clusters of a text.** -/
def clusters : Text → List Text
  | [] => []
  | c :: t =>
    let r := clustersAfter (.start (clusterClass c)) t
    (c :: r.1) :: r.2

end RunningTab.Text
