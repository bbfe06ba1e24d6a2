import Mathlib.Data.List.Chain
import Mathlib.Data.List.Induction
import RunningTab.Proofs.Display.Lossless
import RunningTab.Proofs.Text.Columns

/-!
# Where lines are broken

A wrapped text is made up of blocks (`RunningTab.Display.Block`): words that share a line, and words
that are wider than a line, cut into pieces that share a line with nothing. Every piece but the last
of a word fills its line. Where one line of words follows another there was no room for the word
that begins it (`RunningTab.Display.Block.Full`).

That is all there is to say. Any words can be arranged like that
(`RunningTab.Display.exists_arranged`), word by word from the first one on, and what they are
arranged to is what wrapping makes of them (`RunningTab.Display.wrapAfter_of_arranged`): the blocks
tell it when to go on with a line and when to break.

All this is said of characters that take a column each (`RunningTab.Text.Simple`). Where a character
takes two columns a piece need not fill its line, and where it takes none a line can have more
characters than columns.
-/

namespace RunningTab

/-! ### Simple characters -/

namespace Text

variable {c : Char} {t w : Text}

/-- **A simple text**: printable ASCII, division signs and blanks. -/
def Simple (t : Text) : Prop :=
  ∀ c ∈ t, isBlank c = true ∨ (0x20 ≤ c.toNat ∧ c.toNat < 0x7f) ∨ c = '÷'

instance (t : Text) : Decidable (Simple t) :=
  List.decidableBAll _ t

/-- A word of a simple text. -/
structure SimpleWord (w : Text) : Prop where
  ne_nil : w ≠ []
  isBlank_of_mem : ∀ c ∈ w, isBlank c = false
  simple : Simple w

theorem Simple.simpleWord (ht : Simple t) (hw : w ∈ words t) : SimpleWord w where
  ne_nil := (of_mem_words hw).1
  isBlank_of_mem c hc := ((of_mem_words hw).2 c hc).2
  simple c hc := ht c ((of_mem_words hw).2 c hc).1

namespace SimpleWord

theorem cases_of_mem (hw : SimpleWord w) (hc : c ∈ w) :
    (0x20 ≤ c.toNat ∧ c.toNat < 0x7f) ∨ c = '÷' :=
  (hw.simple c hc).resolve_left (by rw [hw.isBlank_of_mem c hc]; exact Bool.false_ne_true)

/-- Its clusters are its characters. -/
theorem clusters_eq (hw : SimpleWord w) : clusters w = w.map ([·]) := by
  refine clusters_of_other fun c hc => ?_
  rcases hw.cases_of_mem hc with ⟨hlow, hhigh⟩ | rfl
  · exact clusterClass_of_printable hlow hhigh
  · decide

/-- It has a column for every character. -/
theorem width_eq (hw : SimpleWord w) : width w = w.length := by
  refine width_eq_length_of_narrow (fun c hc => ?_) (fun c hc => ?_) fun hreturn => ?_
  · rcases hw.cases_of_mem hc with ⟨-, hhigh⟩ | rfl
    · exact Nat.lt_trans hhigh (by decide)
    · decide
  · rcases hw.cases_of_mem hc with ⟨-, hhigh⟩ | rfl
    · exact Nat.ne_of_lt (Nat.lt_trans hhigh (by decide))
    · decide
  · exact absurd (hw.isBlank_of_mem '\r' hreturn) (by decide)

theorem singleton (hw : SimpleWord w) (hc : c ∈ w) : SimpleWord [c] where
  ne_nil := List.cons_ne_nil c []
  isBlank_of_mem := List.forall_mem_singleton.2 (hw.isBlank_of_mem c hc)
  simple := List.forall_mem_singleton.2 (hw.simple c hc)

end SimpleWord

end Text

namespace Display

open Text (SimpleWord isBlank spaced spaced_concat spaced_singleton words)

variable {width : Nat} {ps qs line ws : List Text} {piece w : Text}

/-! ### Pieces -/

/-- **Full pieces**: every one but the last is as long as a line, and the last is not longer and not
empty. -/
def FullPieces (width : Nat) (ps : List Text) : Prop :=
  ∃ front last, ps = front ++ [last] ∧ (∀ piece ∈ front, piece.length = width) ∧
    1 ≤ last.length ∧ last.length ≤ width

theorem fullPieces_singleton (hne : piece ≠ []) (hle : piece.length ≤ width) :
    FullPieces width [piece] :=
  ⟨[], piece, rfl, nofun, List.length_pos_of_ne_nil hne, hle⟩

theorem FullPieces.cons (hpiece : piece.length = width) (h : FullPieces width ps) :
    FullPieces width (piece :: ps) := by
  obtain ⟨front, last, rfl, hfront, hlast⟩ := h
  exact ⟨piece :: front, last, rfl, List.forall_mem_cons.2 ⟨hpiece, hfront⟩, hlast⟩

theorem FullPieces.of_mem (hwidth : 0 < width) (h : FullPieces width ps) (hpiece : piece ∈ ps) :
    piece ≠ [] ∧ piece.length ≤ width := by
  obtain ⟨front, last, rfl, hfront, hpos, hle⟩ := h
  rcases List.mem_append.1 hpiece with hmem | hmem
  · have hlength := hfront piece hmem
    exact ⟨List.ne_nil_of_length_pos (by omega), Nat.le_of_eq hlength⟩
  · rw [List.mem_singleton.1 hmem]
    exact ⟨List.ne_nil_of_length_pos hpos, hle⟩

/-- Full pieces are either the whole text, which fits on a line, or a whole line and full pieces of
the rest. -/
theorem FullPieces.whole_or_cons (h : FullPieces width ps) :
    (ps = [ps.flatten] ∧ ps.flatten.length ≤ width) ∨
      ∃ piece rest, ps = piece :: rest ∧ piece.length = width ∧ FullPieces width rest ∧
        width < ps.flatten.length := by
  obtain ⟨front, last, rfl, hfront, hpos, hle⟩ := h
  cases front with
  | nil => exact Or.inl ⟨by simp, by simpa using hle⟩
  | cons piece front =>
    obtain ⟨hpiece, hfront⟩ := List.forall_mem_cons.1 hfront
    refine Or.inr ⟨piece, front ++ [last], rfl, hpiece, ⟨front, last, rfl, hfront, hpos, hle⟩, ?_⟩
    simp only [List.cons_append, List.flatten_cons, List.flatten_append, List.length_append]
    omega

/-- **There is one way to cut a text into full pieces.** -/
theorem FullPieces.eq_of_flatten_eq (hp : FullPieces width ps) (hq : FullPieces width qs)
    (h : ps.flatten = qs.flatten) : ps = qs := by
  induction ps generalizing qs with
  | nil =>
    obtain ⟨front, last, hnil, -⟩ := hp
    simp at hnil
  | cons piece ps ih =>
    rcases hp.whole_or_cons with ⟨hps, hle⟩ | ⟨_, _, heq, hpiece, hrest, hlt⟩
    · rcases hq.whole_or_cons with ⟨hqs, -⟩ | ⟨_, _, -, -, -, hlt⟩
      · rw [hps, hqs, h]
      · exact absurd hlt (by rw [← h]; exact Nat.not_lt.2 hle)
    · obtain ⟨rfl, rfl⟩ := List.cons.inj heq
      rcases hq.whole_or_cons with ⟨-, hle⟩ | ⟨piece', rest', rfl, hpiece', hrest', -⟩
      · exact absurd hlt (by rw [h]; exact Nat.not_lt.2 hle)
      · rw [List.flatten_cons, List.flatten_cons] at h
        obtain ⟨rfl, hflatten⟩ := List.append_inj h (hpiece.trans hpiece'.symm)
        rw [ih hrest hrest' hflatten]

/-- A piece that has begun is gone on with until it is as long as a line. -/
theorem fullPieces_cutAfter (hwidth : 0 < width) (hw : ∀ c ∈ w, clusterColumns [c] = 1)
    (begun : Text) (hbegun : begun.length ≤ width) (hne : begun ++ w ≠ []) :
    FullPieces width ((begun ++ (cutAfter width begun.length (w.map ([·]))).1) ::
      (cutAfter width begun.length (w.map ([·]))).2) := by
  induction w generalizing begun with
  | nil => exact fullPieces_singleton hne (by simpa [cutAfter] using hbegun)
  | cons c w ih =>
    obtain ⟨hc, hw⟩ := List.forall_mem_cons.1 hw
    rw [List.map_cons, cutAfter, hc]
    by_cases hfull : width < begun.length + 1
    · rw [if_pos hfull, List.append_nil]
      exact (ih hw [c] hwidth (List.cons_ne_nil c w)).cons (by omega)
    · have hrest := ih hw (begun ++ [c])
        (by rw [List.length_append, List.length_singleton]; omega) (by simp)
      rw [if_neg hfull]
      rwa [List.length_append, List.length_singleton, List.append_assoc] at hrest

/-- **A word is cut into full pieces.** -/
theorem fullPieces_cutWord (hwidth : 0 < width) (hw : SimpleWord w) :
    FullPieces width (cutWord width w) := by
  have hcolumns (c : Char) (hc : c ∈ w) : clusterColumns [c] = 1 := by
    rw [clusterColumns, (hw.singleton hc).width_eq, List.length_singleton, Nat.max_self]
  have hpieces := fullPieces_cutAfter hwidth hcolumns [] (Nat.zero_le width) hw.ne_nil
  have hflatten := flatten_cutWord width w
  rw [cutWord] at hflatten ⊢
  split at hflatten
  · exact absurd hflatten.symm hw.ne_nil
  · next hsome =>
    rw [if_neg hsome, hw.clusters_eq]
    exact hpieces

/-! ### Blocks -/

/-- **What a wrapped text is made up of.** -/
inductive Block where
  /-- Words that share a line. -/
  | row (ws : List Text)
  /-- The pieces of a word, each on a line of its own. -/
  | pieces (ps : List Text)

namespace Block

/-- The words of a block. -/
def words : Block → List Text
  | row ws => ws
  | pieces ps => [ps.flatten]

/-- The lines of a block. -/
def lines : Block → List Text
  | row ws => [spaced ws]
  | pieces ps => ps

/-- **A block that fits**: its words fit on their line with single spaces between them, so that none
of them is longer than a line; or its word is, and is cut into full pieces. -/
def Fits (width : Nat) : Block → Prop
  | row ws => ws ≠ [] ∧ (spaced ws).length ≤ width
  | pieces ps => width < ps.flatten.length ∧ FullPieces width ps

/-- **A break that is due**: the line has no room for a space and the first word of the next
line. -/
def Full (width : Nat) : Block → Block → Prop
  | row ws, row ws' => ∀ w ∈ ws'.head?, width < (spaced ws).length + 1 + w.length
  | _, _ => True

/-- Whatever the block begins with, there is no room for it on the line. -/
theorem Full.lt_of_mem_head? {b : Block} (h : Full width (row ws) b) (hb : b.Fits width)
    (rest : List Text) :
    ∀ w ∈ (b.words ++ rest).head?, width < (spaced ws).length + 1 + w.length := by
  intro w hw
  cases b with
  | row ws' =>
    rw [words, List.head?_append_of_ne_nil _ hb.1] at hw
    exact h w hw
  | pieces ps =>
    obtain rfl : ps.flatten = w := Option.some.inj hw
    have := hb.1
    omega

end Block

/-- **Words arranged in blocks**: all of them in their order, with no break that is not due. -/
structure Arranged (width : Nat) (ws : List Text) (blocks : List Block) : Prop where
  words_eq : blocks.flatMap Block.words = ws
  fits : ∀ b ∈ blocks, b.Fits width
  full : blocks.IsChain (Block.Full width)

/-- One more block has its words, fits and has a break before it that is due. -/
theorem arranged_concat_iff {blocks : List Block} {b : Block} :
    Arranged width ws (blocks ++ [b]) ↔ ∃ ws', ws = ws' ++ b.words ∧ Arranged width ws' blocks ∧
      b.Fits width ∧ ∀ last ∈ blocks.getLast?, last.Full width b := by
  constructor
  · rintro ⟨rfl, hfits, hfull⟩
    obtain ⟨hfits, hb⟩ := List.forall_mem_append.1 hfits
    obtain ⟨hfull, -, hlast⟩ := List.isChain_append.1 hfull
    refine ⟨_, by rw [List.flatMap_append, List.flatMap_singleton], ⟨rfl, hfits, hfull⟩,
      hb b List.mem_cons_self, fun last hmem => hlast last hmem b rfl⟩
  · rintro ⟨ws', rfl, ⟨rfl, hfits, hfull⟩, hb, hlast⟩
    refine ⟨by rw [List.flatMap_append, List.flatMap_singleton],
      List.forall_mem_append.2 ⟨hfits, List.forall_mem_singleton.2 hb⟩,
      List.isChain_append.2 ⟨hfull, List.isChain_singleton b, fun last hmem b' hb' => ?_⟩⟩
    obtain rfl : b = b' := Option.some.inj hb'
    exact hlast last hmem

/-! ### Lines of words -/

theorem length_spaced_concat (hline : line ≠ []) (w : Text) :
    (spaced (line ++ [w])).length = (spaced line).length + 1 + w.length := by
  rw [spaced_concat hline, List.length_append, List.length_cons]
  omega

theorem length_spaced_le (line ws : List Text) :
    (spaced line).length ≤ (spaced (line ++ ws)).length := by
  induction ws using List.reverseRecOn with
  | nil => rw [List.append_nil]
  | append_singleton ws w ih =>
    rw [← List.append_assoc]
    by_cases hnil : line ++ ws = []
    · rw [(List.append_eq_nil_iff.1 hnil).1]
      exact Nat.zero_le _
    · rw [length_spaced_concat hnil]
      omega

/-- Words that fit go on the line. -/
theorem wrapAfter_append (line rest : List Text) (hws : ∀ w ∈ ws, SimpleWord w)
    (hfits : (spaced (line ++ ws)).length ≤ width) :
    wrapAfter width line (spaced line).length (ws ++ rest) =
      wrapAfter width (line ++ ws) (spaced (line ++ ws)).length rest := by
  induction ws generalizing line with
  | nil => rw [List.append_nil, List.nil_append]
  | cons w ws ih =>
    obtain ⟨hw, hws⟩ := List.forall_mem_cons.1 hws
    have happend : line ++ w :: ws = line ++ [w] ++ ws := by simp
    rw [happend] at hfits ⊢
    rw [← ih (line ++ [w]) hws hfits, List.cons_append, wrapAfter, hw.width_eq]
    have hle := Nat.le_trans (length_spaced_le (line ++ [w]) ws) hfits
    by_cases hline : line = []
    · subst hline
      rw [List.nil_append, spaced_singleton] at hle
      rw [if_neg (Nat.not_lt.2 hle), if_pos rfl, List.nil_append, spaced_singleton]
    · rw [length_spaced_concat hline] at hle ⊢
      rw [if_neg (by omega), if_neg hline, if_neg (by omega), Nat.add_assoc]

/-- The line is broken before a word that has no room on it. -/
theorem wrapAfter_of_full (hline : line ≠ []) (hrest : ∀ w ∈ ws, SimpleWord w)
    (hfull : ∀ w ∈ ws.head?, width < (spaced line).length + 1 + w.length) :
    wrapAfter width line (spaced line).length ws =
      spaced line :: wrapAfter width [] 0 ws := by
  cases ws with
  | nil =>
    rw [wrapAfter, wrapAfter]
    exact hline
  | cons w ws =>
    have hlt := hfull w rfl
    have hw := (hrest w List.mem_cons_self).width_eq
    rw [wrapAfter, wrapAfter, hw, if_neg hline, if_neg hline, if_pos rfl, if_pos rfl]
    by_cases hlong : width < w.length
    · rw [if_pos hlong, if_pos hlong]
      rfl
    · rw [if_neg hlong, if_neg hlong, if_pos (by omega)]

/-! ### Arrangements -/

/-- **What words are arranged to is what wrapping makes of them.** -/
theorem wrapAfter_of_arranged {blocks : List Block} (hwidth : 0 < width)
    (hws : ∀ w ∈ ws, SimpleWord w) (h : Arranged width ws blocks) :
    wrapAfter width [] 0 ws = blocks.flatMap Block.lines := by
  obtain ⟨rfl, hfits, hfull⟩ := h
  induction blocks with
  | nil => rfl
  | cons b blocks ih =>
    obtain ⟨hb, hothers⟩ := List.forall_mem_cons.1 hfits
    obtain ⟨hnext, hchain⟩ := List.isChain_cons.1 hfull
    rw [List.flatMap_cons] at hws ⊢
    obtain ⟨hwords, hrest⟩ := List.forall_mem_append.1 hws
    rw [List.flatMap_cons, ← ih hothers hchain hrest]
    cases b with
    | row ws =>
      obtain ⟨hne, hle⟩ := hb
      have hbreak : ∀ w ∈ (blocks.flatMap Block.words).head?,
          width < (spaced ws).length + 1 + w.length := by
        cases blocks with
        | nil => exact nofun
        | cons b' blocks =>
          exact (hnext b' rfl).lt_of_mem_head? (hothers b' List.mem_cons_self) _
      have happend := wrapAfter_append [] (blocks.flatMap Block.words) hwords hle
      rw [List.nil_append] at happend
      exact happend.trans (wrapAfter_of_full hne hrest hbreak)
    | pieces ps =>
      obtain ⟨hlong, hpieces⟩ := hb
      have hw := hwords ps.flatten List.mem_cons_self
      have hcut : cutWord width ps.flatten = ps :=
        (fullPieces_cutWord hwidth hw).eq_of_flatten_eq hpieces (flatten_cutWord _ _)
      change wrapAfter width [] 0 (ps.flatten :: blocks.flatMap Block.words) = ps ++ _
      rw [wrapAfter, hw.width_eq, if_pos hlong, if_pos rfl, hcut]
      rfl

/-- **Any words can be arranged.** -/
theorem exists_arranged (hwidth : 0 < width) (hws : ∀ w ∈ ws, SimpleWord w) :
    ∃ blocks, Arranged width ws blocks := by
  -- word by word from the first one on: only the last block can take another word
  induction ws using List.reverseRecOn with
  | nil => exact ⟨[], rfl, nofun, .nil⟩
  | append_singleton ws w ih =>
    obtain ⟨hws, hw⟩ := List.forall_mem_append.1 hws
    rw [List.forall_mem_singleton] at hw
    obtain ⟨blocks, hblocks⟩ := ih hws
    by_cases hlong : width < w.length
    · have hb : (Block.pieces (cutWord width w)).Fits width :=
        ⟨by rwa [flatten_cutWord], fullPieces_cutWord hwidth hw⟩
      refine ⟨_, arranged_concat_iff.2 ⟨ws, ?_, hblocks, hb, ?_⟩⟩
      · rw [Block.words, flatten_cutWord]
      · rintro (_ | _) - <;> trivial
    · by_cases hroom : ∃ front line, blocks = front ++ [.row line] ∧
          (spaced line).length + 1 + w.length ≤ width
      · obtain ⟨front, line, rfl, hroom⟩ := hroom
        obtain ⟨ws', rfl, hfront, ⟨hline, -⟩, hlast⟩ := arranged_concat_iff.1 hblocks
        have hb : (Block.row (line ++ [w])).Fits width :=
          ⟨by simp, by rwa [length_spaced_concat hline]⟩
        refine ⟨_, arranged_concat_iff.2 ⟨ws', List.append_assoc .., hfront, hb, ?_⟩⟩
        -- the line begins with the same word as before
        rintro (ws'' | _) hmem
        · intro v hv
          rw [List.head?_append_of_ne_nil _ hline] at hv
          exact hlast _ hmem v hv
        · trivial
      · have hb : (Block.row [w]).Fits width :=
          ⟨List.cons_ne_nil w [], by rw [spaced_singleton]; omega⟩
        refine ⟨_, arranged_concat_iff.2 ⟨ws, rfl, hblocks, hb, ?_⟩⟩
        rintro (line | _) hmem
        · intro v hv
          obtain rfl : w = v := Option.some.inj hv
          obtain ⟨front, rfl⟩ := List.getLast?_eq_some_iff.1 hmem
          exact Nat.not_le.1 fun hle => hroom ⟨front, line, rfl, hle⟩
        · trivial

/-! ### Lines -/

/-- **The lines of a block** are not empty, fit, and have no blank at an end. -/
theorem Block.Fits.of_mem_lines {b : Block} {l : Text} (hwidth : 0 < width) (hb : b.Fits width)
    (hwords : ∀ w ∈ b.words, SimpleWord w) (hl : l ∈ b.lines) :
    l ≠ [] ∧ l.length ≤ width ∧ (∀ c ∈ l.head?, isBlank c = false) ∧
      ∀ c ∈ l.getLast?, isBlank c = false := by
  cases b with
  | row ws =>
    obtain rfl := List.mem_singleton.1 hl
    obtain ⟨hne, hle⟩ := hb
    obtain ⟨⟨first, hfirst, behind, hbehind⟩, last, hlast, before, hbefore⟩ :=
      Text.exists_spaced_eq_append hne
    have hfirst := hwords first hfirst
    have hlast := hwords last hlast
    refine ⟨?_, hle, fun c hc => ?_, fun c hc => ?_⟩
    · rw [hbehind]
      exact List.append_ne_nil_of_left_ne_nil hfirst.ne_nil _
    · rw [hbehind, List.head?_append_of_ne_nil _ hfirst.ne_nil] at hc
      exact hfirst.isBlank_of_mem c (List.mem_of_mem_head? hc)
    · rw [hbefore, List.getLast?_append_of_ne_nil _ hlast.ne_nil] at hc
      exact hlast.isBlank_of_mem c (List.mem_of_getLast? hc)
  | pieces ps =>
    obtain ⟨hne, hle⟩ := hb.2.of_mem hwidth hl
    have hsolid (c : Char) (hc : c ∈ l) : isBlank c = false :=
      (hwords ps.flatten List.mem_cons_self).isBlank_of_mem c (List.mem_flatten.2 ⟨l, hl, hc⟩)
    exact ⟨hne, hle, fun c hc => hsolid c (List.mem_of_mem_head? hc),
      fun c hc => hsolid c (List.mem_of_getLast? hc)⟩

/-- **Wrapping fits and is greedy.** The lines of a simple text are not empty, not longer than the
width, and have no blank at an end. They are those of its words arranged in blocks, and of any such
arrangement: words on a line with single spaces between them, a word that is longer than a line in
full pieces on lines of its own, and a break between two lines of words only where the first word of
the second has no room on the first. -/
theorem wrap_greedy {t : Text} (hwidth : 1 ≤ width) (ht : Text.Simple t) :
    (∀ l ∈ wrap width t, l ≠ [] ∧ l.length ≤ width ∧ (∀ c ∈ l.head?, isBlank c = false) ∧
        ∀ c ∈ l.getLast?, isBlank c = false) ∧
      (∃ blocks, Arranged width (words t) blocks ∧ wrap width t = blocks.flatMap Block.lines) ∧
      ∀ blocks, Arranged width (words t) blocks → wrap width t = blocks.flatMap Block.lines := by
  have hwords (w : Text) (hw : w ∈ words t) : SimpleWord w := ht.simpleWord hw
  have honly (blocks : List Block) (h : Arranged width (words t) blocks) :
      wrap width t = blocks.flatMap Block.lines := by
    rw [wrap, if_neg (Nat.ne_of_gt hwidth), wrapAfter_of_arranged hwidth hwords h]
  obtain ⟨blocks, hblocks⟩ := exists_arranged hwidth hwords
  refine ⟨fun l hl => ?_, ⟨blocks, hblocks, honly blocks hblocks⟩, honly⟩
  rw [honly blocks hblocks] at hl
  obtain ⟨b, hb, hlb⟩ := List.mem_flatMap.1 hl
  refine (hblocks.fits b hb).of_mem_lines hwidth (fun w hw => hwords w ?_) hlb
  rw [← hblocks.words_eq]
  exact List.mem_flatMap.2 ⟨b, hb, hw⟩

/-- A word is cut in two, the words behind it fill a line exactly, and there is no room for the
last. -/
theorem wrap_greedy_exactly_full :
    let t := " 12 123456789 +\t3 ÷  4".toList
    Text.Simple t ∧ words t = ["12", "123456789", "+", "3", "÷", "4"].map String.toList ∧
      wrap 5 t = ["12", "12345", "6789", "+ 3 ÷", "4"].map String.toList ∧
      (∀ l ∈ wrap 5 t, l.length ≤ 5) ∧
      ∃ blocks, Arranged 5 (words t) blocks ∧ wrap 5 t = blocks.flatMap Block.lines := by
  have hsimple : Text.Simple " 12 123456789 +\t3 ÷  4".toList := by decide +kernel
  obtain ⟨hlines, hblocks, -⟩ := wrap_greedy (show 1 ≤ 5 by decide) hsimple
  exact ⟨hsimple, by decide +kernel, by decide +kernel, fun l hl => (hlines l hl).2.1, hblocks⟩

end Display

end RunningTab
