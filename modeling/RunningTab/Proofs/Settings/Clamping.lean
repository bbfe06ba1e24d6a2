import RunningTab.Proofs.Settings.RoundTrip

/-!
# Numbers out of range

A number of pages or of places that is out of range is brought into it, and nothing else in the file
suffers (`RunningTab.Settings.ofFile_clamped`). That needs saying because a file gives its settings
as a whole or not at all: both numbers are read before they are clamped, and one that cannot be read
takes all other settings of its file with it. Whole numbers have 64 bits, and the places of a policy
end at 255; beyond that a file is broken (`RunningTab.Settings.ofFile_not_clamped`).

What a file sets, and whether its other fields can be read, is told by its document
(`RunningTab.Settings.fieldAt`), so it does not matter how the document is written down: with
headers, braces or dotted keys, with digits of any base.
-/

namespace RunningTab.Settings

open Decimal (digits)
open Toml (Entries Node document?)

/-! ### Fields of a document -/

/-- The field of a record, which need not be there; nothing if the record is none. -/
def fieldAt (es : Entries) (record field : String) (position : Nat) : Option (Option Node) :=
  (record? record es).map (Node.field field position)

/-- A field that is missing, or can be read. -/
def Fits {α : Type} (es : Entries) (record field : String) (position : Nat)
    (read : Node → Option α) : Prop :=
  ∃ f, fieldAt es record field position = some f ∧ ∀ node ∈ f, read node ≠ none

section

variable {α : Type} {es es' : Entries} {record field : String} {position : Nat}
  {read : Node → Option α} {standard value value' : α}

theorem reads_iff : Reads es record field position standard read value ↔
    ∃ f, fieldAt es record field position = some f ∧
      Node.orStandard standard read f = some value := by
  simp only [Reads, fieldAt, Option.map_eq_some_iff, orStandard_eq_some_iff]
  constructor
  · rintro ⟨r, hr, hvalue⟩
    exact ⟨_, ⟨r, hr, rfl⟩, hvalue⟩
  · rintro ⟨f, ⟨r, hr, rfl⟩, hvalue⟩
    exact ⟨r, hr, hvalue⟩

/-- Fields that are the same are read as the same. -/
theorem Reads.eq_of_fieldAt_eq (h : Reads es record field position standard read value)
    (h' : Reads es' record field position standard read value')
    (hsame : fieldAt es record field position = fieldAt es' record field position) :
    value = value' := by
  obtain ⟨f, hf, hvalue⟩ := reads_iff.1 h
  obtain ⟨f', hf', hvalue'⟩ := reads_iff.1 h'
  obtain rfl : f = f' := Option.some.inj (hf.symm.trans (hsame.trans hf'))
  exact Option.some.inj (hvalue.symm.trans hvalue')

/-- What fits is read as something. -/
theorem Fits.exists_reads (h : Fits es record field position read) (standard : α) :
    ∃ value, Reads es record field position standard read value := by
  obtain ⟨f, hf, hread⟩ := h
  cases f with
  | none => exact ⟨standard, reads_iff.2 ⟨none, hf, rfl⟩⟩
  | some node =>
    obtain ⟨value, hvalue⟩ := Option.ne_none_iff_exists'.1 (hread node rfl)
    exact ⟨value, reads_iff.2 ⟨some node, hf, hvalue⟩⟩

end

/-- **A document sets the two numbers**: the pages as a whole number, the places as a text in
digits. -/
structure SetsNumbers (es : Entries) (pages places : Nat) : Prop where
  pages : fieldAt es "ledger" "pages" 0 = some (some (.integer pages))
  decimals : fieldAt es "display" "decimals" 0 = some (some (.text (digits places)))

/-- **A document is valid elsewhere**: the other four fields are missing or can be read. -/
structure FitsElsewhere (es : Entries) : Prop where
  defaultRate : Fits es "tax" "default_rate" 0 Node.toFloat?
  rates : Fits es "tax" "rates" 1 Node.toFloats?
  gstMode : Fits es "tax" "gst_mode" 2 Node.toBool?
  grouping : Fits es "display" "grouping" 1 Node.toGrouping?

/-- **Documents that are the same elsewhere**, in the other four fields. -/
structure SameElsewhere (es es' : Entries) : Prop where
  defaultRate : fieldAt es "tax" "default_rate" 0 = fieldAt es' "tax" "default_rate" 0
  rates : fieldAt es "tax" "rates" 1 = fieldAt es' "tax" "rates" 1
  gstMode : fieldAt es "tax" "gst_mode" 2 = fieldAt es' "tax" "gst_mode" 2
  grouping : fieldAt es "display" "grouping" 1 = fieldAt es' "display" "grouping" 1

variable {t : Text} {es es' : Entries} {n m : Nat} {s s' : Settings}

theorem FitsElsewhere.of_same (h : FitsElsewhere es) (hsame : SameElsewhere es es') :
    FitsElsewhere es' where
  defaultRate := by
    rw [Fits, ← hsame.defaultRate]
    exact h.defaultRate
  rates := by
    rw [Fits, ← hsame.rates]
    exact h.rates
  gstMode := by
    rw [Fits, ← hsame.gstMode]
    exact h.gstMode
  grouping := by
    rw [Fits, ← hsame.grouping]
    exact h.grouping

/-- A document that sets the numbers and is valid elsewhere gives settings with these numbers. -/
theorem SetsNumbers.exists_gives (h : SetsNumbers es n m) (hm : m ≤ 255)
    (helsewhere : FitsElsewhere es) :
    ∃ s, Gives es s ∧ s.pages = n ∧ s.decimals = .fixed m := by
  have hpages : Reads es "ledger" "pages" 0 standard.pages Node.toCount? n := by
    refine reads_iff.2 ⟨_, h.pages, ?_⟩
    change (if (0 : Int) ≤ n then some (n : Int).toNat else none) = some n
    rw [if_pos (Int.natCast_nonneg n), Int.toNat_natCast]
  have hdecimals : Reads es "display" "decimals" 0 standard.decimals Node.toPolicy?
      (.fixed m) := by
    refine reads_iff.2 ⟨_, h.decimals, ?_⟩
    change (DecimalPlaces.ofText (digits m)).toOption = some (.fixed m)
    rw [ofText_digits, if_pos hm]
    rfl
  obtain ⟨defaultRate, hdefaultRate⟩ :=
    helsewhere.defaultRate.exists_reads standard.defaultRate
  obtain ⟨rates, hrates⟩ := helsewhere.rates.exists_reads standard.rates
  obtain ⟨gstMode, hgstMode⟩ := helsewhere.gstMode.exists_reads standard.gstMode
  obtain ⟨grouping, hgrouping⟩ := helsewhere.grouping.exists_reads standard.grouping
  exact ⟨⟨n, defaultRate, rates, gstMode, .fixed m, grouping⟩,
    ⟨hpages, hdefaultRate, hrates, hgstMode, hdecimals, hgrouping⟩, rfl, rfl⟩

/-- Settings of documents that are the same elsewhere differ in the two numbers only. -/
theorem Gives.eq_of_same (h : Gives es s) (h' : Gives es' s') (hsame : SameElsewhere es es') :
    s = { s' with pages := s.pages, decimals := s.decimals } := by
  have hdefaultRate := h.defaultRate.eq_of_fieldAt_eq h'.defaultRate hsame.defaultRate
  have hrates := h.rates.eq_of_fieldAt_eq h'.rates hsame.rates
  have hgstMode := h.gstMode.eq_of_fieldAt_eq h'.gstMode hsame.gstMode
  have hgrouping := h.grouping.eq_of_fieldAt_eq h'.grouping hsame.grouping
  rw [← hdefaultRate, ← hrates, ← hgstMode, ← hgrouping]

/-! ### Files -/

theorem Gives.ofFile_eq (h : Gives es s) (hes : document? t = some es) :
    ofFile (some t) = s.validated := by
  have htext : ofText? t = some s := by
    rw [ofText?, hes, Option.bind_some]
    exact ofDocument?_eq_some_iff.2 h
  rw [ofFile, Option.bind_some, htext, Option.getD_some]

/-- **Numbers out of range are clamped and nothing is discarded.** A file that sets any number of
pages, and up to 255 places, and is otherwise valid is loaded with both numbers in range. All its
other settings are what their own fields are read as, validated, so they are those of any file that
has other numbers, such as ones in range, and is the same elsewhere. In particular the file that is
saved for settings, with two other numbers written into it, is loaded as these settings with the two
numbers in range; of the pages up to 64 bits. -/
theorem ofFile_clamped (n m : Nat) (hm : m ≤ 255) :
    (∀ t es, document? t = some es → SetsNumbers es n m → FitsElsewhere es →
      (∃ s, Gives es s ∧ ofFile (some t) = { s.validated with
        pages := max 1 (min n 9), decimals := .fixed (min m 10) }) ∧
        ∀ t' es' n' m', document? t' = some es' → SetsNumbers es' n' m' → m' ≤ 255 →
          SameElsewhere es es' → ofFile (some t) = { ofFile (some t') with
            pages := max 1 (min n 9), decimals := .fixed (min m 10) }) ∧
      ∀ s : Settings, s.InRange → n < 2 ^ 63 →
        ofFile (some { s with pages := n, decimals := .fixed m }.text) =
          { s with pages := max 1 (min n 9), decimals := .fixed (min m 10) } := by
  refine ⟨fun t es hes hsets helsewhere => ?_, fun s hs hn => ?_⟩
  · obtain ⟨s, hgives, rfl, hdecimals⟩ := hsets.exists_gives hm helsewhere
    have hvalid : ofFile (some t) = { s.validated with
        pages := max 1 (min s.pages 9), decimals := .fixed (min m 10) } := by
      rw [hgives.ofFile_eq hes, validated, hdecimals]
      rfl
    refine ⟨⟨s, hgives, hvalid⟩, fun t' es' n' m' hes' hsets' hm' hsame => ?_⟩
    obtain ⟨s', hgives', -, -⟩ := hsets'.exists_gives hm' (helsewhere.of_same hsame)
    rw [hvalid, hgives'.ofFile_eq hes', hgives.eq_of_same hgives' hsame]
    rfl
  · have hlegible : ({ s with pages := n, decimals := .fixed m } : Settings).Legible :=
      ⟨hn, hs.defaultRate, List.ne_nil_of_length_pos hs.length_rates.1, hs.rates,
        Or.inr ⟨m, hm, rfl⟩⟩
    have hvalid : ({ s with pages := n, decimals := .fixed m } : Settings).validated =
        { s.validated with pages := max 1 (min n 9), decimals := .fixed (min m 10) } := rfl
    rw [ofFile_text_of_legible hlegible, hvalid, hs.validated_eq]

/-- The largest numbers that can be read, in a file with dotted keys, another base and a rate, and
in the file that is saved for the standard settings. -/
theorem ofFile_clamped_largest :
    let t := ("ledger.pages = 0x7fffffffffffffff\ntax.rates = [3]\n" ++
      "[display]\ndecimals = \"255\"").toList
    let t' := "[display]\ndecimals = \"7\"\n[tax]\nrates = [3]\n[ledger]\npages = 5".toList
    255 ≤ 255 ∧ (ofFile (some t)).pages = 9 ∧ (ofFile (some t)).decimals = .fixed 10 ∧
      ofFile (some t) = { ofFile (some t') with pages := 9, decimals := .fixed 10 } ∧
      ofFile (some { standard with pages := 0x7fffffffffffffff, decimals := .fixed 255 }.text) =
        { standard with pages := 9, decimals := .fixed 10 } := by
  have hes : document? ("ledger.pages = 0x7fffffffffffffff\ntax.rates = [3]\n" ++
      "[display]\ndecimals = \"255\"").toList =
      some [("ledger".toList, .table .dotted [("pages".toList, .integer 0x7fffffffffffffff)]),
        ("tax".toList, .table .dotted [("rates".toList, .array [.integer 3])]),
        ("display".toList, .table .header [("decimals".toList, .text "255".toList)])] := rfl
  have hes' : document?
      "[display]\ndecimals = \"7\"\n[tax]\nrates = [3]\n[ledger]\npages = 5".toList =
      some [("display".toList, .table .header [("decimals".toList, .text "7".toList)]),
        ("tax".toList, .table .header [("rates".toList, .array [.integer 3])]),
        ("ledger".toList, .table .header [("pages".toList, .integer 5)])] := rfl
  obtain ⟨hfile, hsaved⟩ := ofFile_clamped 0x7fffffffffffffff 255 (Nat.le_refl _)
  obtain ⟨⟨s, -, hvalid⟩, hsame⟩ := hfile _ _ hes ⟨rfl, rfl⟩
    ⟨⟨none, rfl, nofun⟩, ⟨_, rfl, fun node hnode => Option.some.inj hnode ▸ Option.some_ne_none _⟩,
      ⟨none, rfl, nofun⟩, ⟨none, rfl, nofun⟩⟩
  exact ⟨Nat.le_refl _, congrArg pages hvalid, congrArg decimals hvalid,
    hsame _ _ 5 7 hes' ⟨rfl, rfl⟩ (by decide) ⟨rfl, rfl, rfl, rfl⟩,
    hsaved standard inRange_standard (by decide)⟩

/-- **A number that cannot be read is not clamped.** With one more page than 64 bits can hold, or
one more place than 255, the file is broken: the other number and the tax mode of the file are lost
as well. -/
theorem ofFile_not_clamped :
    let file (pages places : String) : Text :=
      ("[ledger]\npages = " ++ pages ++ "\n\n[tax]\ngst_mode = true\n\n" ++
        "[display]\ndecimals = \"" ++ places ++ "\"\n").toList
    let loaded (pages places : String) : Nat × DecimalPlaces × Bool :=
      let s := ofFile (some (file pages places))
      (s.pages, s.decimals, s.gstMode)
    let clamped (n m : Nat) : Nat × DecimalPlaces × Bool :=
      (max 1 (min n 9), .fixed (min m 10), true)
    loaded "9223372036854775807" "255" = clamped 9223372036854775807 255 ∧
      loaded "9223372036854775808" "3" = (4, .fixed 2, false) ∧
      loaded "9223372036854775808" "3" ≠ clamped 9223372036854775808 3 ∧
      loaded "40" "256" = (4, .fixed 2, false) ∧ loaded "40" "256" ≠ clamped 40 256 := by
  decide +kernel

end RunningTab.Settings
