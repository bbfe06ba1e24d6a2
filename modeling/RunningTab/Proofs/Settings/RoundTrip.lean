import RunningTab.CommandLine.Files
import RunningTab.Proofs.Decimal.LowerBound
import RunningTab.Proofs.Decimal.ReadBack
import RunningTab.Proofs.Settings.Reading
import RunningTab.Proofs.Text.Cutting
import RunningTab.Proofs.Toml.Lines
import RunningTab.Settings.Writing

/-!
# Settings written and read

What is loaded from a file can be saved and loaded again, and comes back as it was
(`RunningTab.Settings.ofFile_inverse`). It need not come back from the same text: a file may leave
fields out, write rates as whole numbers, or be broken. But all that matters for the way back is
that the settings are in range, and validation sees to that.

The text of settings is read as what they are validated to, already if their numbers of pages and
of places are not too large to be read at all (`RunningTab.Settings.ofFile_text_of_legible`). It is
a document whose statements are known one by one (`RunningTab.Settings.statements?_text`), and the
document gives the settings. The floats are the hard part: a rate may be of any size, its text has
up to three hundred digits before the point or more than that behind it, and still it is read as the
same bits (`RunningTab.Settings.isScalar_floatText`). The one usable rate with a sign is the
negative zero.
-/

namespace RunningTab

namespace Settings

open Decimal (IsPointed Magnitude digits isNegative ofDigits positional pointed pointedValue)
open Toml (IsScalar IsValue Node Statement)

/-! ### Floats -/

/-- The text of a number without a sign is digits with a point, and what they denote is in the
interval of the number. -/
theorem exists_pointed_floatText {x : Float} (hfinite : x.isFinite = true)
    (hsign : isNegative x = false) :
    ∃ whole fraction, IsPointed whole fraction ∧ floatText x = whole ++ '.' :: fraction ∧
      (Magnitude.ofFloat x).Encloses (pointedValue whole fraction) := by
  obtain ⟨hinf, hnan⟩ := Decimal.isInf_and_isNaN_of_isFinite hfinite
  obtain ⟨whole, fraction, hplaced, htext, hencloses⟩ :=
    (Magnitude.ofFloat x).exists_placed_text
  have hshort : Decimal.shortText x = whole ++ Decimal.fractionText fraction := by
    rw [Decimal.shortText, hnan, hsign, hinf, ← htext]
    rfl
  rw [floatText, hshort, Decimal.fractionText]
  by_cases hnone : fraction = []
  · -- without a point the text is given one, with a zero behind it
    subst hnone
    rw [if_pos rfl, List.append_nil, if_neg (by
      rw [List.contains_iff_mem]
      exact Decimal.dot_not_mem hplaced.isDigit_whole)]
    refine ⟨whole, ['0'], ⟨hplaced.whole_ne_nil, hplaced.isDigit_whole, hplaced.no_zero_ahead,
      List.cons_ne_nil _ _, List.forall_mem_singleton.2 rfl⟩, rfl, ?_⟩
    have hsame : pointedValue whole ['0'] = pointedValue whole [] :=
      Decimal.pointedValue_append_zeros whole [] 1
    rwa [hsame]
  · rw [if_neg hnone, if_pos (by simp)]
    exact ⟨whole, fraction, ⟨hplaced.whole_ne_nil, hplaced.isDigit_whole, hplaced.no_zero_ahead,
      hnone, hplaced.isDigit_fraction⟩, rfl, hencloses⟩

/-- The only usable rate with a sign is the negative zero. -/
theorem eq_negative_zero {x : Float} (hfinite : x.isFinite = true) (hle : 0.0 ≤ x)
    (hsign : isNegative x = true) : x = -0.0 := by
  rcases Decimal.eq_negative_zero_or_neg hfinite hsign with hzero | ⟨hvalue, -⟩
  · exact hzero
  · exact absurd (Decimal.zero_le_value_of_le hfinite hle) (not_le.2 hvalue)

/-- **The text of a usable rate is read as that rate.** -/
theorem isScalar_floatText {x : Float} (hfinite : x.isFinite = true) (hle : 0.0 ≤ x) :
    IsScalar (floatText x) (.float x) := by
  cases hsign : isNegative x with
  | false =>
    obtain ⟨whole, fraction, hpointed, htext, hencloses⟩ := exists_pointed_floatText hfinite hsign
    rw [htext]
    exact Toml.isScalar_of_isPointed hpointed
      (Decimal.nearestScaled_of_encloses hfinite hsign hencloses)
      (Decimal.isInf_and_isNaN_of_isFinite hfinite).1
  | true =>
    obtain rfl := eq_negative_zero hfinite hle hsign
    have htext : floatText (-0.0) = "-0.0".toList := by decide
    rw [htext]
    exact ⟨by decide, List.all_eq_true.1 rfl, by rfl⟩

/-! ### Values -/

theorem isValue_floatsText {rates : List Float} (hne : rates ≠ [])
    (h : ∀ rate ∈ rates, rate.isFinite = true ∧ 0.0 ≤ rate) :
    IsValue (floatsText rates) (.array (rates.map .float)) := by
  have hscalar : ∀ rate ∈ rates, IsScalar (floatText rate) (.float rate) :=
    fun rate hrate => isScalar_floatText (h rate hrate).1 (h rate hrate).2
  match rates, hne with
  | [rate], _ => exact Toml.isValue_singleton (hscalar rate List.mem_cons_self)
  | _ :: _ :: _, _ => exact Toml.isValue_lines hscalar

theorem isValue_boolText (b : Bool) : IsValue (boolText b) (.boolean b) := by
  refine IsScalar.isValue ?_
  cases b with
  | true => exact ⟨by decide, List.all_eq_true.1 rfl, by rfl⟩
  | false => exact ⟨by decide, List.all_eq_true.1 rfl, by rfl⟩

theorem isValue_quotedText {t : Text} (hne : t ≠ []) (h : ∀ c ∈ t, Toml.isPlain c = true) :
    IsValue (quotedText t) (.text t) :=
  Toml.isValue_quoted hne h

/-- A digit is neither blank nor in need of an escape. -/
theorem not_blank_and_plain_of_isDigit {c : Char} (h : Text.isDigit c = true) :
    Text.isBlank c = false ∧ Toml.isPlain c = true := by
  obtain ⟨hlow, hhigh⟩ := Decimal.toNat_of_isDigit h
  refine ⟨?_, ?_⟩
  · simp only [Text.isBlank, Bool.or_eq_false_iff, Bool.and_eq_false_iff, decide_eq_false_iff_not,
      beq_eq_false_iff_ne]
    omega
  · have hquote : c ≠ '"' := by
      rintro rfl
      exact absurd hlow (by decide)
    have hbackslash : c ≠ '\\' := by
      rintro rfl
      exact absurd hhigh (by decide)
    rw [Toml.isPlain, Toml.isPrintable, bne_iff_ne.2 hquote, bne_iff_ne.2 hbackslash,
      decide_eq_true (by omega : 0x20 ≤ c.toNat), decide_eq_true (by omega : c.toNat ≠ 0x7f)]
    simp

/-- **A number of places is read up to 255.** -/
theorem ofText_digits (places : Nat) : DecimalPlaces.ofText (digits places) =
    if places ≤ 255 then .ok (.fixed places)
    else .error (DecimalPlaces.refusal (digits places)) := by
  have hdigit : ∀ c ∈ digits places, Text.isDigit c = true :=
    fun c hc => Decimal.isDigit_of_mem_digits hc
  have hword : (digits places).map Char.toLower ≠ "auto".toList := by
    intro heq
    have hmem : 'a' ∈ (digits places).map Char.toLower := by
      rw [heq]
      decide
    obtain ⟨c, hc, hlower⟩ := List.mem_map.1 hmem
    rw [Decimal.toLower_of_isFigure (by rw [Decimal.isFigure, hdigit c hc, Bool.true_or])] at hlower
    subst hlower
    exact absurd (hdigit 'a' hc) (by decide)
  rw [DecimalPlaces.ofText, if_neg hword,
    Text.trim_of_not_blank fun c hc => (not_blank_and_plain_of_isDigit (hdigit c hc)).1,
    Decimal.readWhole?_digits, DecimalPlaces.maxPlaces]
  by_cases hplaces : places ≤ 255
  · rw [if_pos hplaces, if_pos hplaces]
  · rw [if_neg hplaces, if_neg hplaces]

/-- The text of a policy names it. -/
theorem ofText_text {policy : DecimalPlaces}
    (h : policy = .auto ∨ ∃ places ≤ 255, policy = .fixed places) :
    policy.text ≠ [] ∧ (∀ c ∈ policy.text, Toml.isPlain c = true) ∧
      DecimalPlaces.ofText policy.text = .ok policy := by
  rcases h with rfl | ⟨places, hplaces, rfl⟩
  · exact ⟨by decide, List.all_eq_true.1 rfl, rfl⟩
  · refine ⟨Decimal.digits_ne_nil places, fun c hc => ?_, ?_⟩
    · exact (not_blank_and_plain_of_isDigit (Decimal.isDigit_of_mem_digits hc)).2
    · rw [DecimalPlaces.text, ofText_digits, if_pos hplaces]

/-- The word of a grouping names it. -/
theorem ofWord?_word (g : Grouping) :
    g.word ≠ [] ∧ (∀ c ∈ g.word, Toml.isPlain c = true) ∧ Grouping.ofWord? g.word = some g := by
  cases g <;> exact ⟨by decide, List.all_eq_true.1 rfl, by rfl⟩

/-! ### Documents -/

/-- A line that is written is a pair that is read. -/
theorem statementsWithin_line {key : String} {value rest : Text} {node : Node}
    (hkey : Toml.IsBareKey key.toList) (hvalue : IsValue value node) (n : Nat) :
    Toml.statementsWithin (n + 1) (line key value ++ rest) =
      (Toml.statementsWithin n rest).map (.pair [key.toList] node :: ·) := by
  rw [← Toml.statementsWithin_pair hkey hvalue n rest, line]
  simp

/-- **What the text of settings says.** -/
def statements (s : Settings) : List Statement :=
  [.header ["ledger".toList], .pair ["pages".toList] (.integer s.pages),
    .header ["tax".toList], .pair ["default_rate".toList] (.float s.defaultRate),
    .pair ["rates".toList] (.array (s.rates.map .float)),
    .pair ["gst_mode".toList] (.boolean s.gstMode),
    .header ["display".toList], .pair ["decimals".toList] (.text s.decimals.text),
    .pair ["grouping".toList] (.text s.grouping.word)]

/-- The text line by line. -/
theorem text_eq (s : Settings) :
    s.text = "[ledger]\n".toList ++ (line "pages" (digits s.pages) ++
      ("\n[tax]\n".toList ++ (line "default_rate" (floatText s.defaultRate) ++
      (line "rates" (floatsText s.rates) ++ (line "gst_mode" (boolText s.gstMode) ++
      ("\n[display]\n".toList ++ (line "decimals" (quotedText s.decimals.text) ++
      (line "grouping" (quotedText s.grouping.word) ++ [])))))))) := by
  unfold text
  simp only [List.append_assoc, List.append_nil]

/-- **Settings whose text can be read**: their numbers are not too large, and a rate is one that can
be used. -/
structure Legible (s : Settings) : Prop where
  pages : s.pages < 2 ^ 63
  defaultRate : s.defaultRate.isFinite = true ∧ 0.0 ≤ s.defaultRate
  rates_ne_nil : s.rates ≠ []
  rates : ∀ rate ∈ s.rates, rate.isFinite = true ∧ 0.0 ≤ rate
  decimals : s.decimals = .auto ∨ ∃ places ≤ 255, s.decimals = .fixed places

theorem InRange.legible {s : Settings} (h : s.InRange) : s.Legible where
  pages := Nat.lt_of_le_of_lt h.pages.2 (by decide)
  defaultRate := h.defaultRate
  rates_ne_nil := List.ne_nil_of_length_pos h.length_rates.1
  rates := h.rates
  decimals := h.decimals.imp_right fun ⟨places, hplaces, heq⟩ =>
    ⟨places, Nat.le_trans hplaces (by decide), heq⟩

/-- The lines are read one after the other. -/
theorem statementsWithin_text {s : Settings} (h : s.Legible) (n : Nat) :
    Toml.statementsWithin (n + 12) s.text = some s.statements := by
  have hkey (key : String) (hne : key.toList ≠ [])
      (hall : key.toList.all Toml.isKeyChar = true) : Toml.IsBareKey key.toList :=
    ⟨hne, List.all_eq_true.1 hall⟩
  have hledger (n : Nat) (rest : Text) :
      Toml.statementsWithin (n + 1) ("[ledger]\n".toList ++ rest) =
        (Toml.statementsWithin n rest).map (.header ["ledger".toList] :: ·) :=
    Toml.statementsWithin_header (hkey "ledger" (by decide) rfl) n rest
  have htax (n : Nat) (rest : Text) :
      Toml.statementsWithin (n + 2) ("\n[tax]\n".toList ++ rest) =
        (Toml.statementsWithin n rest).map (.header ["tax".toList] :: ·) :=
    (Toml.statementsWithin_empty (n + 1) _).trans
      (Toml.statementsWithin_header (hkey "tax" (by decide) rfl) n rest)
  have hdisplay (n : Nat) (rest : Text) :
      Toml.statementsWithin (n + 2) ("\n[display]\n".toList ++ rest) =
        (Toml.statementsWithin n rest).map (.header ["display".toList] :: ·) :=
    (Toml.statementsWithin_empty (n + 1) _).trans
      (Toml.statementsWithin_header (hkey "display" (by decide) rfl) n rest)
  have hpages := (Toml.isScalar_digits h.pages).isValue
  have hdefaultRate := (isScalar_floatText h.defaultRate.1 h.defaultRate.2).isValue
  have hrates := isValue_floatsText h.rates_ne_nil h.rates
  obtain ⟨hpolicy, hpolicy', -⟩ := ofText_text h.decimals
  have hdecimals := isValue_quotedText hpolicy hpolicy'
  obtain ⟨hword, hword', -⟩ := ofWord?_word s.grouping
  have hgrouping := isValue_quotedText hword hword'
  rw [text_eq, hledger (n + 11),
    statementsWithin_line (hkey "pages" (by decide) rfl) hpages (n + 10), htax (n + 8),
    statementsWithin_line (hkey "default_rate" (by decide) rfl) hdefaultRate (n + 7),
    statementsWithin_line (hkey "rates" (by decide) rfl) hrates (n + 6),
    statementsWithin_line (hkey "gst_mode" (by decide) rfl) (isValue_boolText s.gstMode) (n + 5),
    hdisplay (n + 3), statementsWithin_line (hkey "decimals" (by decide) rfl) hdecimals (n + 2),
    statementsWithin_line (hkey "grouping" (by decide) rfl) hgrouping (n + 1)]
  rfl

theorem statements?_text {s : Settings} (h : s.Legible) :
    Toml.statements? s.text = some s.statements := by
  have hlength : 11 ≤ s.text.length := by
    rw [text_eq]
    simp only [List.length_append]
    change 11 ≤ 9 + (_ + (7 + _))
    omega
  have hhead : s.text.head? ≠ some '\uFEFF' := by
    rw [text_eq]
    exact fun heq => absurd (show '[' = '\uFEFF' from Option.some.inj heq) (by decide)
  obtain ⟨n, hn⟩ := Nat.exists_eq_add_of_le hlength
  rw [Toml.statements?, if_neg hhead, hn, Nat.add_comm 11 n]
  exact statementsWithin_text h n

/-- **The document that the text of settings is.** -/
def entries (s : Settings) : Toml.Entries :=
  [("ledger".toList, .table .header [("pages".toList, .integer s.pages)]),
    ("tax".toList, .table .header [("default_rate".toList, .float s.defaultRate),
      ("rates".toList, .array (s.rates.map .float)), ("gst_mode".toList, .boolean s.gstMode)]),
    ("display".toList, .table .header [("decimals".toList, .text s.decimals.text),
      ("grouping".toList, .text s.grouping.word)])]

theorem document?_text {s : Settings} (h : s.Legible) :
    Toml.document? s.text = some s.entries := by
  rw [Toml.document?, statements?_text h]
  rfl

/-- **The document gives the settings.** -/
theorem gives_entries {s : Settings} (h : s.Legible) : Gives s.entries s where
  pages := by
    refine ⟨_, rfl, Or.inr ⟨_, rfl, ?_⟩⟩
    rw [Node.toCount?, if_pos (Int.natCast_nonneg s.pages), Int.toNat_natCast]
  defaultRate := ⟨_, rfl, Or.inr ⟨_, rfl, rfl⟩⟩
  rates := by
    refine ⟨_, rfl, Or.inr ⟨_, rfl, ?_⟩⟩
    change (s.rates.map Node.float).mapM Node.toFloat? = some s.rates
    rw [List.mapM_map]
    exact (List.mapM_pure (m := Option) (f := id)).trans (congrArg some s.rates.map_id)
  gstMode := ⟨_, rfl, Or.inr ⟨_, rfl, rfl⟩⟩
  decimals := by
    refine ⟨_, rfl, Or.inr ⟨_, rfl, ?_⟩⟩
    change (DecimalPlaces.ofText s.decimals.text).toOption = some s.decimals
    rw [(ofText_text h.decimals).2.2]
    rfl
  grouping := ⟨_, rfl, Or.inr ⟨_, rfl, (ofWord?_word s.grouping).2.2⟩⟩

/-! ### Files -/

/-- **Settings are read back from their text.** -/
theorem ofText?_text {s : Settings} (h : s.Legible) : ofText? s.text = some s := by
  rw [ofText?, document?_text h, Option.bind_some]
  exact ofDocument?_eq_some_iff.2 (gives_entries h)

/-- The text is loaded as what the settings are validated to. -/
theorem ofFile_text_of_legible {s : Settings} (h : s.Legible) :
    ofFile (some s.text) = s.validated := by
  rw [ofFile, Option.bind_some, ofText?_text h, Option.getD_some]

theorem ofFile_text {s : Settings} (h : s.InRange) : ofFile (some s.text) = s := by
  rw [ofFile_text_of_legible h.legible, h.validated_eq]

end Settings

/-- What is written to a file is read from it. -/
theorem CommandLine.Files.read?_of_write {path : Path} {contents : Text} {fs fs' : Files}
    (h : fs.write path contents = .ok fs') : fs'.read? path = some contents := by
  rw [write] at h
  split_ifs at h
  obtain rfl := Except.ok.inj h
  have hnone : (fs.filter (·.1 ≠ path)).find? (fun f => f.1 = path) = none := by
    rw [List.find?_eq_none]
    intro f hf
    simpa using (List.mem_filter.1 hf).2
  rw [read?, List.find?_append, hnone]
  simp

namespace Settings

open CommandLine (Files Path)

/-- **Loading and saving are inverse on what is loaded.** Whatever a file holds, the settings that
are loaded from it are in range. They are the standard ones in every field if the file is missing or
breaks anywhere; otherwise each is what its own field is read as, in range, and the rates are the
first three usable ones of the file. And the text that is saved for them is loaded as the same
settings, from whatever file it is written to. -/
theorem ofFile_inverse (contents : Option Text) :
    (ofFile contents).InRange ∧
      ((contents = none ∨ ∃ t, contents = some t ∧ Broken t) ∧ ofFile contents = standard ∨
        ∃ t es s, contents = some t ∧ ¬Broken t ∧ Toml.document? t = some es ∧ Gives es s ∧
          ofFile contents = s.validated ∧ TakesUsable s.rates (ofFile contents).rates) ∧
      ofFile (some (ofFile contents).text) = ofFile contents ∧
      ∀ (fs fs' : Files) (path : Path), fs.write path (ofFile contents).text = .ok fs' →
        ofFile (fs'.read? path) = ofFile contents := by
  have hrange : (ofFile contents).InRange := inRange_validated _
  refine ⟨hrange, ?_, ofFile_text hrange, fun fs fs' path hwrite => ?_⟩
  · rcases ofFile_cases contents with hstandard | ⟨t, es, s, ht, hbroken, hes, hgives, heq⟩
    · exact Or.inl hstandard
    · exact Or.inr ⟨t, es, s, ht, hbroken, hes, hgives, heq, heq ▸ takesUsable_validRates s.rates⟩
  · rw [CommandLine.Files.read?_of_write hwrite, ofFile_text hrange]

/-- The rates are a negative zero, the least positive number and the greatest finite one; one that
is negative and one that is infinite are dropped, and so is the fourth. They are loaded again from
the file that is written. -/
theorem ofFile_inverse_at_the_extremes :
    let contents := some "[tax]\nrates = [-1, inf, -0.0, 5e-324, 1.7976931348623157e308, 7]".toList
    let path := ["tabcalc".toList, "config.toml".toList]
    let fs' := [(path, (ofFile contents).text)]
    (ofFile contents).rates =
        [-0.0, Float.ofBits 1, Float.ofBits 0x7fefffffffffffff] ∧
      Files.write path (ofFile contents).text [] = .ok fs' ∧
      ofFile (Files.read? path fs') = ofFile contents :=
  ⟨by decide +kernel, rfl, (ofFile_inverse _).2.2.2 [] _ _ rfl⟩

end Settings

end RunningTab
