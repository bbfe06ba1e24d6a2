import Mathlib.Tactic
import RunningTab.Settings.Reading

/-!
# What a settings file gives

A file gives settings as a whole or not at all. It is broken if it is no document, or if one of the
three records or one of the six fields is there and is not what it should be
(`RunningTab.Settings.Broken`); then every setting has its standard value. In a file that is not
broken each setting is what its own field is read as (`RunningTab.Settings.Gives`), brought into
range.

That the range is kept is said by `RunningTab.Settings.InRange`. Validation brings every value into
it (`RunningTab.Settings.inRange_validated`) and leaves alone what is in it
(`RunningTab.Settings.InRange.validated_eq`).
-/

namespace RunningTab.Settings

open Toml (Entries Node document?)

/-! ### The range -/

/-- **Settings with every value in range.** -/
structure InRange (s : Settings) : Prop where
  pages : 1 ≤ s.pages ∧ s.pages ≤ 9
  defaultRate : s.defaultRate.isFinite = true ∧ 0.0 ≤ s.defaultRate
  length_rates : 1 ≤ s.rates.length ∧ s.rates.length ≤ 3
  rates : ∀ rate ∈ s.rates, rate.isFinite = true ∧ 0.0 ≤ rate
  decimals : s.decimals = .auto ∨ ∃ places ≤ 10, s.decimals = .fixed places

theorem isRate_iff {x : Float} : isRate x = true ↔ x.isFinite = true ∧ 0.0 ≤ x := by
  rw [isRate, Bool.and_eq_true, decide_eq_true_eq]

theorem inRange_standard : standard.InRange where
  pages := by decide
  defaultRate := by decide
  length_rates := by decide
  rates := by decide
  decimals := Or.inr ⟨2, by decide, rfl⟩

/-- **The rates that are taken from a file**: of those given that can be used the first three in
their order, or the standard ones if none can. -/
def TakesUsable (given taken : List Float) : Prop :=
  (∀ rate ∈ given, ¬(rate.isFinite = true ∧ 0.0 ≤ rate)) ∧ taken = standard.rates ∨
    (∃ rate ∈ given, rate.isFinite = true ∧ 0.0 ≤ rate) ∧
      taken = (given.filter fun rate => rate.isFinite && 0.0 ≤ rate).take 3

theorem takesUsable_validRates (given : List Float) : TakesUsable given (validRates given) := by
  simp only [TakesUsable, ← isRate_iff]
  change _ ∨ _ ∧ _ = (given.filter isRate).take 3
  rw [validRates]
  by_cases h : ∃ rate ∈ given, isRate rate = true
  · refine Or.inr ⟨h, if_neg ?_⟩
    obtain ⟨rate, hrate, husable⟩ := h
    have hne : given.filter isRate ≠ [] :=
      List.ne_nil_of_mem (List.mem_filter.2 ⟨hrate, husable⟩)
    rw [List.isEmpty_iff, List.take_eq_nil_iff, not_or]
    exact ⟨by decide, hne⟩
  · push Not at h
    refine Or.inl ⟨h, if_pos ?_⟩
    rw [List.filter_eq_nil_iff.2 h, List.take_nil]
    rfl

/-- **Validation brings every value into range.** -/
theorem inRange_validated (s : Settings) : s.validated.InRange := by
  constructor
  · change 1 ≤ max 1 (min s.pages 9) ∧ max 1 (min s.pages 9) ≤ 9
    omega
  · change (if isRate s.defaultRate then s.defaultRate else _).isFinite = true ∧
      0.0 ≤ if isRate s.defaultRate then s.defaultRate else _
    split_ifs with h
    · exact isRate_iff.1 h
    · exact inRange_standard.defaultRate
  · rcases takesUsable_validRates s.rates with ⟨-, heq⟩ | ⟨⟨rate, hrate, husable⟩, heq⟩
    · have hlength := inRange_standard.length_rates
      rwa [← heq] at hlength
    · have hpos := List.length_pos_of_mem
        (List.mem_filter.2 ⟨hrate, (isRate_iff.2 husable : isRate rate = true)⟩)
      change 1 ≤ (validRates s.rates).length ∧ (validRates s.rates).length ≤ 3
      rw [heq, List.length_take]
      change 1 ≤ min 3 (s.rates.filter isRate).length ∧ min 3 (s.rates.filter isRate).length ≤ 3
      omega
  · intro rate hrate
    change rate ∈ validRates s.rates at hrate
    rcases takesUsable_validRates s.rates with ⟨-, heq⟩ | ⟨-, heq⟩
    · exact inRange_standard.rates rate (heq ▸ hrate)
    · rw [heq] at hrate
      exact isRate_iff.1 (List.mem_filter.1 (List.mem_of_mem_take hrate)).2
  · change validPolicy s.decimals = .auto ∨ ∃ places ≤ 10, validPolicy s.decimals = .fixed places
    cases s.decimals with
    | auto => exact Or.inl rfl
    | fixed places => exact Or.inr ⟨min places 10, Nat.min_le_right _ _, rfl⟩

/-- **What is in range is left alone.** -/
theorem InRange.validated_eq {s : Settings} (h : s.InRange) : s.validated = s := by
  have hpages : max 1 (min s.pages pageLimit) = s.pages := by
    have := h.pages
    rw [pageLimit]
    omega
  have hrates : validRates s.rates = s.rates := by
    rcases takesUsable_validRates s.rates with ⟨hnone, -⟩ | ⟨-, heq⟩
    · obtain ⟨rate, hrate⟩ := List.exists_mem_of_length_pos h.length_rates.1
      exact absurd (h.rates rate hrate) (hnone rate hrate)
    · have hall : s.rates.filter isRate = s.rates :=
        List.filter_eq_self.2 fun rate hrate => isRate_iff.2 (h.rates rate hrate)
      rw [heq]
      change (s.rates.filter isRate).take 3 = s.rates
      rw [hall, List.take_of_length_le h.length_rates.2]
  have hdecimals : validPolicy s.decimals = s.decimals := by
    rcases h.decimals with heq | ⟨places, hplaces, heq⟩
    · rw [heq]
      rfl
    · rw [heq]
      exact congrArg DecimalPlaces.fixed (Nat.min_eq_left hplaces)
  rw [validated, hpages, hrates, hdecimals, if_pos (isRate_iff.2 h.defaultRate)]

/-! ### Broken files -/

/-- A field that is there, in a record that is one, and cannot be read. -/
def Misfits {α : Type} (es : Entries) (record field : String) (position : Nat)
    (read : Node → Option α) : Prop :=
  ∃ r node, record? record es = some r ∧ r.field field position = some node ∧ read node = none

/-- **A broken file**, by the place where it breaks. -/
inductive Broken : Text → Prop where
  | document {t} : document? t = none → Broken t
  | record {t es} (name : String) : name ∈ ["ledger", "tax", "display"] →
      document? t = some es → record? name es = none → Broken t
  | pages {t es} : document? t = some es → Misfits es "ledger" "pages" 0 Node.toCount? → Broken t
  | defaultRate {t es} : document? t = some es →
      Misfits es "tax" "default_rate" 0 Node.toFloat? → Broken t
  | rates {t es} : document? t = some es → Misfits es "tax" "rates" 1 Node.toFloats? → Broken t
  | gstMode {t es} : document? t = some es →
      Misfits es "tax" "gst_mode" 2 Node.toBool? → Broken t
  | decimals {t es} : document? t = some es →
      Misfits es "display" "decimals" 0 Node.toPolicy? → Broken t
  | grouping {t es} : document? t = some es →
      Misfits es "display" "grouping" 1 Node.toGrouping? → Broken t

/-- What a field of a record is read as: its standard value if it is missing. -/
def Reads {α : Type} (es : Entries) (record field : String) (position : Nat) (standard : α)
    (read : Node → Option α) (value : α) : Prop :=
  ∃ r, record? record es = some r ∧
    (r.field field position = none ∧ value = standard ∨
      ∃ node, r.field field position = some node ∧ read node = some value)

/-- **A document gives settings**: each is what its own field is read as. -/
structure Gives (es : Entries) (s : Settings) : Prop where
  pages : Reads es "ledger" "pages" 0 standard.pages Node.toCount? s.pages
  defaultRate : Reads es "tax" "default_rate" 0 standard.defaultRate Node.toFloat? s.defaultRate
  rates : Reads es "tax" "rates" 1 standard.rates Node.toFloats? s.rates
  gstMode : Reads es "tax" "gst_mode" 2 standard.gstMode Node.toBool? s.gstMode
  decimals : Reads es "display" "decimals" 0 standard.decimals Node.toPolicy? s.decimals
  grouping : Reads es "display" "grouping" 1 standard.grouping Node.toGrouping? s.grouping

theorem orStandard_eq_some_iff {α : Type} {standard value : α} {read : Node → Option α}
    {field : Option Node} :
    Node.orStandard standard read field = some value ↔
      field = none ∧ value = standard ∨ ∃ node, field = some node ∧ read node = some value := by
  cases field with
  | none => simp [Node.orStandard, eq_comm]
  | some node => simp [Node.orStandard]

theorem orStandard_eq_none_iff {α : Type} {standard : α} {read : Node → Option α}
    {field : Option Node} :
    Node.orStandard standard read field = none ↔ ∃ node, field = some node ∧ read node = none := by
  cases field <;> simp [Node.orStandard]

/-- **Settings are given as a whole.** -/
theorem ofDocument?_eq_some_iff {es : Entries} {s : Settings} :
    ofDocument? es = some s ↔ Gives es s := by
  constructor
  · intro h
    rw [ofDocument?] at h
    simp only [Option.bind_eq_bind, Option.bind_eq_some_iff] at h
    obtain ⟨ledger, hledger, tax, htax, display, hdisplay, pages, hpages, defaultRate,
      hdefaultRate, rates, hrates, gstMode, hgstMode, decimals, hdecimals, grouping, hgrouping,
      heq⟩ := h
    obtain rfl := Option.some.inj heq
    exact ⟨⟨ledger, hledger, orStandard_eq_some_iff.1 hpages⟩,
      ⟨tax, htax, orStandard_eq_some_iff.1 hdefaultRate⟩,
      ⟨tax, htax, orStandard_eq_some_iff.1 hrates⟩,
      ⟨tax, htax, orStandard_eq_some_iff.1 hgstMode⟩,
      ⟨display, hdisplay, orStandard_eq_some_iff.1 hdecimals⟩,
      ⟨display, hdisplay, orStandard_eq_some_iff.1 hgrouping⟩⟩
  · rintro ⟨⟨ledger, hledger, hpages⟩, ⟨tax, htax, hdefaultRate⟩, ⟨tax', htax', hrates⟩,
      ⟨tax'', htax'', hgstMode⟩, ⟨display, hdisplay, hdecimals⟩,
      ⟨display', hdisplay', hgrouping⟩⟩
    -- the fields of a record are all fields of the same one
    obtain rfl := Option.some.inj (htax.symm.trans htax')
    obtain rfl := Option.some.inj (htax.symm.trans htax'')
    obtain rfl := Option.some.inj (hdisplay.symm.trans hdisplay')
    rw [← orStandard_eq_some_iff] at hpages hdefaultRate hrates hgstMode hdecimals hgrouping
    rw [ofDocument?, hledger, htax, hdisplay]
    simp [hpages, hdefaultRate, hrates, hgstMode, hdecimals, hgrouping]

theorem exists_gives {t : Text} {s : Settings} (h : ofText? t = some s) :
    ∃ es, document? t = some es ∧ Gives es s := by
  obtain ⟨es, hes, hs⟩ := Option.bind_eq_some_iff.1 h
  exact ⟨es, hes, ofDocument?_eq_some_iff.1 hs⟩

section

variable {α : Type} {es : Entries} {record field : String} {position : Nat} {read : Node → Option α}

theorem Reads.not_misfits {standard value : α}
    (h : Reads es record field position standard read value) :
    ¬Misfits es record field position read := by
  rintro ⟨r, node, hr, hnode, hread⟩
  obtain ⟨r', hr', hvalue⟩ := h
  obtain rfl := Option.some.inj (hr.symm.trans hr')
  rcases hvalue with ⟨hmissing, -⟩ | ⟨node', hnode', hread'⟩
  · rw [hnode] at hmissing
    cases hmissing
  · obtain rfl := Option.some.inj (hnode.symm.trans hnode')
    rw [hread] at hread'
    cases hread'

theorem exists_of_not_misfits {r : Node} (standard : α) (hr : record? record es = some r)
    (h : ¬Misfits es record field position read) :
    ∃ value, Node.orStandard standard read (r.field field position) = some value := by
  refine Option.ne_none_iff_exists'.1 fun hnone => h ?_
  obtain ⟨node, hnode, hread⟩ := orStandard_eq_none_iff.1 hnone
  exact ⟨r, node, hr, hnode, hread⟩

end

theorem Broken.ofText?_eq_none {t : Text} (h : Broken t) : ofText? t = none := by
  refine Option.eq_none_iff_forall_ne_some.2 fun s hs => ?_
  obtain ⟨es, hes, hgives⟩ := exists_gives hs
  have heq {es' : Entries} (hes' : document? t = some es') : es' = es :=
    Option.some.inj (hes'.symm.trans hes)
  cases h with
  | document hnone => simp [hes] at hnone
  | record name hname hes' hnone =>
    obtain rfl := heq hes'
    obtain ⟨⟨ledger, hledger, -⟩, ⟨tax, htax, -⟩, -, -, ⟨display, hdisplay, -⟩, -⟩ := hgives
    simp only [List.mem_cons, List.not_mem_nil, or_false] at hname
    rcases hname with rfl | rfl | rfl
    · simp [hledger] at hnone
    · simp [htax] at hnone
    · simp [hdisplay] at hnone
  | pages hes' hmisfit => exact hgives.pages.not_misfits (heq hes' ▸ hmisfit)
  | defaultRate hes' hmisfit => exact hgives.defaultRate.not_misfits (heq hes' ▸ hmisfit)
  | rates hes' hmisfit => exact hgives.rates.not_misfits (heq hes' ▸ hmisfit)
  | gstMode hes' hmisfit => exact hgives.gstMode.not_misfits (heq hes' ▸ hmisfit)
  | decimals hes' hmisfit => exact hgives.decimals.not_misfits (heq hes' ▸ hmisfit)
  | grouping hes' hmisfit => exact hgives.grouping.not_misfits (heq hes' ▸ hmisfit)

/-- **They are not given only where a file is broken.** -/
theorem ofText?_eq_none_iff {t : Text} : ofText? t = none ↔ Broken t := by
  refine ⟨fun h => ?_, Broken.ofText?_eq_none⟩
  by_contra hb
  obtain ⟨es, hes⟩ : ∃ es, document? t = some es :=
    Option.ne_none_iff_exists'.1 fun hnone => hb (.document hnone)
  have hrecord (name : String) (hname : name ∈ ["ledger", "tax", "display"]) :
      ∃ r, record? name es = some r :=
    Option.ne_none_iff_exists'.1 fun hnone => hb (.record name hname hes hnone)
  obtain ⟨ledger, hledger⟩ := hrecord "ledger" (by simp)
  obtain ⟨tax, htax⟩ := hrecord "tax" (by simp)
  obtain ⟨display, hdisplay⟩ := hrecord "display" (by simp)
  obtain ⟨pages, hpages⟩ := exists_of_not_misfits standard.pages hledger (hb ∘ .pages hes)
  obtain ⟨defaultRate, hdefaultRate⟩ :=
    exists_of_not_misfits standard.defaultRate htax (hb ∘ .defaultRate hes)
  obtain ⟨rates, hrates⟩ := exists_of_not_misfits standard.rates htax (hb ∘ .rates hes)
  obtain ⟨gstMode, hgstMode⟩ := exists_of_not_misfits standard.gstMode htax (hb ∘ .gstMode hes)
  obtain ⟨decimals, hdecimals⟩ :=
    exists_of_not_misfits standard.decimals hdisplay (hb ∘ .decimals hes)
  obtain ⟨grouping, hgrouping⟩ :=
    exists_of_not_misfits standard.grouping hdisplay (hb ∘ .grouping hes)
  rw [ofText?, hes, Option.bind_some, ofDocument?, hledger, htax, hdisplay] at h
  simp [hpages, hdefaultRate, hrates, hgstMode, hdecimals, hgrouping] at h

/-! ### Files -/

/-- **A file gives its settings as a whole**: the standard ones if it is missing or broken, else
what its fields are read as, in range. -/
theorem ofFile_cases (contents : Option Text) :
    ((contents = none ∨ ∃ t, contents = some t ∧ Broken t) ∧ ofFile contents = standard) ∨
      ∃ t es s, contents = some t ∧ ¬Broken t ∧ document? t = some es ∧ Gives es s ∧
        ofFile contents = s.validated := by
  have hstandard : standard.validated = standard := inRange_standard.validated_eq
  cases contents with
  | none => exact Or.inl ⟨Or.inl rfl, hstandard⟩
  | some t =>
    by_cases hbroken : Broken t
    · refine Or.inl ⟨Or.inr ⟨t, rfl, hbroken⟩, ?_⟩
      rw [ofFile, Option.bind_some, hbroken.ofText?_eq_none, Option.getD_none, hstandard]
    · obtain ⟨s, hs⟩ : ∃ s, ofText? t = some s :=
        Option.ne_none_iff_exists'.1 fun hnone => hbroken (ofText?_eq_none_iff.1 hnone)
      obtain ⟨es, hes, hgives⟩ := exists_gives hs
      refine Or.inr ⟨t, es, s, rfl, hbroken, hes, hgives, ?_⟩
      rw [ofFile, Option.bind_some, hs, Option.getD_some]

end RunningTab.Settings
