import RunningTab.Proofs.Amount.Shown

/-!
# Where the commas stand

Grouping is told by what can be seen of the text: taking the commas out gives the digits back, and
what stands between the commas has the right sizes (`RunningTab.Grouping.Sized`). Both are counted
from the right, so that it is the first group that takes what is left over
(`RunningTab.EvenGroups`), and no group is empty.

There is no other text like that: groups of these sizes can be found again in the digits
(`RunningTab.Grouping.groups_flatten`). So the two properties say everything about grouping
(`RunningTab.Grouping.eq_apply`), however long the number is.
-/

namespace RunningTab

/-- **Groups of one size**, except the first, which may be smaller but not empty. -/
def EvenGroups (size : Nat) (parts : List Text) : Prop :=
  ∃ first rest, parts = first :: rest ∧ 1 ≤ first.length ∧ first.length ≤ size ∧
    ∀ part ∈ rest, part.length = size

variable {size : Nat} {parts : List Text} {t u : Text}

theorem evenGroups_singleton (hne : t ≠ []) (ht : t.length ≤ size) : EvenGroups size [t] :=
  ⟨t, [], rfl, List.length_pos_of_ne_nil hne, ht, nofun⟩

theorem EvenGroups.append (h : EvenGroups size parts) (ht : t.length = size) :
    EvenGroups size (parts ++ [t]) := by
  obtain ⟨first, rest, rfl, hpos, hle, hrest⟩ := h
  refine ⟨first, rest ++ [t], List.cons_append, hpos, hle, fun part hpart => ?_⟩
  rcases List.mem_append.1 hpart with hpart | hpart
  · exact hrest part hpart
  · rw [List.mem_singleton.1 hpart, ht]

theorem EvenGroups.nil_not_mem (h : EvenGroups size parts) : [] ∉ parts := by
  obtain ⟨first, rest, rfl, hpos, hle, hrest⟩ := h
  intro hmem
  rcases List.mem_cons.1 hmem with rfl | hmem
  · exact absurd hpos (by decide)
  · have := hrest [] hmem
    rw [List.length_nil] at this
    omega

theorem EvenGroups.flatten_ne_nil (h : EvenGroups size parts) : parts.flatten ≠ [] := by
  obtain ⟨first, rest, rfl, hpos, -⟩ := h
  rw [List.flatten_cons]
  exact List.append_ne_nil_of_left_ne_nil (List.ne_nil_of_length_pos hpos) _

/-! ### Between commas -/

/-- What stands between commas is the text without them. -/
theorem flatten_splitOn_comma (t : Text) : (t.splitOn ',').flatten = withoutCommas t := by
  induction t with
  | nil => rfl
  | cons c t ih =>
    rw [List.splitOn_cons_eq_if_modifyHead]
    obtain ⟨part, parts, hparts⟩ := List.exists_cons_of_ne_nil (List.splitOn_ne_nil ',' t)
    by_cases hc : c = ','
    · rw [if_pos (beq_iff_eq.2 hc), List.flatten_cons, List.nil_append, ih, hc]
      rfl
    · rw [if_neg (by simpa using hc), hparts, List.modifyHead_cons, List.flatten_cons,
        List.cons_append, ← List.flatten_cons, ← hparts, ih, withoutCommas, withoutCommas,
        List.filter_cons_of_pos (by simpa using hc)]

/-- A comma at an end, or next to another, has nothing on one of its sides. -/
theorem nil_mem_splitOn_comma (h : u = [] ∨ t = [] ∨ ∃ v, t = ',' :: v) :
    [] ∈ (u ++ ',' :: t).splitOn ',' := by
  rw [List.splitOn_append_cons_self, List.mem_append]
  rcases h with rfl | rfl | ⟨v, rfl⟩
  · exact Or.inl (by simp)
  · exact Or.inr (by simp)
  · right
    have hsplit := List.splitOn_append_cons_self [] v (a := ',')
    rw [List.nil_append] at hsplit
    rw [hsplit]
    simp

namespace Grouping

/-! ### The groups -/

/-- The groups after the first have one size. -/
theorem evenGroups_groupsOf (size : Nat) (hne : t ≠ []) :
    EvenGroups (size + 1) (groupsOf size t) := by
  induction t using groupsOf.induct size with
  | case1 t h =>
    rw [groupsOf, dif_pos h]
    exact evenGroups_singleton hne h
  | case2 t h ih =>
    rw [groupsOf, dif_neg h]
    refine (ih (List.ne_nil_of_length_pos ?_)).append ?_
    · rw [List.length_take]
      omega
    · rw [List.length_drop]
      omega

/-- Groups that end with one of a given size are the groups of what is before it, and that one. -/
theorem take_drop_flatten (others : List Text) {last : Text} (hlast : last.length = size + 1) :
    (others ++ [last]).flatten.take ((others ++ [last]).flatten.length - (size + 1)) =
        others.flatten ∧
      (others ++ [last]).flatten.drop ((others ++ [last]).flatten.length - (size + 1)) = last := by
  rw [List.flatten_append, List.flatten_singleton, List.length_append, hlast, Nat.add_sub_cancel]
  exact ⟨List.take_left, List.drop_left⟩

/-- **Groups of one size are found again in the digits.** -/
theorem groupsOf_flatten (h : EvenGroups (size + 1) parts) :
    groupsOf size parts.flatten = parts := by
  obtain ⟨first, rest, rfl, hpos, hle, hrest⟩ := h
  -- from the right, since this is the end where the groups are cut off
  induction rest using List.reverseRecOn with
  | nil => rw [List.flatten_singleton, groupsOf, dif_pos hle]
  | append_singleton rest last ih =>
    have hlast : last.length = size + 1 := hrest last (by simp)
    have hlong : ¬(first :: rest ++ [last]).flatten.length ≤ size + 1 := by
      rw [List.flatten_append, List.flatten_singleton, List.length_append, List.flatten_cons,
        List.length_append]
      omega
    obtain ⟨htake, hdrop⟩ := take_drop_flatten (first :: rest) hlast
    rw [← List.cons_append, groupsOf, dif_neg hlong, htake, hdrop,
      ih fun part hpart => hrest part (List.mem_append_left _ hpart)]

/-- **The sizes of the groups** under a grouping. -/
def Sized : Grouping → List Text → Prop
  | indian, parts =>
    (∃ t, parts = [t] ∧ 1 ≤ t.length ∧ t.length ≤ 3) ∨
      ∃ others last, parts = others ++ [last] ∧ EvenGroups 2 others ∧ last.length = 3
  | international, parts => EvenGroups 3 parts
  | none, parts => ∃ t, parts = [t] ∧ 1 ≤ t.length

variable {g : Grouping}

theorem sized_groups (g : Grouping) (hne : t ≠ []) : g.Sized (g.groups t) := by
  have hpos := List.length_pos_of_ne_nil hne
  cases g with
  | indian =>
    rw [groups, groupsEnding]
    split_ifs with h
    · exact Or.inl ⟨t, rfl, hpos, h⟩
    · refine Or.inr ⟨_, _, rfl, evenGroups_groupsOf 1 (List.ne_nil_of_length_pos ?_), ?_⟩
      · rw [List.length_take]
        omega
      · rw [List.length_drop]
        omega
  | international => exact evenGroups_groupsOf 2 hne
  | none => exact ⟨t, rfl, hpos⟩

theorem Sized.nil_not_mem (h : g.Sized parts) : [] ∉ parts := by
  have hsingleton (t : Text) (hpos : 1 ≤ t.length) : [] ∉ [t] := fun hmem =>
    List.ne_nil_of_length_pos hpos (List.mem_singleton.1 hmem).symm
  cases g with
  | indian =>
    rcases h with ⟨t, rfl, hpos, -⟩ | ⟨others, last, rfl, hothers, hlast⟩
    · exact hsingleton t hpos
    · rw [List.mem_append, not_or]
      exact ⟨hothers.nil_not_mem, hsingleton last (by omega)⟩
  | international => exact EvenGroups.nil_not_mem h
  | none =>
    obtain ⟨t, rfl, hpos⟩ := h
    exact hsingleton t hpos

/-- **The groups are found again in the digits.** -/
theorem groups_flatten (h : g.Sized parts) : g.groups parts.flatten = parts := by
  cases g with
  | indian =>
    rw [groups, groupsEnding]
    rcases h with ⟨t, rfl, -, hle⟩ | ⟨others, last, rfl, hothers, hlast⟩
    · rw [List.flatten_singleton, if_pos hle]
    · have hpos := List.length_pos_of_ne_nil hothers.flatten_ne_nil
      obtain ⟨htake, hdrop⟩ := take_drop_flatten others hlast
      rw [htake, hdrop, if_neg, groupsOf_flatten hothers]
      rw [List.flatten_append, List.flatten_singleton, List.length_append]
      omega
  | international => exact groupsOf_flatten h
  | none =>
    obtain ⟨t, rfl, -⟩ := h
    rw [groups, List.flatten_singleton]

/-! ### The text -/

theorem comma_not_mem_groups (g : Grouping) (ht : ',' ∉ t) : ∀ part ∈ g.groups t, ',' ∉ part :=
  fun part hpart hmem =>
    ht (flatten_groups g t ▸ List.mem_flatten.2 ⟨part, hpart, hmem⟩)

/-- What stands between the commas are the groups. -/
theorem splitOn_apply (g : Grouping) (hne : t ≠ []) (ht : ',' ∉ t) :
    (g.apply t).splitOn ',' = g.groups t := by
  refine List.splitOn_intercalate ',' (comma_not_mem_groups g ht) fun hnil => hne ?_
  rw [← flatten_groups g t, hnil, List.flatten_nil]

/-- A text with groups of the right sizes is what grouping makes of its digits. -/
theorem eq_apply (h : g.Sized (u.splitOn ',')) : u = g.apply (withoutCommas u) := by
  rw [apply, ← flatten_splitOn_comma, groups_flatten h, List.intercalate_splitOn]

theorem comma_not_mem_of_isDigit (ht : ∀ c ∈ t, Text.isDigit c = true) : ',' ∉ t :=
  fun hmem => absurd (ht ',' hmem) (by decide)

/-- **Grouping is exact for every number of digits.** Without its commas the text is the digits, and
the groups between them have the right sizes: threes for the international grouping and, before a
last group of three, twos for the Indian one, with what is left over in the first group; the whole
number for none. No comma stands at an end or next to another one. And no other text is like
that. -/
theorem apply_exact (g : Grouping) (hne : t ≠ []) (ht : ∀ c ∈ t, Text.isDigit c = true) :
    withoutCommas (g.apply t) = t ∧ g.Sized ((g.apply t).splitOn ',') ∧
      (g = .none → ',' ∉ g.apply t) ∧ (∀ u, g.apply t ≠ ',' :: u) ∧
      (∀ u, g.apply t ≠ u ++ [',']) ∧ (∀ u v, g.apply t ≠ u ++ ',' :: ',' :: v) ∧
      ∀ u, withoutCommas u = t → g.Sized (u.splitOn ',') → u = g.apply t := by
  have hcomma := comma_not_mem_of_isDigit ht
  have hsized : g.Sized ((g.apply t).splitOn ',') := by
    rw [splitOn_apply g hne hcomma]
    exact sized_groups g hne
  have hends {u v : Text} (h : u = [] ∨ v = [] ∨ ∃ w, v = ',' :: w) :
      g.apply t ≠ u ++ ',' :: v := fun heq =>
    hsized.nil_not_mem (heq ▸ nil_mem_splitOn_comma h)
  refine ⟨?_, hsized, ?_, fun u => hends (Or.inl rfl), fun u => hends (Or.inr (Or.inl rfl)),
    fun u v => hends (Or.inr (Or.inr ⟨v, rfl⟩)), ?_⟩
  · rw [withoutCommas_apply]
    exact List.filter_eq_self.2 fun c hc => bne_iff_ne.2 fun heq => hcomma (heq ▸ hc)
  · rintro rfl
    rwa [apply_none]
  · rintro u rfl hu
    exact eq_apply hu

/-- Ten digits: the first group of the Indian grouping is a single one. -/
theorem apply_exact_ten_digits :
    let t := "1234567890".toList
    indian.apply t = "1,23,45,67,890".toList ∧ international.apply t = "1,234,567,890".toList ∧
      indian.Sized ((indian.apply t).splitOn ',') ∧
      ∀ u, withoutCommas u = t → international.Sized (u.splitOn ',') →
        u = "1,234,567,890".toList := by
  have hne : "1234567890".toList ≠ [] := by decide
  have hdigits : ∀ c ∈ "1234567890".toList, Text.isDigit c = true := List.all_eq_true.1 rfl
  have hindian : indian.apply "1234567890".toList = "1,23,45,67,890".toList := by decide +kernel
  have hinternational : international.apply "1234567890".toList = "1,234,567,890".toList := by
    decide +kernel
  obtain ⟨-, hsized, -⟩ := apply_exact indian hne hdigits
  obtain ⟨-, -, -, -, -, -, honly⟩ := apply_exact international hne hdigits
  exact ⟨hindian, hinternational, hsized, hinternational ▸ honly⟩

end Grouping

end RunningTab
