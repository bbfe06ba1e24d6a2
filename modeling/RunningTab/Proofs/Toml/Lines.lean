import RunningTab.Proofs.Toml.Scalar

/-!
# Lines with one meaning

What a line of a written document is read as: an empty line as nothing, a name in brackets as a
header, and a key with a value behind it as a pair (`RunningTab.Toml.statementsWithin_pair`). Each
is said with the rest of the document behind it, so that a document is read by taking its lines one
by one.

A value is a scalar, an array of scalars on one line or on a line for each, or a text in quotes that
needs no escapes. What may follow it, as in `RunningTab.Toml.Stops`, is the end of its line, or a
comma or a bracket inside an array.
-/

namespace RunningTab.Toml

/-! ### Line ends -/

theorem stops_lineEnd (rest : Text) : Stops ('\n' :: rest) := by
  intro c hc
  obtain rfl := Option.some.inj hc
  decide

theorem stops_comma (rest : Text) : Stops (',' :: rest) := by
  intro c hc
  obtain rfl := Option.some.inj hc
  decide

theorem stops_bracket (rest : Text) : Stops (']' :: rest) := by
  intro c hc
  obtain rfl := Option.some.inj hc
  decide

/-! ### Arrays of scalars -/

section

variable {run rest : Text} {node : Node}

/-- What is void before a scalar ends where the scalar begins. -/
theorem skipLines?_of_isScalar (h : IsScalar run node) (rest : Text) :
    skipLines? false (run ++ rest) = some (run ++ rest) := by
  obtain ⟨c, t, rfl⟩ := List.exists_cons_of_ne_nil h.ne_nil
  rw [List.cons_append, skipLines?, if_neg (h.head_ne (by decide)), if_neg Bool.false_ne_true,
    if_neg (not_or.2 ⟨h.head_ne (by decide), h.head_ne (by decide)⟩),
    if_neg (h.head_ne (by decide))]
  exact fun _ heq => absurd heq (h.head_ne (by decide))

/-- The last element, with the closing bracket right behind it. -/
theorem elementsWithin_last (h : IsScalar run node) (depth n : Nat) :
    elementsWithin (valueWithin depth) (n + 1) (run ++ ']' :: rest) = some ([node], rest) := by
  have hvalue := valueWithin_of_isScalar h (stops_bracket rest) depth
  have hskip := skipLines?_of_isScalar h (']' :: rest)
  obtain ⟨c, t, rfl⟩ := List.exists_cons_of_ne_nil h.ne_nil
  rw [List.cons_append] at hskip hvalue ⊢
  rw [elementsWithin, hskip]
  simp only [Option.bind_eq_bind, Option.bind_some]
  split
  · next heq => exact absurd (List.cons.inj heq).1 (h.head_ne (by decide))
  · rw [hvalue]
    rfl

/-- An element on a line of its own, with a comma behind it. -/
theorem elementsWithin_line (h : IsScalar run node) (depth n : Nat) :
    elementsWithin (valueWithin depth) (n + 1)
        ('\n' :: ' ' :: ' ' :: ' ' :: ' ' :: (run ++ ',' :: rest)) =
      (elementsWithin (valueWithin depth) n rest).map fun r => (node :: r.1, r.2) := by
  have hvalue := valueWithin_of_isScalar h (stops_comma rest) depth
  have hskip := skipLines?_of_isScalar h (',' :: rest)
  obtain ⟨c, t, rfl⟩ := List.exists_cons_of_ne_nil h.ne_nil
  rw [List.cons_append] at hskip hvalue ⊢
  rw [elementsWithin]
  change ((skipLines? false (c :: (t ++ ',' :: rest))).bind _) = _
  rw [hskip]
  simp only [Option.bind_some]
  split
  · next heq => exact absurd (List.cons.inj heq).1 (h.head_ne (by decide))
  · rw [hvalue]
    change ((elementsWithin (valueWithin depth) n rest).bind _) = _
    cases elementsWithin (valueWithin depth) n rest <;> rfl

end

/-- **Elements on lines of their own**, up to the closing bracket. -/
theorem elementsWithin_lines {α : Type} {text : α → Text} {node : α → Node} (depth : Nat)
    (rest : Text) (xs : List α) (h : ∀ x ∈ xs, IsScalar (text x) (node x)) {n : Nat}
    (hn : xs.length < n) :
    elementsWithin (valueWithin depth) n
        ('\n' :: (xs.flatMap fun x => "    ".toList ++ text x ++ ",\n".toList) ++ ']' :: rest) =
      some (xs.map node, rest) := by
  induction xs generalizing n with
  | nil =>
    obtain ⟨n, rfl⟩ : ∃ m, n = m + 1 := ⟨n - 1, (Nat.succ_pred_eq_of_pos hn).symm⟩
    rfl
  | cons x xs ih =>
    obtain ⟨n, rfl⟩ : ∃ m, n = m + 1 := ⟨n - 1, by omega⟩
    have hline : '\n' :: ((x :: xs).flatMap fun x => "    ".toList ++ text x ++ ",\n".toList) ++
        ']' :: rest = '\n' :: ' ' :: ' ' :: ' ' :: ' ' :: (text x ++ ',' ::
          ('\n' :: (xs.flatMap fun x => "    ".toList ++ text x ++ ",\n".toList) ++
            ']' :: rest)) := by
      simp
    rw [hline, elementsWithin_line (h x List.mem_cons_self) depth n,
      ih (fun y hy => h y (List.mem_cons_of_mem x hy)) (Nat.lt_of_succ_lt_succ hn)]
    rfl

/-! ### Values -/

/-- **A text is that of a value**, wherever it stands before something that stops a scalar. Blanks
before it are not part of it. -/
structure IsValue (t : Text) (node : Node) : Prop where
  skipSpaces_append : ∀ rest, skipSpaces (t ++ rest) = t ++ rest
  value?_append : ∀ rest, Stops rest → value? (t ++ rest) = some (node, rest)

/-- What begins with something else than a blank has none before it. -/
theorem skipSpaces_cons {c : Char} {t : Text} (hspace : c ≠ ' ') (htab : c ≠ '\t') :
    skipSpaces (c :: t) = c :: t := by
  refine List.dropWhile_cons_of_neg ?_
  rw [Bool.or_eq_true, beq_iff_eq, beq_iff_eq]
  exact not_or.2 ⟨hspace, htab⟩

theorem IsScalar.isValue {run : Text} {node : Node} (h : IsScalar run node) : IsValue run node where
  skipSpaces_append rest := by
    obtain ⟨c, t, rfl⟩ := List.exists_cons_of_ne_nil h.ne_nil
    exact skipSpaces_cons (h.head_ne (by decide)) (h.head_ne (by decide))
  value?_append rest hrest := valueWithin_of_isScalar h hrest depthLimit

/-- An array is read by its elements. -/
theorem value?_bracket (t : Text) :
    value? ('[' :: t) =
      (elementsWithin (valueWithin (depthLimit - 1)) (t.length + 1) t).map
        fun r => (.array r.1, r.2) := by
  rw [value?, depthLimit, valueWithin]

theorem isValue_singleton {run : Text} {node : Node} (h : IsScalar run node) :
    IsValue ('[' :: (run ++ [']'])) (.array [node]) where
  skipSpaces_append rest := skipSpaces_cons (by decide) (by decide)
  value?_append rest _ := by
    rw [List.cons_append, value?_bracket, List.append_assoc, List.singleton_append,
      elementsWithin_last h]
    rfl

theorem isValue_lines {α : Type} {text : α → Text} {node : α → Node} {xs : List α}
    (h : ∀ x ∈ xs, IsScalar (text x) (node x)) :
    IsValue ('[' :: '\n' :: (xs.flatMap fun x => "    ".toList ++ text x ++ ",\n".toList) ++ [']'])
      (.array (xs.map node)) where
  skipSpaces_append rest := skipSpaces_cons (by decide) (by decide)
  value?_append rest _ := by
    have hlength : xs.length ≤
        (xs.flatMap fun x => "    ".toList ++ text x ++ ",\n".toList).length := by
      rw [List.length_flatMap]
      refine le_of_eq_of_le (List.length_map _).symm
        (List.length_le_sum_of_one_le _ fun count hcount => ?_)
      obtain ⟨x, -, rfl⟩ := List.mem_map.1 hcount
      simp
    rw [List.append_assoc, List.cons_append, value?_bracket, List.singleton_append,
      elementsWithin_lines _ _ _ h]
    · rfl
    · simp only [List.length_append, List.length_cons]
      omega

/-- The characters of a text in quotes that stand for themselves. -/
def isPlain (c : Char) : Bool :=
  isPrintable c && c != '"' && c != '\\'

/-- Plain characters are read up to the closing quotes. -/
theorem basicWithin_of_isPlain {t : Text} (h : ∀ c ∈ t, isPlain c = true) (rest : Text) {n : Nat}
    (hn : t.length < n) : basicWithin n (t ++ '"' :: rest) = some (t, rest) := by
  induction t generalizing n with
  | nil =>
    obtain ⟨n, rfl⟩ : ∃ m, n = m + 1 := ⟨n - 1, (Nat.succ_pred_eq_of_pos hn).symm⟩
    rfl
  | cons c t ih =>
    obtain ⟨n, rfl⟩ : ∃ m, n = m + 1 := ⟨n - 1, by omega⟩
    have hc := h c List.mem_cons_self
    rw [isPlain, Bool.and_eq_true, Bool.and_eq_true, bne_iff_ne, bne_iff_ne] at hc
    rw [List.cons_append, basicWithin, if_neg hc.1.2, if_neg hc.2, if_pos hc.1.1,
      ih (fun d hd => h d (List.mem_cons_of_mem c hd)) (Nat.lt_of_succ_lt_succ hn)]
    rfl

theorem isValue_quoted {t : Text} (hne : t ≠ []) (h : ∀ c ∈ t, isPlain c = true) :
    IsValue ('"' :: (t ++ ['"'])) (.text t) where
  skipSpaces_append rest := skipSpaces_cons (by decide) (by decide)
  value?_append rest _ := by
    have hbasic : basic? (t ++ '"' :: rest) = some (t, rest) := by
      refine basicWithin_of_isPlain h rest ?_
      simp
    obtain ⟨c, u, rfl⟩ := List.exists_cons_of_ne_nil hne
    have hc := h c List.mem_cons_self
    have hquoted : quoted? ('"' :: c :: (u ++ '"' :: rest)) = some (c :: u, rest) := by
      rw [quoted?]
      · exact hbasic
      · rintro v heq
        rw [(List.cons.inj heq).1] at hc
        exact absurd hc (by decide)
    change (quoted? ('"' :: (c :: u ++ ['"']) ++ rest)).map _ = _
    rw [List.cons_append, List.cons_append, List.cons_append, List.append_assoc,
      List.singleton_append, hquoted]
    rfl

/-! ### Keys -/

/-- A text that can be a key without quotes. -/
structure IsBareKey (key : Text) : Prop where
  ne_nil : key ≠ []
  isKeyChar_of_mem : ∀ c ∈ key, isKeyChar c = true

section

variable {key : Text}

theorem IsBareKey.head_ne {c d : Char} {t : Text} (h : IsBareKey (c :: t))
    (hd : isKeyChar d = false) : c ≠ d := by
  rintro rfl
  exact absurd (h.isKeyChar_of_mem c List.mem_cons_self) (by rw [hd]; exact Bool.false_ne_true)

theorem IsBareKey.skipSpaces_append (h : IsBareKey key) (rest : Text) :
    skipSpaces (key ++ rest) = key ++ rest := by
  obtain ⟨c, t, rfl⟩ := List.exists_cons_of_ne_nil h.ne_nil
  exact skipSpaces_cons (h.head_ne (by decide)) (h.head_ne (by decide))

theorem keyPart?_of_isBareKey (h : IsBareKey key) {rest : Text}
    (hrest : ∀ c ∈ rest.head?, isKeyChar c = false) :
    keyPart? (key ++ rest) = some (key, rest) := by
  have htake := Text.takeWhile_dropWhile_append h.isKeyChar_of_mem hrest
  rw [keyPart?.eq_def]
  split
  · next heq =>
    obtain ⟨c, t, rfl⟩ := List.exists_cons_of_ne_nil h.ne_nil
    exact absurd (List.cons.inj heq).1 (h.head_ne (by decide))
  · next heq =>
    obtain ⟨c, t, rfl⟩ := List.exists_cons_of_ne_nil h.ne_nil
    exact absurd (List.cons.inj heq).1 (h.head_ne (by decide))
  · rw [htake.1, htake.2]
    exact if_neg h.ne_nil

/-- **A key without quotes and dots.** -/
theorem key?_of_isBareKey (h : IsBareKey key) {rest : Text}
    (hrest : ∀ c ∈ rest.head?, isKeyChar c = false)
    (hdot : (skipSpaces rest).head? ≠ some '.') :
    key? (key ++ rest) = some ([key], skipSpaces rest) := by
  rw [key?, depthLimit, keyWithin, h.skipSpaces_append, keyPart?_of_isBareKey h hrest]
  simp only [Option.bind_eq_bind, Option.bind_some]
  split
  · next heq => exact absurd (by rw [heq]; rfl) hdot
  · rfl

end

/-! ### Lines -/

/-- An empty line says nothing. -/
theorem statementsWithin_empty (n : Nat) (rest : Text) :
    statementsWithin (n + 1) ('\n' :: rest) = statementsWithin n rest :=
  rfl

/-- A line that begins with a bracket or with a key says something. -/
theorem statementsWithin_cons {c : Char} {t : Text} (n : Nat)
    (hc : c = '[' ∨ isKeyChar c = true) :
    statementsWithin (n + 1) (c :: t) =
      (statement? (c :: t)).bind fun r => (statementsWithin n r.2).map (r.1 :: ·) := by
  have hne {d : Char} (hd : d ≠ '[') (hd' : isKeyChar d = false) : c ≠ d := by
    rintro rfl
    exact hc.elim hd (by rw [hd']; exact Bool.false_ne_true)
  rw [statementsWithin, skipSpaces_cons (hne (by decide) (by decide))
    (hne (by decide) (by decide))]
  split
  · next heq => exact absurd heq (List.cons_ne_nil _ _)
  · next heq => exact absurd (List.cons.inj heq).1 (hne (by decide) (by decide))
  · next heq => exact absurd (List.cons.inj heq).1 (hne (by decide) (by decide))
  · next heq => exact absurd (List.cons.inj heq).1 (hne (by decide) (by decide))
  · cases statement? (c :: t) with
    | none => rfl
    | some r =>
      rw [Option.bind_some, Option.map_eq_bind]
      rfl

/-- **A name in brackets is a header.** -/
theorem statementsWithin_header {name : Text} (h : IsBareKey name) (n : Nat) (rest : Text) :
    statementsWithin (n + 1) ('[' :: (name ++ ']' :: '\n' :: rest)) =
      (statementsWithin n rest).map (.header [name] :: ·) := by
  have hkey : key? (name ++ ']' :: '\n' :: rest) = some ([name], ']' :: '\n' :: rest) := by
    refine key?_of_isBareKey h (fun c hc => ?_) fun heq => ?_
    · obtain rfl := Option.some.inj hc
      decide
    · exact absurd (show ']' = '.' from Option.some.inj heq) (by decide)
  have hstatement : statement? ('[' :: (name ++ ']' :: '\n' :: rest)) =
      some (.header [name], rest) := by
    obtain ⟨c, t, rfl⟩ := List.exists_cons_of_ne_nil h.ne_nil
    rw [List.cons_append] at hkey ⊢
    rw [statement?]
    · rw [hkey]
      rfl
    · exact fun _ heq => absurd (List.cons.inj heq).1 (h.head_ne (by decide))
  rw [statementsWithin_cons n (Or.inl rfl), hstatement]
  rfl

/-- **A key with a value behind it is a pair.** -/
theorem statementsWithin_pair {key value : Text} {node : Node} (h : IsBareKey key)
    (hvalue : IsValue value node) (n : Nat) (rest : Text) :
    statementsWithin (n + 1) (key ++ ' ' :: '=' :: ' ' :: (value ++ '\n' :: rest)) =
      (statementsWithin n rest).map (.pair [key] node :: ·) := by
  have hkey : key? (key ++ ' ' :: '=' :: ' ' :: (value ++ '\n' :: rest)) =
      some ([key], '=' :: ' ' :: (value ++ '\n' :: rest)) := by
    refine key?_of_isBareKey h (fun c hc => ?_) fun heq => ?_
    · obtain rfl := Option.some.inj hc
      decide
    · exact absurd (show '=' = '.' from Option.some.inj heq) (by decide)
  have hpair : pair? value? (key ++ ' ' :: '=' :: ' ' :: (value ++ '\n' :: rest)) =
      some (([key], node), '\n' :: rest) := by
    have hspace : skipSpaces (' ' :: (value ++ '\n' :: rest)) = value ++ '\n' :: rest :=
      hvalue.skipSpaces_append _
    rw [pair?, hkey]
    change ((value? (skipSpaces (' ' :: (value ++ '\n' :: rest)))).bind _) = _
    rw [hspace, hvalue.value?_append _ (stops_lineEnd rest)]
    rfl
  obtain ⟨c, t, rfl⟩ := List.exists_cons_of_ne_nil h.ne_nil
  rw [List.cons_append] at hpair ⊢
  have hstatement : statement? (c :: (t ++ ' ' :: '=' :: ' ' :: (value ++ '\n' :: rest))) =
      some (.pair [c :: t] node, rest) := by
    rw [statement?]
    · rw [hpair]
      rfl
    · exact fun _ heq => absurd (List.cons.inj heq).1 (h.head_ne (by decide))
    · exact fun _ heq => absurd (List.cons.inj heq).1 (h.head_ne (by decide))
  rw [statementsWithin_cons n (Or.inr (h.isKeyChar_of_mem c List.mem_cons_self)), hstatement]
  rfl

end RunningTab.Toml
