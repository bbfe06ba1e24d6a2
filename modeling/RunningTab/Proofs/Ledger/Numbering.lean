import RunningTab.Proofs.Ledger.Effect

/-!
# Numbered lines

In every reachable ledger there is a page to look at, every snapshot has as many pages as the
ledger, and the identifiers on a page increase and stay below the next one
(`RunningTab.Ledger.Numbered`, `RunningTab.Ledger.numbered_of_reachable`). So an identifier stands
for at most one line of a page: looking a line up by its identifier and by its place is the same
(`RunningTab.Page.line?_of_getElem?`).
-/

namespace RunningTab

namespace Page

/-- The identifiers of a page increase and stay below `n`. -/
def Increasing (n : Nat) (p : Page) : Prop :=
  (p.map Line.id).Pairwise (· < ·) ∧ ∀ id ∈ p.map Line.id, id < n

theorem Increasing.mono {n m : Nat} {p : Page} (h : p.Increasing n) (hnm : n ≤ m) :
    p.Increasing m :=
  ⟨h.1, fun id hid => Nat.lt_of_lt_of_le (h.2 id hid) hnm⟩

theorem Increasing.amend {n : Nat} {p : Page} (h : p.Increasing n) (new : Line) :
    (p.amend new.id fun _ => new).Increasing n := by
  rw [Increasing, map_id_amend]
  exact h

theorem Increasing.append {n : Nat} {p : Page} (h : p.Increasing n) {new : Line}
    (hid : new.id = n) : Increasing (n + 1) (p ++ [new]) := by
  have hmap : (p ++ [new]).map Line.id = p.map Line.id ++ [n] := by simp [hid]
  rw [Increasing, hmap]
  constructor
  · refine List.pairwise_append.2 ⟨h.1, List.pairwise_singleton _ _, fun a ha b hb => ?_⟩
    rw [List.mem_singleton.1 hb]
    exact h.2 a ha
  · intro id hmem
    rcases List.mem_append.1 hmem with hold | hnew
    · exact Nat.lt_succ_of_lt (h.2 id hold)
    · rw [List.mem_singleton.1 hnew]
      exact Nat.lt_succ_self n

theorem Increasing.sublist {n : Nat} {p q : Page} (h : p.Increasing n) (hqp : q.Sublist p) :
    q.Increasing n :=
  ⟨h.1.sublist (hqp.map Line.id), fun id hid => h.2 id ((hqp.map Line.id).subset hid)⟩

/-! ### Lines by their place and by their identifier -/

/-- **The line with the identifier of the line at a place is that line.** -/
theorem line?_of_getElem? {p : Page} (hp : (p.map Line.id).Pairwise (· < ·)) {i : Nat}
    {line : Line} (h : p[i]? = some line) : p.line? line.id = some line := by
  induction p generalizing i with
  | nil => exact absurd h (by simp)
  | cons first p ih =>
    obtain ⟨hfirst, hrest⟩ := List.pairwise_cons.1 hp
    cases i with
    | zero =>
      obtain rfl : first = line := by simpa using h
      simp [line?]
    | succ i =>
      rw [List.getElem?_cons_succ] at h
      have hlt : first.id < line.id :=
        hfirst line.id (List.mem_map_of_mem (List.mem_of_getElem? h))
      -- what comes before on the page has a smaller identifier, so the search passes it
      have hne : (first.id == line.id) = false := by simp; omega
      rw [line?, List.find?_cons_of_neg (by simp [hne])]
      exact ih hrest h

/-- Changing the line with the identifier of the line at a place changes that line. -/
theorem getElem?_amend {p : Page} (hp : (p.map Line.id).Pairwise (· < ·)) {i : Nat}
    {line : Line} (h : p[i]? = some line) (f : Line → Line) :
    (p.amend line.id f)[i]? = some (f line) := by
  induction p generalizing i with
  | nil => exact absurd h (by simp)
  | cons first p ih =>
    obtain ⟨hfirst, hrest⟩ := List.pairwise_cons.1 hp
    cases i with
    | zero =>
      obtain rfl : first = line := by simpa using h
      rw [Page.amend, if_pos rfl, List.getElem?_cons_zero]
    | succ i =>
      rw [List.getElem?_cons_succ] at h
      have hlt : first.id < line.id :=
        hfirst line.id (List.mem_map_of_mem (List.mem_of_getElem? h))
      rw [Page.amend, if_neg (Nat.ne_of_lt hlt), List.getElem?_cons_succ]
      exact ih hrest h

end Page

namespace Ledger

/-! ### Numbered ledgers -/

/-- **The shape of a ledger**: one page is looked at, every snapshot has as many pages as there are
now, and the identifiers of every page increase and stay below the next one. -/
structure Numbered (l : Ledger) : Prop where
  current_lt : l.current < l.pages.length
  length_eq : ∀ pages ∈ l.snapshots, pages.length = l.pages.length
  increasing : ∀ pages ∈ l.pages :: l.snapshots, ∀ page ∈ pages, page.Increasing l.nextId

/-- A blank ledger is numbered. -/
theorem numbered_blank (pageCount : Nat) (rate : Float) : (blank pageCount rate).Numbered where
  current_lt := by
    change 0 < (List.replicate (max pageCount 1) ([] : Page)).length
    rw [List.length_replicate]
    omega
  length_eq := fun pages hpages => absurd hpages (by simp [blank])
  increasing := by
    intro pages hpages page hpage
    obtain rfl : pages = List.replicate (max pageCount 1) [] := List.mem_singleton.1 hpages
    obtain rfl : page = [] := List.eq_of_mem_replicate hpage
    exact ⟨List.Pairwise.nil, by simp⟩

/-- Every set of pages that a numbered ledger keeps has as many pages as there are now. -/
theorem Numbered.length_eq_of_mem {l : Ledger} (h : l.Numbered) {pages : List Page}
    (hpages : pages ∈ l.pages :: l.snapshots) : pages.length = l.pages.length := by
  rcases List.mem_cons.1 hpages with rfl | hmem
  · rfl
  · exact h.length_eq pages hmem

/-- A change of the current page that keeps its numbering keeps the ledger numbered. -/
theorem Numbered.modify {l l' : Ledger} (h : l.Numbered) {f : Page → Page}
    (hf : ∀ page : Page, page.Increasing l.nextId → (f page).Increasing l'.nextId)
    (hpages : l'.pages = l.pages.modify l.current f)
    (hsnapshots : ∀ pages ∈ l'.snapshots, pages ∈ l.pages :: l.snapshots)
    (hnextId : l.nextId ≤ l'.nextId) (hcurrent : l'.current = l.current) : l'.Numbered := by
  have hlength : l'.pages.length = l.pages.length := by rw [hpages, List.length_modify]
  refine ⟨?_, fun pages hmem => ?_, fun pages hmem page hpage => ?_⟩
  · rw [hcurrent, hlength]
    exact h.current_lt
  · rw [hlength]
    exact h.length_eq_of_mem (hsnapshots pages hmem)
  · rcases List.mem_cons.1 hmem with rfl | hold
    · rw [hpages] at hpage
      exact forall_mem_modify (h.increasing l.pages List.mem_cons_self) l.current
        (fun _ hp => hp.mono hnextId) hf page hpage
    · exact (h.increasing pages (hsnapshots pages hold) page hpage).mono hnextId

/-- **Operations keep a ledger numbered.** -/
theorem Numbered.after {l : Ledger} (h : l.Numbered) (op : Operation) : (l.after op).Numbered := by
  have heffect := effect_after l op
  have hold : ∀ pages ∈ (l.after op).snapshots, pages ∈ l.pages :: l.snapshots :=
    fun pages hmem => heffect.mem_of_mem_snapshots hmem
  rcases heffect with ⟨hp, hs, hn, hc⟩ | ⟨new, -, hp, -, hn, hc⟩ | ⟨new, -, hp, -, hn, hc⟩ |
    ⟨new, -, hid, hp, -, hn, hc⟩ | ⟨f, hf, hp, -, hn, hc⟩ | ⟨hs, hn, hc⟩
  · refine ⟨?_, ?_, ?_⟩
    · rw [hp]
      rcases hc with hc | hc
      · rw [hc]
        exact h.current_lt
      · exact hc
    · rw [hp, hs]
      exact h.length_eq
    · rw [hp, hs, hn]
      exact h.increasing
  · exact h.modify (fun page hpage => by rw [hn]; exact hpage.amend new) hp hold
      (Nat.le_of_eq hn.symm) hc
  · exact h.modify (fun page hpage => by rw [hn]; exact hpage.amend new) hp hold
      (Nat.le_of_eq hn.symm) hc
  · exact h.modify (fun page hpage => by rw [hn]; exact hpage.append hid) hp hold (by omega) hc
  · exact h.modify (fun page hpage => by rw [hn]; exact hpage.sublist (hf page)) hp hold
      (Nat.le_of_eq hn.symm) hc
  · -- the pages were a snapshot: as many as there were, with identifiers handed out before
    have hback : (l.after op).pages ∈ l.pages :: l.snapshots := by
      rw [hs]
      exact List.mem_cons_of_mem l.pages List.mem_cons_self
    have hlength : (l.after op).pages.length = l.pages.length := h.length_eq_of_mem hback
    refine ⟨?_, fun pages hmem => ?_, fun pages hmem => ?_⟩
    · rw [hc, hlength]
      exact h.current_lt
    · rw [hlength]
      exact h.length_eq_of_mem (hold pages hmem)
    · rw [hn]
      rcases List.mem_cons.1 hmem with rfl | hmem
      · exact h.increasing _ hback
      · exact h.increasing pages (hold pages hmem)

/-- **Every reachable ledger is numbered.** -/
theorem numbered_of_reachable {l : Ledger} (h : l.Reachable) : l.Numbered :=
  of_reachable (P := Numbered) numbered_blank (fun _ op hl => hl.after op) h

end Ledger

end RunningTab
