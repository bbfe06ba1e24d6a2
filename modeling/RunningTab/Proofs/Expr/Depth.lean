import Mathlib.Data.List.Induction
import RunningTab.Expr.Machine

/-!
# The machine by the depth of its stack

How a run of the machine ends can be told without working anything out: a number makes the stack one
value deeper, an operator of two operands one value less deep, and nothing else changes its depth
(`RunningTab.Expr.depth`). A run fails for want of an operand exactly if some operator is met where
the stack is not deep enough for it (`RunningTab.Expr.Underflows`), and otherwise it is the depth
behind all tokens that decides (`RunningTab.Expr.runPostfix_depth`).

What carries the proof is what is known of the machine when it has got past some tokens
(`RunningTab.Expr.Passes`): the depth of its stack, which operators its steps have applied, and that
the result of the last step is still on the stack. The induction goes along the tokens from the left
and always starts from the empty stack, so that what has been passed is the whole of the run so far.
Of a run that fails, everything before the first operator without its operands is known in this way
(`RunningTab.Expr.Underflows.exists_first`).
-/

namespace RunningTab.Expr

/-! ### Depth -/

/-- Whether the token is an operator of two operands. -/
def Token.isBinary : Token → Bool
  | operator op => op != .neg
  | _ => false

/-- By how many values a token makes the stack deeper. -/
def Token.rise : Token → Int
  | number _ => 1
  | operator op => if op = .neg then 0 else -1
  | opening | closing => 0

/-- **The depth of the stack behind tokens**, as far as the tokens tell it. -/
def depth : List Token → Int
  | [] => 0
  | t :: ts => t.rise + depth ts

/-- At a depth the operator lacks an operand. -/
def Operator.Starves (op : Operator) (d : Int) : Prop :=
  op = .neg ∧ d = 0 ∨ op ≠ .neg ∧ d < 2

/-- **Some operator is met where it lacks an operand.** -/
def Underflows (ts : List Token) : Prop :=
  ∃ before op behind, ts = before ++ .operator op :: behind ∧ op.Starves (depth before)

theorem depth_concat (ts : List Token) (t : Token) : depth (ts ++ [t]) = depth ts + t.rise := by
  induction ts with
  | nil => exact Int.add_comm t.rise 0
  | cons u ts ih => rw [List.cons_append, depth, depth, ih, Int.add_assoc]

/-- The depth is the number of numbers less that of the operators of two operands. -/
theorem depth_eq_countP (ts : List Token) :
    depth ts = ts.countP Token.isNumber - ts.countP Token.isBinary := by
  induction ts with
  | nil => rfl
  | cons t ts ih =>
    rw [depth, ih, List.countP_cons, List.countP_cons]
    rcases t with x | op | _ | _
    · simp [Token.rise, Token.isNumber, Token.isBinary]
      omega
    · cases op <;> simp [Token.rise, Token.isNumber, Token.isBinary] <;> omega
    · simp [Token.rise, Token.isNumber, Token.isBinary]
    · simp [Token.rise, Token.isNumber, Token.isBinary]

theorem Underflows.append {ts : List Token} (h : Underflows ts) (us : List Token) :
    Underflows (ts ++ us) := by
  obtain ⟨before, op, behind, rfl, hop⟩ := h
  exact ⟨before, op, behind ++ us, by simp, hop⟩

/-- **Where operands are lacking there is a first operator that lacks one.** -/
theorem Underflows.exists_first {ts : List Token} (h : Underflows ts) :
    ∃ before op behind, ts = before ++ .operator op :: behind ∧ ¬Underflows before ∧
      op.Starves (depth before) := by
  induction ts using List.reverseRecOn with
  | nil =>
    obtain ⟨before, op, behind, hsplit, -⟩ := h
    exact absurd hsplit (by simp)
  | append_singleton ts t ih =>
    by_cases hts : Underflows ts
    · obtain ⟨before, op, behind, rfl, hfirst, hop⟩ := ih hts
      exact ⟨before, op, behind ++ [t], by simp, hfirst, hop⟩
    · -- then it is the last token that lacks one
      obtain ⟨before, op, behind, hsplit, hop⟩ := h
      rcases List.eq_nil_or_concat behind with rfl | ⟨behind, u, rfl⟩
      · obtain ⟨rfl, -⟩ := List.append_inj' hsplit rfl
        exact ⟨ts, op, [], hsplit, hts, hop⟩
      · have hshort : ts = before ++ .operator op :: behind := by
          have hsplit' : ts ++ [t] = (before ++ .operator op :: behind) ++ [u] := by
            simpa using hsplit
          exact (List.append_inj' hsplit' rfl).1
        exact absurd ⟨before, op, behind, hshort, hop⟩ hts

/-! ### Operators and steps -/

/-- The operator that a token is, if it is one. -/
def Token.operator? : Token → Option Operator
  | operator op => some op
  | _ => none

/-- The operators among tokens, in their order. -/
def operatorsOf (ts : List Token) : List Operator :=
  ts.filterMap Token.operator?

/-- The operator that a step applies. -/
def Step.operator (s : Step) : Operator :=
  match s.work with
  | .negation _ => .neg
  | .combination _ op _ => op

/-- The run with steps before it. -/
def Run.behind (steps : List Step) (r : Run) : Run :=
  { r with steps := steps ++ r.steps }

/-! ### Getting past tokens -/

/-- **The machine gets past the tokens**, with the given steps, and comes to the given stack. -/
structure Passes (ts : List Token) (steps : List Step) (st : List Float) : Prop where
  run_append : ∀ us, runPostfix (ts ++ us) = (runFrom st us).behind steps
  depth_eq : depth ts = st.length
  operators_eq : steps.map Step.operator = operatorsOf ts
  /-- The result of the last step is on the stack. -/
  result_mem : ∀ s, steps.getLast? = some s → s.result ∈ st

section

variable {ts : List Token} {steps : List Step} {st : List Float} {a b : Float}

theorem passes_nil : Passes [] [] [] :=
  ⟨fun _ => rfl, rfl, rfl, fun _ h => absurd h (by simp)⟩

/-- A token that is no operator takes no step. -/
theorem Passes.quiet {t : Token} {st' : List Float} (h : Passes ts steps st)
    (hrun : ∀ us, runFrom st (t :: us) = runFrom st' us) (hdepth : t.rise + st.length = st'.length)
    (ht : t.operator? = none) (hst : st ⊆ st') : Passes (ts ++ [t]) steps st' where
  run_append us := by rw [List.append_assoc, List.singleton_append, h.run_append, hrun]
  depth_eq := by rw [depth_concat, h.depth_eq, Int.add_comm, hdepth]
  operators_eq := by
    rw [h.operators_eq, operatorsOf, operatorsOf, List.filterMap_append]
    simp [ht]
  result_mem s hs := hst (h.result_mem s hs)

/-- An operator takes one step, and leaves its result on the stack. -/
theorem Passes.step {op : Operator} {s : Step} {st' : List Float} (h : Passes ts steps st)
    (hrun : ∀ us, runFrom st (.operator op :: us) = (runFrom (s.result :: st') us).after s)
    (hdepth : (Token.operator op).rise + st.length = st'.length + 1) (hs : s.operator = op) :
    Passes (ts ++ [.operator op]) (steps ++ [s]) (s.result :: st') where
  run_append us := by
    rw [List.append_assoc, List.singleton_append, h.run_append, hrun]
    simp [Run.behind, Run.after]
  depth_eq := by
    rw [depth_concat, h.depth_eq, Int.add_comm, hdepth]
    rfl
  operators_eq := by
    rw [List.map_append, h.operators_eq, operatorsOf, operatorsOf, List.filterMap_append]
    simp [hs, Token.operator?]
  result_mem s' hs' := by
    rw [List.getLast?_concat] at hs'
    rw [← Option.some.inj hs']
    exact List.mem_cons_self

/-- An operator of two operands at work. -/
theorem runFrom_operator {op : Operator} (hop : op ≠ .neg) (us : List Token) :
    runFrom (b :: a :: st) (.operator op :: us) =
      (runFrom (op.combine a b :: st) us).after ⟨.combination a op b, op.combine a b⟩ := by
  cases op with
  | neg => exact absurd rfl hop
  | _ => rfl

theorem Passes.negation (h : Passes ts steps (a :: st)) :
    Passes (ts ++ [.operator .neg]) (steps ++ [⟨.negation a, -a⟩]) (-a :: st) :=
  h.step (fun _ => rfl) (by simp [Token.rise]) rfl

theorem Passes.combination {op : Operator} (h : Passes ts steps (b :: a :: st)) (hop : op ≠ .neg) :
    Passes (ts ++ [.operator op]) (steps ++ [⟨.combination a op b, op.combine a b⟩])
      (op.combine a b :: st) :=
  h.step (runFrom_operator hop)
    (by simp only [Token.rise, if_neg hop, List.length_cons]; omega) rfl

/-- **Where no operator lacks an operand, the machine gets past the tokens.** -/
theorem exists_passes (h : ¬Underflows ts) : ∃ steps st, Passes ts steps st := by
  induction ts using List.reverseRecOn with
  | nil => exact ⟨[], [], passes_nil⟩
  | append_singleton ts t ih =>
    obtain ⟨steps, st, hts⟩ := ih fun hunderflow => h (hunderflow.append [t])
    cases t with
    | number x =>
      exact ⟨steps, x :: st, hts.quiet (fun _ => rfl) (Int.add_comm 1 _) rfl
        (List.subset_cons_self x st)⟩
    | opening =>
      exact ⟨steps, st, hts.quiet (fun _ => rfl) (Int.zero_add _) rfl (List.Subset.refl st)⟩
    | closing =>
      exact ⟨steps, st, hts.quiet (fun _ => rfl) (Int.zero_add _) rfl (List.Subset.refl st)⟩
    | operator op =>
      have hfed : ¬op.Starves st.length := fun hop => h ⟨ts, op, [], rfl, hts.depth_eq ▸ hop⟩
      by_cases hop : op = .neg
      · subst hop
        cases st with
        | nil => exact absurd (Or.inl ⟨rfl, rfl⟩) hfed
        | cons a st => exact ⟨_, _, hts.negation⟩
      · rcases st with _ | ⟨b, _ | ⟨a, st⟩⟩
        · exact absurd (Or.inr ⟨hop, (by decide : (0 : Int) < 2)⟩) hfed
        · exact absurd (Or.inr ⟨hop, (by decide : (1 : Int) < 2)⟩) hfed
        · exact ⟨_, _, hts.combination hop⟩

/-! ### How a run ends -/

/-- Behind the last token the stack decides. -/
theorem Passes.runPostfix_eq (h : Passes ts steps st) :
    runPostfix ts = ⟨steps, stackOutcome st⟩ := by
  have hrun := h.run_append []
  rw [List.append_nil] at hrun
  rw [hrun, runFrom, Run.behind, List.append_nil]

/-- At an operator that lacks an operand the run is over. -/
theorem Passes.runPostfix_of_starves {op : Operator} (h : Passes ts steps st)
    (hop : op.Starves (depth ts)) (us : List Token) :
    runPostfix (ts ++ .operator op :: us) = ⟨steps, .error .missingOperand⟩ := by
  have hrun : runFrom st (.operator op :: us) = ⟨[], .error .missingOperand⟩ := by
    rw [h.depth_eq] at hop
    rcases hop with ⟨rfl, hdepth⟩ | ⟨hop, hdepth⟩
    · obtain rfl : st = [] := List.length_eq_zero_iff.1 (by omega)
      rfl
    · rcases st with _ | ⟨b, _ | ⟨a, st⟩⟩
      · cases op <;> rfl
      · cases op with
        | neg => exact absurd rfl hop
        | _ => rfl
      · simp only [List.length_cons] at hdepth
        omega
  rw [h.run_append, hrun, Run.behind, List.append_nil]

end

/-- Only the number of values on the stack decides. -/
theorem stackOutcome_iff (st : List Float) :
    stackOutcome st ≠ .error .missingOperand ∧ ((∃ x, stackOutcome st = .ok x) ↔ st.length = 1) ∧
      (∀ k, stackOutcome st = .error (.leftoverOperands k) ↔ 2 ≤ k ∧ st.length = k) ∧
      (stackOutcome st = .error .empty ↔ st.length = 0) := by
  rcases st with _ | ⟨x, _ | ⟨y, st⟩⟩
  · simp [stackOutcome]
    omega
  · simp [stackOutcome]
    omega
  · simp [stackOutcome]

/-- A run that meets an operator without its operands fails there. -/
theorem exists_runPostfix_of_underflows {ts : List Token} (h : Underflows ts) :
    ∃ before op behind steps st, ts = before ++ .operator op :: behind ∧ ¬Underflows before ∧
      op.Starves (depth before) ∧ Passes before steps st ∧
      runPostfix ts = ⟨steps, .error .missingOperand⟩ := by
  obtain ⟨before, op, behind, rfl, hfirst, hop⟩ := h.exists_first
  obtain ⟨steps, st, hbefore⟩ := exists_passes hfirst
  exact ⟨before, op, behind, steps, st, rfl, hfirst, hop, hbefore,
    hbefore.runPostfix_of_starves hop behind⟩

/-- **How a run ends is a matter of depths.** -/
theorem outcome_runPostfix_iff (ts : List Token) :
    ((runPostfix ts).outcome = .error .missingOperand ↔ Underflows ts) ∧
      ((∃ x, (runPostfix ts).outcome = .ok x) ↔ ¬Underflows ts ∧ depth ts = 1) ∧
      (∀ k, (runPostfix ts).outcome = .error (.leftoverOperands k) ↔
        ¬Underflows ts ∧ 2 ≤ k ∧ depth ts = k) ∧
      ((runPostfix ts).outcome = .error .empty ↔ ¬Underflows ts ∧ depth ts = 0) := by
  by_cases hunderflow : Underflows ts
  · obtain ⟨before, op, behind, steps, st, -, -, -, -, hrun⟩ :=
      exists_runPostfix_of_underflows hunderflow
    rw [hrun]
    simp [hunderflow]
  · obtain ⟨steps, st, hpasses⟩ := exists_passes hunderflow
    obtain ⟨hmissing, hok, hleftover, hempty⟩ := stackOutcome_iff st
    have hdepth : ∀ k : Nat, depth ts = k ↔ st.length = k := fun k => by
      rw [hpasses.depth_eq, Int.natCast_inj]
    rw [hpasses.runPostfix_eq]
    refine ⟨iff_of_false hmissing hunderflow, ?_, fun k => ?_, ?_⟩
    · rw [hok, and_iff_right hunderflow]
      exact (hdepth 1).symm
    · rw [hleftover, and_iff_right hunderflow, hdepth]
    · rw [hempty, and_iff_right hunderflow]
      exact (hdepth 0).symm

/-! ### What the numbers are -/

/-- The token with zero for any number. -/
def Token.blanked : Token → Token
  | number _ => number 0.0
  | t => t

theorem Token.rise_blanked (t : Token) : t.blanked.rise = t.rise := by
  cases t <;> rfl

theorem depth_map_blanked (ts : List Token) : depth (ts.map Token.blanked) = depth ts := by
  induction ts with
  | nil => rfl
  | cons t ts ih => rw [List.map_cons, depth, depth, ih, t.rise_blanked]

theorem Token.eq_of_blanked_eq_operator {t : Token} {op : Operator}
    (h : t.blanked = .operator op) : t = .operator op := by
  cases t with
  | number x => exact absurd h (by simp [Token.blanked])
  | _ => exact h

theorem underflows_map_blanked (ts : List Token) :
    Underflows (ts.map Token.blanked) ↔ Underflows ts := by
  constructor
  · rintro ⟨before, op, behind, hsplit, hop⟩
    obtain ⟨ahead, rest, rfl, rfl, hrest⟩ := List.map_eq_append_iff.1 hsplit
    obtain ⟨t, rest, rfl, ht, -⟩ := List.map_eq_cons_iff.1 hrest
    obtain rfl := Token.eq_of_blanked_eq_operator ht
    exact ⟨ahead, op, rest, rfl, depth_map_blanked ahead ▸ hop⟩
  · rintro ⟨before, op, behind, rfl, hop⟩
    refine ⟨before.map Token.blanked, op, behind.map Token.blanked, by simp [Token.blanked], ?_⟩
    rwa [depth_map_blanked]

/-- How a run ended, without its value. -/
def Run.verdict (r : Run) : Except Failure Unit :=
  r.outcome.map fun _ => ()

/-- How a run ends at a depth. -/
def verdictAt : Nat → Except Failure Unit
  | 0 => .error .empty
  | 1 => .ok ()
  | n => .error (.leftoverOperands n)

theorem Passes.verdict_eq {ts : List Token} {steps : List Step} {st : List Float}
    (h : Passes ts steps st) : (runPostfix ts).verdict = verdictAt st.length := by
  rw [h.runPostfix_eq, Run.verdict]
  rcases st with _ | ⟨x, _ | ⟨y, st⟩⟩ <;> rfl

theorem verdict_of_underflows {ts : List Token} (h : Underflows ts) :
    (runPostfix ts).verdict = .error .missingOperand := by
  rw [Run.verdict, (outcome_runPostfix_iff ts).1.2 h]
  rfl

/-- **The numbers do not matter to how a run ends.** -/
theorem verdict_congr {ts us : List Token} (h : ts.map Token.blanked = us.map Token.blanked) :
    (runPostfix ts).verdict = (runPostfix us).verdict := by
  have hunderflows : Underflows ts ↔ Underflows us := by
    rw [← underflows_map_blanked ts, h, underflows_map_blanked]
  have hdepth : depth ts = depth us := by
    rw [← depth_map_blanked ts, h, depth_map_blanked]
  by_cases hunderflow : Underflows ts
  · rw [verdict_of_underflows hunderflow, verdict_of_underflows (hunderflows.1 hunderflow)]
  · obtain ⟨steps, st, hts⟩ := exists_passes hunderflow
    obtain ⟨steps', st', hus⟩ := exists_passes (mt hunderflows.2 hunderflow)
    have hlength : st.length = st'.length := by
      rw [← Int.natCast_inj, ← hts.depth_eq, hdepth, hus.depth_eq]
    rw [hts.verdict_eq, hus.verdict_eq, hlength]

/-! ### The steps -/

/-- **The steps of a run** apply the operators of the tokens that the machine gets past: all of
them, or those before the first operator that lacks an operand. -/
theorem exists_operators_steps (ts : List Token) :
    ∃ before behind, ts = before ++ behind ∧ ¬Underflows before ∧
      (behind = [] ∨ ∃ op rest, behind = .operator op :: rest ∧ op.Starves (depth before)) ∧
      (runPostfix ts).steps.map Step.operator = operatorsOf before := by
  by_cases hunderflow : Underflows ts
  · obtain ⟨before, op, behind, steps, st, hsplit, hfirst, hop, hpasses, hrun⟩ :=
      exists_runPostfix_of_underflows hunderflow
    refine ⟨before, .operator op :: behind, hsplit, hfirst, Or.inr ⟨op, behind, rfl, hop⟩, ?_⟩
    rw [hrun]
    exact hpasses.operators_eq
  · obtain ⟨steps, st, hpasses⟩ := exists_passes hunderflow
    refine ⟨ts, [], (List.append_nil ts).symm, hunderflow, Or.inl rfl, ?_⟩
    rw [hpasses.runPostfix_eq]
    exact hpasses.operators_eq

/-- **The last step gives the value of the run**, if there is an operator and a value. -/
theorem exists_getLast?_of_ok {ts : List Token} {x : Float} (h : (runPostfix ts).outcome = .ok x)
    (hoperators : operatorsOf ts ≠ []) :
    ∃ s, (runPostfix ts).steps.getLast? = some s ∧ s.result = x := by
  have hunderflow : ¬Underflows ts := ((outcome_runPostfix_iff ts).2.1.1 ⟨x, h⟩).1
  obtain ⟨steps, st, hpasses⟩ := exists_passes hunderflow
  rw [hpasses.runPostfix_eq] at h ⊢
  have hsteps : steps ≠ [] := by
    rintro rfl
    exact hoperators hpasses.operators_eq.symm
  have hlast : steps.getLast? = some (steps.getLast hsteps) := List.getLast?_eq_some_getLast hsteps
  -- the only value that is left is the one that the last step has put there
  have hst : st = [x] := by
    rcases st with _ | ⟨y, _ | ⟨z, st⟩⟩ <;> cases h
    rfl
  have hmem := hpasses.result_mem _ hlast
  rw [hst, List.mem_singleton] at hmem
  exact ⟨_, hlast, hmem⟩

/-- **How a run of the machine ends, by depths alone.** An operand is missing exactly if some
operator is met at a depth where it lacks one. Otherwise there is a value exactly if the depth
behind all tokens is one, values are left over exactly if it is more, as many as it says, and there
is nothing exactly if it is zero; it is the number of numbers less that of the operators of two
operands. The numbers themselves do not matter. There is a step for every operator, in their order,
up to the end or to the operator that lacks an operand, and if there is a value and any operator,
the last step gives it. -/
theorem runPostfix_depth (ts : List Token) :
    (((runPostfix ts).outcome = .error .missingOperand ↔ Underflows ts) ∧
      ((∃ x, (runPostfix ts).outcome = .ok x) ↔ ¬Underflows ts ∧ depth ts = 1) ∧
      (∀ k, (runPostfix ts).outcome = .error (.leftoverOperands k) ↔
        ¬Underflows ts ∧ 2 ≤ k ∧ depth ts = k) ∧
      ((runPostfix ts).outcome = .error .empty ↔ ¬Underflows ts ∧ depth ts = 0)) ∧
    depth ts = ts.countP Token.isNumber - ts.countP Token.isBinary ∧
    (∀ us, us.map Token.blanked = ts.map Token.blanked →
      (runPostfix us).verdict = (runPostfix ts).verdict) ∧
    (∃ before behind, ts = before ++ behind ∧ ¬Underflows before ∧
      (behind = [] ∨ ∃ op rest, behind = .operator op :: rest ∧ op.Starves (depth before)) ∧
      (runPostfix ts).steps.map Step.operator = operatorsOf before) ∧
    ∀ x, (runPostfix ts).outcome = .ok x → operatorsOf ts ≠ [] →
      ∃ s, (runPostfix ts).steps.getLast? = some s ∧ s.result = x :=
  ⟨outcome_runPostfix_iff ts, depth_eq_countP ts, fun _ h => verdict_congr h,
    exists_operators_steps ts, fun _ h hoperators => exists_getLast?_of_ok h hoperators⟩

end RunningTab.Expr
