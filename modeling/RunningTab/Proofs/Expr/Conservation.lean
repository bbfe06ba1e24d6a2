import Mathlib.Data.List.Perm.Basic
import RunningTab.Expr.Postfix

/-!
# What postfix order keeps

Postfix order loses no token but the parentheses, doubles none and makes none up, whether or not the
parentheses fit together (`RunningTab.Expr.postfixOrder_conserves`). An operator is on its way for a
while: it waits on the stack, and it is an operator behind it, a closing parenthesis or the end of
the tokens that releases it. What is the same all the time is what has come out, what waits and what
is still to be read, taken together.

Each of the three ways to release splits the stack in two, and emptying the stack later gives the
second part (`RunningTab.Expr.Waiting.released_append_flush_kept`,
`RunningTab.Expr.Waiting.enclosed_append_flush_outside`). Nothing else need be known of the stack:
not in which order operators come out, nor how many parentheses wait between them. Numbers never
wait, so their order is kept as well.
-/

namespace RunningTab.Expr

open Waiting (released kept enclosed outside flush)

/-! ### Releasing a part of the stack -/

namespace Waiting

/-- What an operator releases comes out before what it keeps. -/
theorem released_append_flush_kept (op : Operator) (st : List Waiting) :
    released op st ++ flush (kept op st) = flush st := by
  induction st with
  | nil => rfl
  | cons w st ih =>
    cases w with
    | paren => rfl
    | operator top =>
      rw [released, kept]
      split
      · rfl
      · exact congrArg (Token.operator top :: ·) ih

/-- What is above the innermost parenthesis comes out before what is below. -/
theorem enclosed_append_flush_outside (st : List Waiting) :
    enclosed st ++ flush (outside st) = flush st := by
  induction st with
  | nil => rfl
  | cons w st ih =>
    cases w with
    | operator top => exact congrArg (Token.operator top :: ·) ih
    | paren => rfl

/-- Numbers never wait. -/
theorem isNumber_of_mem_flush {st : List Waiting} {t : Token} (h : t ∈ flush st) :
    t.isNumber = false := by
  induction st with
  | nil => exact absurd h List.not_mem_nil
  | cons w st ih =>
    cases w with
    | paren => exact ih h
    | operator top =>
      rcases List.mem_cons.1 h with rfl | h
      · rfl
      · exact ih h

/-- There is no number in a part of what waits. -/
theorem filter_isNumber_eq_nil {st : List Waiting} {ts us : List Token} (h : ts ++ us = flush st) :
    ts.filter Token.isNumber = [] := by
  refine List.filter_eq_nil_iff.2 fun t ht => ?_
  have hmem : t ∈ flush st := h ▸ List.mem_append_left us ht
  rw [isNumber_of_mem_flush hmem]
  exact Bool.false_ne_true

end Waiting

/-! ### Along the tokens -/

/-- **Postfix order keeps all tokens but the parentheses**, with what waits for them. -/
theorem postfixFrom_perm (st : List Waiting) (ts : List Token) :
    (postfixFrom st ts).Perm (flush st ++ ts.filter (!·.isParen)) := by
  induction ts generalizing st with
  | nil => exact .of_eq (List.append_nil _).symm
  | cons t ts ih =>
    cases t with
    | number x => exact ((ih st).cons _).trans List.perm_middle.symm
    | opening => exact ih (.paren :: st)
    | closing =>
      have hrest := (ih (outside st)).append_left (enclosed st)
      rwa [← List.append_assoc, Waiting.enclosed_append_flush_outside] at hrest
    | operator op =>
      have hrest := (ih (.operator op :: kept op st)).append_left (released op st)
      refine hrest.trans ?_
      rw [← Waiting.released_append_flush_kept op st, List.append_assoc]
      exact List.perm_middle.symm.append_left _

/-- **Postfix order keeps the numbers in their order**, whatever waits. -/
theorem filter_isNumber_postfixFrom (st : List Waiting) (ts : List Token) :
    (postfixFrom st ts).filter Token.isNumber = ts.filter Token.isNumber := by
  induction ts generalizing st with
  | nil => exact Waiting.filter_isNumber_eq_nil (List.append_nil _)
  | cons t ts ih =>
    cases t with
    | number x => exact congrArg (Token.number x :: ·) (ih st)
    | opening => exact ih (.paren :: st)
    | closing =>
      have hreleased := Waiting.filter_isNumber_eq_nil (Waiting.enclosed_append_flush_outside st)
      rw [postfixFrom, List.filter_append, hreleased, ih]
      rfl
    | operator op =>
      have hreleased := Waiting.filter_isNumber_eq_nil (Waiting.released_append_flush_kept op st)
      rw [postfixFrom, List.filter_append, hreleased, ih]
      rfl

/-- **Postfix order loses nothing and makes nothing up.** Of any tokens, with parentheses that fit
together or not, it holds no parenthesis, every other token as often as they do, and the numbers in
the order in which they stand. -/
theorem postfixOrder_conserves (ts : List Token) :
    (∀ t ∈ postfixOrder ts, t.isParen = false) ∧
      (postfixOrder ts).Perm (ts.filter (!·.isParen)) ∧
      (postfixOrder ts).filter Token.isNumber = ts.filter Token.isNumber := by
  have hperm : (postfixOrder ts).Perm (ts.filter (!·.isParen)) := postfixFrom_perm [] ts
  refine ⟨fun t ht => ?_, hperm, filter_isNumber_postfixFrom [] ts⟩
  have hkept : (!t.isParen) = true := (List.mem_filter.1 (hperm.mem_iff.1 ht)).2
  simpa using hkept

-- a parenthesis too many on either side
example : postfixOrder [.closing, .number 1.0, .operator .add, .opening, .number 2.0] =
    [.number 1.0, .number 2.0, .operator .add] := rfl

end RunningTab.Expr
