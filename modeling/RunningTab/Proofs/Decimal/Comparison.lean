import RunningTab.Proofs.Decimal.Negation

/-!
# Numbers as they compare

Equal numbers need not have equal bits, because there are two zeros, and what is no number compares
as equal to nothing, itself not excepted. So that two results are the same number is a relation of
its own (`RunningTab.Decimal.SameNumber`), under which what is no number is the same as itself. It
is all that is left of `x + 0.0 = x`: negative zero and zero make zero
(`RunningTab.Decimal.sameNumber_add_zero`).

A finite number compares as negative exactly if its value is
(`RunningTab.Decimal.lt_zero_iff`), and that is never so for negative zero, whose sign is set.
-/

namespace RunningTab.Decimal

open Float.Model (Format UnpackedFloat)
open Float.Model.UnpackedFloat (Sign)

/-- **Two results are the same number**: they compare as equal, or neither of them is a number. -/
def SameNumber (x y : Float) : Prop :=
  (x == y) = true ∨ x.isNaN = true ∧ y.isNaN = true

variable (x : Float)

/-! ### The same number -/

/-- **Every result is the same number as itself.** -/
theorem sameNumber_refl : SameNumber x x := by
  change (x.toModel.unpack.compare x.toModel.unpack == some .eq) = true ∨
    x.toModel.unpack.isNaN = true ∧ x.toModel.unpack.isNaN = true
  cases x.toModel.unpack with
  | notANumber => exact Or.inr ⟨rfl, rfl⟩
  | infinity s => cases s <;> exact Or.inl rfl
  | zero s => exact Or.inl rfl
  | finite s m e hm => cases s <;> exact Or.inl (by simp [UnpackedFloat.compare])

/-- Adding zero changes nothing but negative zero. -/
theorem add_zero_eq (h : ∀ s, x.toModel.unpack ≠ .zero s) : x + 0.0 = x := by
  have hadd : UnpackedFloat.add Format.binary64 x.toModel.unpack (Float.toModel 0.0).unpack =
      x.toModel.unpack := by
    rw [show (Float.toModel 0.0).unpack = .zero .positive by rfl]
    cases hform : x.toModel.unpack with
    | zero s => exact absurd hform (h s)
    | _ => rfl
  change Float.ofModel (.pack (UnpackedFloat.add Format.binary64 x.toModel.unpack
    (Float.toModel 0.0).unpack)) = x
  rw [hadd, pack_unpack]

/-- **Adding zero leaves the same number**, in either order. -/
theorem sameNumber_add_zero : SameNumber (x + 0.0) x ∧ SameNumber x (x + 0.0) := by
  by_cases h : ∃ s, x.toModel.unpack = .zero s
  · obtain ⟨s, hs⟩ := h
    have hx : x = Float.ofModel (.pack (.zero s)) := by rw [← hs, pack_unpack]
    rw [hx]
    cases s <;> exact ⟨Or.inl (by decide), Or.inl (by decide)⟩
  · rw [add_zero_eq x fun s hs => h ⟨s, hs⟩]
    exact ⟨sameNumber_refl x, sameNumber_refl x⟩

/-! ### Negative numbers -/

variable {x}

/-- **A finite number compares as negative exactly if its value is.** -/
theorem lt_zero_iff (h : x.isFinite = true) : x < 0.0 ↔ value x < 0 := by
  have hlt : x < 0.0 ↔ x.toModel.unpack.lt (.zero .positive) = true :=
    ⟨of_decide_eq_true, decide_eq_true⟩
  rw [hlt]
  rcases unpack_cases h with ⟨s, hform, hvalue⟩ | ⟨s, m, e, hm, hform, hvalue, -⟩
  · rw [hform, hvalue]
    exact iff_of_false (by simp [UnpackedFloat.lt, UnpackedFloat.compare]) (lt_irrefl 0)
  · have hpos : (0 : ℚ) < m * 2 ^ e := by positivity
    rw [hform, hvalue]
    cases s with
    | positive =>
      refine iff_of_false (by simp [UnpackedFloat.lt, UnpackedFloat.compare]) (not_lt.2 ?_)
      simpa [Sign.apply] using hpos.le
    | negative =>
      refine iff_of_true rfl ?_
      simpa [Sign.apply] using hpos

end RunningTab.Decimal
