import RunningTab.Proofs.Decimal.Nearest

/-!
# The shortest decimal is read as its number

The search for the shortest decimal tests candidates in whole numbers, and takes a candidate if it
lies in the interval of the number (`RunningTab.Decimal.Magnitude.encloses_of_readsBack`). Where no
grid has one, the last resort is the number itself, written out in full. So whatever the search
finds, and from whatever grid it starts, is in the interval
(`RunningTab.Decimal.Magnitude.encloses_search`); that it is short plays no part in that.
-/

namespace RunningTab.Decimal.Magnitude

/-- The two scales measure in one unit: a quarter of the number's last place is so many units, and
so is a step of the grid. -/
theorem exists_unit (v : Magnitude) (g : Int) :
    ∃ unit : ℚ, 0 < unit ∧ (2 : ℚ) ^ (v.exponent - 2) = (v.quartersOver g).1 * unit ∧
      (10 : ℚ) ^ g = (v.quartersOver g).2 * unit := by
  obtain ⟨htwo, htwo'⟩ := powFraction_pos 2 (by decide) (v.exponent - 2)
  obtain ⟨hten, hten'⟩ := powFraction_pos 10 (by decide) g
  have hpow := powFraction_eq 2 (by decide) (v.exponent - 2)
  have hpow' := powFraction_eq 10 (by decide) g
  rw [Nat.cast_ofNat] at hpow hpow'
  rw [quartersOver, ← hpow, ← hpow']
  generalize powFraction 2 (v.exponent - 2) = two at *
  generalize powFraction 10 g = ten at *
  have htwo_pos : (0 : ℚ) < two.2 := by exact_mod_cast htwo'
  have hten_pos : (0 : ℚ) < ten.2 := by exact_mod_cast hten'
  refine ⟨1 / (two.2 * ten.2), by positivity, ?_, ?_⟩ <;> push_cast <;> field_simp

/-- **A point of a grid that passes the test is in the interval.** -/
theorem encloses_of_readsBack {v : Magnitude} {n : Nat} {g : Int} (h : v.readsBack n g = true) :
    v.Encloses (n * 10 ^ g) := by
  obtain ⟨unit, hunit, hquarter, hstep⟩ := v.exists_unit g
  have hle (a b c d : Nat) (h : a * b ≤ c * d) : (a : ℚ) * (b * unit) ≤ c * (d * unit) := by
    rw [← mul_assoc, ← mul_assoc]
    exact mul_le_mul_of_nonneg_right (by exact_mod_cast h) hunit.le
  have hlt (a b c d : Nat) (h : a * b < c * d) : (a : ℚ) * (b * unit) < c * (d * unit) := by
    rw [← mul_assoc, ← mul_assoc]
    exact mul_lt_mul_of_pos_right (by exact_mod_cast h) hunit
  rw [readsBack] at h
  split_ifs at h with heven <;> rw [Bool.and_eq_true, decide_eq_true_eq, decide_eq_true_eq] at h
  · constructor <;> rw [hquarter, hstep]
    · exact hle _ _ _ _ h.1
    · exact hle _ _ _ _ h.2
    · intro hodd
      omega
  · constructor <;> rw [hquarter, hstep]
    · exact hle _ _ _ _ h.1.le
    · exact hle _ _ _ _ h.2.le
    · exact fun _ => ⟨hlt _ _ _ _ h.1, hlt _ _ _ _ h.2⟩

theorem readsBack_of_neighbour? {v : Magnitude} {n : Nat} {g : Int}
    (h : v.neighbour? g = some n) : v.readsBack n g = true := by
  rw [neighbour?] at h
  grind

/-! ### The last resort -/

/-- The number itself is in its interval. -/
theorem encloses_self (v : Magnitude) : v.Encloses (v.significand * 2 ^ v.exponent) := by
  have hunit : (0 : ℚ) < 2 ^ (v.exponent - 2) := by positivity
  have hvalue : (v.significand : ℚ) * 2 ^ v.exponent =
      (4 * v.significand : Nat) * 2 ^ (v.exponent - 2) := by
    rw [zpow_sub₀ two_ne_zero]
    push_cast
    ring
  have hlower : v.lowerQuarters ≤ 4 * v.significand := by
    rw [lowerQuarters]
    split_ifs <;> omega
  rw [hvalue]
  constructor
  · exact mul_le_mul_of_nonneg_right (by exact_mod_cast hlower) hunit.le
  · refine mul_le_mul_of_nonneg_right ?_ hunit.le
    exact_mod_cast Nat.le_add_right _ 2
  · intro hodd
    have hlower' : v.lowerQuarters < 4 * v.significand := by
      rw [lowerQuarters]
      split_ifs <;> omega
    refine ⟨mul_lt_mul_of_pos_right (by exact_mod_cast hlower') hunit,
      mul_lt_mul_of_pos_right ?_ hunit⟩
    exact_mod_cast Nat.lt_add_of_pos_right (n := 4 * v.significand) (Nat.succ_pos 1)

/-- The last grid is one of the number's own: every power of two is a multiple of its steps. -/
theorem search_zero (v : Magnitude) :
    ((v.search 0).1 : ℚ) * 10 ^ (v.search 0).2 = v.significand * 2 ^ v.exponent := by
  change ((v.significand * 2 ^ v.exponent.toNat * 5 ^ (-v.exponent).toNat : Nat) : ℚ) *
    10 ^ min v.exponent 0 = _
  push_cast
  rw [← zpow_natCast, ← zpow_natCast, mul_assoc, mul_assoc]
  congr 1
  rcases Int.le_total 0 v.exponent with h | h
  · rw [Int.min_eq_right h, Int.toNat_of_nonneg h, Int.toNat_of_nonpos (by omega)]
    simp
  · obtain ⟨k, hk⟩ := Int.exists_eq_neg_ofNat h
    rw [hk, Int.neg_neg, Int.toNat_natCast, Int.min_eq_left (by omega),
      Int.toNat_of_nonpos (by omega), zpow_neg, zpow_neg, Nat.cast_zero, zpow_zero, one_mul,
      zpow_natCast, zpow_natCast, zpow_natCast, show (10 : ℚ) = 5 * 2 by norm_num, mul_pow]
    field_simp

/-! ### The search -/

/-- **Whatever the search finds is in the interval.** -/
theorem encloses_search (v : Magnitude) (steps : Nat) :
    v.Encloses ((v.search steps).1 * 10 ^ (v.search steps).2) := by
  induction steps with
  | zero =>
    rw [search_zero]
    exact v.encloses_self
  | succ steps ih =>
    rw [search]
    split
    · next n hn => exact encloses_of_readsBack (readsBack_of_neighbour? hn)
    · exact ih

end RunningTab.Decimal.Magnitude
