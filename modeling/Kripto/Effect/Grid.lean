/-
# Rounding to a grid

Amounts are traded in multiples of a step.  Rounding an amount down takes it to the greatest
multiple that is not above it (`isGreatest_floorOn`); so a budget divided by a rate and rounded down
is the greatest multiple the budget pays for (`isGreatest_budget`), and a higher rate buys no more
(`floorOn_budget_antitone`).  Rounding up is the same upside down; either moves less than a step.
-/
import Mathlib.Algebra.Order.Field.Basic
import Mathlib.Algebra.Order.Floor.Ring
import Mathlib.Order.Bounds.Basic

namespace Effect

variable {K : Type} [Field K] [LinearOrder K] [IsStrictOrderedRing K] [FloorRing K]

/-- The multiples of a step. -/
def grid (step : K) : Set K := {y | ∃ n : ℤ, y = n * step}

/-- The multiple of the step at `x`, or the next one below it. -/
def floorOn (step x : K) : K := ⌊x / step⌋ * step

variable {step x x' rate rate' budget : K}

omit [IsStrictOrderedRing K] in
theorem floorOn_mem (step x : K) : floorOn step x ∈ grid step := ⟨_, rfl⟩

/-- A multiple of the step is below what it is rounded down from, and only then. -/
theorem le_floorOn_iff (hstep : 0 < step) (n : ℤ) : n * step ≤ floorOn step x ↔ n * step ≤ x := by
  rw [floorOn, mul_le_mul_iff_of_pos_right hstep, Int.cast_le, Int.le_floor, le_div_iff₀ hstep]

theorem floorOn_le (hstep : 0 < step) : floorOn step x ≤ x :=
  (le_floorOn_iff hstep _).mp le_rfl

/-- **Rounding down** takes the greatest multiple that is not above. -/
theorem isGreatest_floorOn (hstep : 0 < step) :
    IsGreatest {y | y ∈ grid step ∧ y ≤ x} (floorOn step x) := by
  refine ⟨⟨floorOn_mem step x, floorOn_le hstep⟩, ?_⟩
  rintro y ⟨⟨n, rfl⟩, hle⟩
  exact (le_floorOn_iff hstep n).mpr hle

theorem floorOn_mono (hstep : 0 < step) (h : x ≤ x') : floorOn step x ≤ floorOn step x' :=
  (le_floorOn_iff hstep _).mpr ((floorOn_le hstep).trans h)

theorem floorOn_nonneg (hstep : 0 < step) (h : 0 ≤ x) : 0 ≤ floorOn step x := by
  have hzero : ((0 : ℤ) : K) * step ≤ x := by
    rw [Int.cast_zero, zero_mul]
    exact h
  simpa using (le_floorOn_iff hstep 0).mpr hzero

/-- **What a budget pays for**, at a rate. -/
theorem isGreatest_budget (hstep : 0 < step) (hrate : 0 < rate) :
    IsGreatest {y | y ∈ grid step ∧ y * rate ≤ budget} (floorOn step (budget / rate)) := by
  simp only [← le_div_iff₀ hrate]
  exact isGreatest_floorOn hstep

theorem floorOn_budget_antitone (hstep : 0 < step) (hbudget : 0 ≤ budget) (hrate : 0 < rate)
    (h : rate ≤ rate') : floorOn step (budget / rate') ≤ floorOn step (budget / rate) :=
  floorOn_mono hstep (div_le_div_of_nonneg_left hbudget hrate h)

/-! ## 2. Rounding up -/

/-- The multiple of the step at `x`, or the next one above it. -/
def ceilOn (step x : K) : K := ⌈x / step⌉ * step

omit [IsStrictOrderedRing K] in
theorem ceilOn_mem (step x : K) : ceilOn step x ∈ grid step := ⟨_, rfl⟩

/-- A multiple of the step is above what it is rounded up from, and only then. -/
theorem ceilOn_le_iff (hstep : 0 < step) (n : ℤ) : ceilOn step x ≤ n * step ↔ x ≤ n * step := by
  rw [ceilOn, mul_le_mul_iff_of_pos_right hstep, Int.cast_le, Int.ceil_le, div_le_iff₀ hstep]

theorem le_ceilOn (hstep : 0 < step) : x ≤ ceilOn step x := (ceilOn_le_iff hstep _).mp le_rfl

/-- **Rounding** moves less than a step. -/
theorem sub_lt_floorOn (hstep : 0 < step) : x - step < floorOn step x := by
  have hlt := mul_lt_mul_of_pos_right (Int.sub_one_lt_floor (x / step)) hstep
  rwa [sub_mul, div_mul_cancel₀ x hstep.ne', one_mul] at hlt

theorem ceilOn_lt_add (hstep : 0 < step) : ceilOn step x < x + step := by
  have hlt := mul_lt_mul_of_pos_right (Int.ceil_lt_add_one (x / step)) hstep
  rwa [add_mul, div_mul_cancel₀ x hstep.ne', one_mul] at hlt

/-- **A multiple of the step** stays where it is. -/
theorem floorOn_of_mem (hstep : 0 < step) (h : x ∈ grid step) : floorOn step x = x := by
  obtain ⟨n, rfl⟩ := h
  rw [floorOn, mul_div_cancel_right₀ _ hstep.ne', Int.floor_intCast]

theorem ceilOn_of_mem (hstep : 0 < step) (h : x ∈ grid step) : ceilOn step x = x := by
  obtain ⟨n, rfl⟩ := h
  rw [ceilOn, mul_div_cancel_right₀ _ hstep.ne', Int.ceil_intCast]

/-- Less than a step is rounded down to nothing, and nothing else is. -/
theorem floorOn_eq_zero_iff (hstep : 0 < step) (h : 0 ≤ x) : floorOn step x = 0 ↔ x < step := by
  rw [floorOn, mul_eq_zero, or_iff_left hstep.ne', Int.cast_eq_zero, Int.floor_eq_zero_iff,
    Set.mem_Ico, and_iff_right (div_nonneg h hstep.le), div_lt_one hstep]

end Effect
