/-
# The size of a position

`risk/engine.py` divides the amount that may be lost by the loss per unit, costs included, and rounds
the quantity down to the step of the symbol.  `Decimal` is exact.

* `sizePosition_maximal`: that is the largest multiple of the step the amount allows, and it does
  not grow with the distance of the stop or with any cost.
-/
import Kripto.Execution.Normalization

namespace Kripto.Risk

open Effect
open Execution (Exc normalizeQuantity normalizeQuantity_eq roundedQuantity_of_exact)

attribute [local instance] Python.exactDecimals

/-! ## 1. `effective_loss_per_unit` and `size_position` -/

/-- The costs in basis points, with the defaults of `effective_loss_per_unit`. -/
structure Costs where
  entryFeeBps : ℚ := 10
  exitFeeBps : ℚ := 10
  spreadBps : ℚ := 5
  entrySlippageBps : ℚ := 5
  stopSlippageBps : ℚ := 15
  fundingBorrowBps : ℚ := 0

namespace Costs

/-- `sum(map(Decimal, ..))`. -/
def total (costs : Costs) : ℚ :=
  [costs.entryFeeBps, costs.exitFeeBps, costs.spreadBps, costs.entrySlippageBps,
    costs.stopSlippageBps, costs.fundingBorrowBps].sum

/-- No component is higher. -/
structure Le (costs costs' : Costs) : Prop where
  entryFee : costs.entryFeeBps ≤ costs'.entryFeeBps
  exitFee : costs.exitFeeBps ≤ costs'.exitFeeBps
  spread : costs.spreadBps ≤ costs'.spreadBps
  entrySlippage : costs.entrySlippageBps ≤ costs'.entrySlippageBps
  stopSlippage : costs.stopSlippageBps ≤ costs'.stopSlippageBps
  fundingBorrow : costs.fundingBorrowBps ≤ costs'.fundingBorrowBps

theorem Le.total {costs costs' : Costs} (h : costs.Le costs') : costs.total ≤ costs'.total := by
  simp only [Costs.total, List.sum_cons, List.sum_nil]
  linarith [h.entryFee, h.exitFee, h.spread, h.entrySlippage, h.stopSlippage, h.fundingBorrow]

end Costs

def effectiveLossPerUnit (entry stop : ℚ) (costs : Costs := {}) : ℚ :=
  |entry - stop| + entry * costs.total / 10000

/-- `size_position` leaves the costs at their defaults; other costs are there to compare with. -/
def sizePosition (equity entry stop step riskFraction : ℚ) (costs : Costs := {}) : Except Exc ℚ :=
  let loss := effectiveLossPerUnit entry stop costs
  if loss ≤ 0 then .error (.valueError "invalid loss distance")
  else normalizeQuantity (equity * riskFraction / loss) step

/-! ## 2. The laws -/

variable {equity entry stop stop' step riskFraction : ℚ} {costs costs' : Costs}

theorem sizePosition_eq (hbudget : 0 ≤ equity * riskFraction) (hstep : 0 < step)
    (hloss : 0 < effectiveLossPerUnit entry stop costs) :
    sizePosition equity entry stop step riskFraction costs =
      .ok (floorOn step (equity * riskFraction / effectiveLossPerUnit entry stop costs)) := by
  rw [sizePosition, if_neg (not_le.mpr hloss),
    normalizeQuantity_eq hstep (div_nonneg hbudget hloss.le)]
  exact congrArg Except.ok (roundedQuantity_of_exact fun _ => rfl)

/-- A stop further away and higher costs lose more. -/
theorem effectiveLossPerUnit_mono (hentry : 0 ≤ entry) (hstop : |entry - stop| ≤ |entry - stop'|)
    (hcosts : costs.Le costs') :
    effectiveLossPerUnit entry stop costs ≤ effectiveLossPerUnit entry stop' costs' := by
  have htotal := mul_le_mul_of_nonneg_left hcosts.total hentry
  unfold effectiveLossPerUnit
  linarith

/-- **The largest multiple of the step within the budget**, at any costs, and no larger when the
stop is further away or costs are higher. -/
theorem sizePosition_maximal (equity entry stop step riskFraction : ℚ) (costs : Costs)
    (hequity : 0 ≤ equity) (hrisk : 0 ≤ riskFraction) (hentry : 0 < entry)
    (hstep : 0 < step) (hloss : 0 < effectiveLossPerUnit entry stop costs) :
    ∃ qty, sizePosition equity entry stop step riskFraction costs = .ok qty ∧
      IsGreatest {y | y ∈ grid step ∧
        y * effectiveLossPerUnit entry stop costs ≤ equity * riskFraction} qty ∧
      ∀ stop' costs', |entry - stop| ≤ |entry - stop'| → costs.Le costs' →
        ∃ qty', sizePosition equity entry stop' step riskFraction costs' = .ok qty' ∧
          qty' ≤ qty := by
  have hbudget : 0 ≤ equity * riskFraction := mul_nonneg hequity hrisk
  refine ⟨_, sizePosition_eq hbudget hstep hloss, isGreatest_budget hstep hloss, ?_⟩
  intro stop' costs' hdistance hcosts
  have hle := effectiveLossPerUnit_mono hentry.le hdistance hcosts
  exact ⟨_, sizePosition_eq hbudget hstep (hloss.trans_le hle),
    floorOn_budget_antitone hstep hbudget hloss hle⟩

/-- An account of 10000 that may lose a hundredth on an entry at 100 with a stop at 95. -/
theorem sizePosition_maximal_hundredth :
    ∃ qty, sizePosition 10000 100 95 (1 / 1000) (1 / 100) = .ok qty ∧
      IsGreatest {y | y ∈ grid (1 / 1000) ∧
        y * effectiveLossPerUnit 100 95 ≤ 10000 * (1 / 100)} qty ∧
      ∀ stop' costs', |(100 : ℚ) - 95| ≤ |100 - stop'| → Costs.Le {} costs' →
        ∃ qty', sizePosition 10000 100 stop' (1 / 1000) (1 / 100) costs' = .ok qty' ∧
          qty' ≤ qty := by
  refine sizePosition_maximal 10000 100 95 (1 / 1000) (1 / 100) {} (by norm_num) (by norm_num)
    (by norm_num) (by norm_num) ?_
  rw [effectiveLossPerUnit, Costs.total]
  norm_num

end Kripto.Risk
