/-
# The limits of a portfolio

`validate_portfolio` of `risk/engine.py` reports each measure of an account that has reached its
limit.  `Decimal` is exact.

* `validatePortfolio_eq_nil_iff`: nothing is reported just when every measure is below its limit;
* `rejected_then_accepted_iff`: an account that old limits reject and new ones accept exists exactly
  if one of the limits that are read is raised.
-/
import Kripto.Execution.PreTrade

namespace Kripto.Risk

open Execution (reasonIf reasonIf_eq_nil_iff)

/-! ## 1. `risk/engine.py` -/

structure RiskLimits where
  riskPerTrade : ℚ := 25 / 10000
  maxDailyLoss : ℚ := 2 / 100
  maxWeeklyLoss : ℚ := 5 / 100
  maxDrawdown : ℚ := 10 / 100
  maxPortfolioExposure : ℚ := 50 / 100
  maxSingleAssetExposure : ℚ := 15 / 100
  maxQuoteAssetExposure : ℚ := 85 / 100
  maxVolatilityAdjustedExposure : ℚ := 60 / 100
  maxOpenPositions : ℤ := 6
  maxConsecutiveLosses : ℤ := 5

/-- `asdict(limits)`. -/
def RiskLimits.asdict (limits : RiskLimits) : List (String × ℚ) :=
  [("risk_per_trade", limits.riskPerTrade), ("max_daily_loss", limits.maxDailyLoss),
    ("max_weekly_loss", limits.maxWeeklyLoss), ("max_drawdown", limits.maxDrawdown),
    ("max_portfolio_exposure", limits.maxPortfolioExposure),
    ("max_single_asset_exposure", limits.maxSingleAssetExposure),
    ("max_quote_asset_exposure", limits.maxQuoteAssetExposure),
    ("max_volatility_adjusted_exposure", limits.maxVolatilityAdjustedExposure),
    ("max_open_positions", limits.maxOpenPositions),
    ("max_consecutive_losses", limits.maxConsecutiveLosses)]

structure RiskSnapshot where
  equity : ℚ
  dailyPnl : ℚ := 0
  weeklyPnl : ℚ := 0
  drawdown : ℚ := 0
  grossExposure : ℚ := 0
  assetExposure : ℚ := 0
  quoteAssetExposure : ℚ := 0
  volatilityAdjustedExposure : ℚ := 0
  openPositions : ℤ := 0
  consecutiveLosses : ℤ := 0

def validatePortfolio (snapshot : RiskSnapshot) (limits : RiskLimits) : List String :=
  if snapshot.equity ≤ 0 then ["INVALID_EQUITY"]
  else
    reasonIf (-snapshot.dailyPnl ≥ snapshot.equity * limits.maxDailyLoss) "DAILY_LOSS" ++
    reasonIf (-snapshot.weeklyPnl ≥ snapshot.equity * limits.maxWeeklyLoss) "WEEKLY_LOSS" ++
    reasonIf (snapshot.drawdown ≥ limits.maxDrawdown) "MAX_DRAWDOWN" ++
    reasonIf (snapshot.grossExposure ≥ snapshot.equity * limits.maxPortfolioExposure)
      "PORTFOLIO_EXPOSURE" ++
    reasonIf (snapshot.assetExposure ≥ snapshot.equity * limits.maxSingleAssetExposure)
      "SINGLE_ASSET_EXPOSURE" ++
    reasonIf (snapshot.quoteAssetExposure ≥ snapshot.equity * limits.maxQuoteAssetExposure)
      "QUOTE_ASSET_EXPOSURE" ++
    reasonIf (snapshot.volatilityAdjustedExposure ≥
      snapshot.equity * limits.maxVolatilityAdjustedExposure) "VOLATILITY_ADJUSTED_EXPOSURE" ++
    reasonIf (snapshot.openPositions ≥ limits.maxOpenPositions) "MAX_POSITIONS" ++
    reasonIf (snapshot.consecutiveLosses ≥ limits.maxConsecutiveLosses) "CONSECUTIVE_LOSSES"

/-! ## 2. Measures and limits -/

/-- The nine measures that are compared with limits, counts as numbers. -/
inductive Measure
  | dailyLoss | weeklyLoss | drawdown | grossExposure | assetExposure | quoteAssetExposure
  | volatilityAdjustedExposure | openPositions | consecutiveLosses

namespace Measure

def limit (limits : RiskLimits) : Measure → ℚ
  | dailyLoss => limits.maxDailyLoss
  | weeklyLoss => limits.maxWeeklyLoss
  | drawdown => limits.maxDrawdown
  | grossExposure => limits.maxPortfolioExposure
  | assetExposure => limits.maxSingleAssetExposure
  | quoteAssetExposure => limits.maxQuoteAssetExposure
  | volatilityAdjustedExposure => limits.maxVolatilityAdjustedExposure
  | openPositions => limits.maxOpenPositions
  | consecutiveLosses => limits.maxConsecutiveLosses

def value (snapshot : RiskSnapshot) : Measure → ℚ
  | dailyLoss => -snapshot.dailyPnl
  | weeklyLoss => -snapshot.weeklyPnl
  | drawdown => snapshot.drawdown
  | grossExposure => snapshot.grossExposure
  | assetExposure => snapshot.assetExposure
  | quoteAssetExposure => snapshot.quoteAssetExposure
  | volatilityAdjustedExposure => snapshot.volatilityAdjustedExposure
  | openPositions => snapshot.openPositions
  | consecutiveLosses => snapshot.consecutiveLosses

/-- What a limit is a fraction of: the equity, or nothing. -/
def scale (snapshot : RiskSnapshot) : Measure → ℚ
  | drawdown | openPositions | consecutiveLosses => 1
  | _ => snapshot.equity

end Measure

variable {snapshot : RiskSnapshot} {limits old new : RiskLimits}

/-- **Nothing is reported** just when the equity is positive and no measure reaches its limit. -/
theorem validatePortfolio_eq_nil_iff :
    validatePortfolio snapshot limits = [] ↔ 0 < snapshot.equity ∧
      ∀ m : Measure, m.value snapshot < m.scale snapshot * m.limit limits := by
  unfold validatePortfolio
  by_cases hequity : snapshot.equity ≤ 0
  · simp [hequity, not_lt.mpr hequity]
  · rw [if_neg hequity]
    simp only [List.append_eq_nil_iff, reasonIf_eq_nil_iff, not_le, ge_iff_le]
    constructor
    · rintro ⟨⟨⟨⟨⟨⟨⟨⟨hdaily, hweekly⟩, hdrawdown⟩, hgross⟩, hasset⟩, hquote⟩, hvol⟩, hopen⟩, hloss⟩
      refine ⟨not_le.mp hequity, fun m => ?_⟩
      cases m with
      | dailyLoss => exact hdaily
      | weeklyLoss => exact hweekly
      | drawdown => simpa [Measure.value, Measure.scale, Measure.limit] using hdrawdown
      | grossExposure => exact hgross
      | assetExposure => exact hasset
      | quoteAssetExposure => exact hquote
      | volatilityAdjustedExposure => exact hvol
      | openPositions => simpa [Measure.value, Measure.scale, Measure.limit] using hopen
      | consecutiveLosses => simpa [Measure.value, Measure.scale, Measure.limit] using hloss
    · rintro ⟨-, h⟩
      have hdrawdown := h .drawdown
      have hopen := h .openPositions
      have hloss := h .consecutiveLosses
      simp only [Measure.value, Measure.scale, Measure.limit, one_mul, Int.cast_lt]
        at hdrawdown hopen hloss
      exact ⟨⟨⟨⟨⟨⟨⟨⟨h .dailyLoss, h .weeklyLoss⟩, hdrawdown⟩, h .grossExposure⟩, h .assetExposure⟩,
        h .quoteAssetExposure⟩, h .volatilityAdjustedExposure⟩, hopen⟩, hloss⟩

/-! ## 3. Accounts between two sets of limits -/

/-- Of an equity of one, each measure is below its limit by one, but for `m` at `top`. -/
def below (limits : RiskLimits) (m : Measure) (top : RiskLimits) : RiskSnapshot where
  equity := 1
  dailyPnl := match m with | .dailyLoss => -top.maxDailyLoss | _ => 1 - limits.maxDailyLoss
  weeklyPnl := match m with | .weeklyLoss => -top.maxWeeklyLoss | _ => 1 - limits.maxWeeklyLoss
  drawdown := match m with | .drawdown => top.maxDrawdown | _ => limits.maxDrawdown - 1
  grossExposure := match m with
    | .grossExposure => top.maxPortfolioExposure
    | _ => limits.maxPortfolioExposure - 1
  assetExposure := match m with
    | .assetExposure => top.maxSingleAssetExposure
    | _ => limits.maxSingleAssetExposure - 1
  quoteAssetExposure := match m with
    | .quoteAssetExposure => top.maxQuoteAssetExposure
    | _ => limits.maxQuoteAssetExposure - 1
  volatilityAdjustedExposure := match m with
    | .volatilityAdjustedExposure => top.maxVolatilityAdjustedExposure
    | _ => limits.maxVolatilityAdjustedExposure - 1
  openPositions := match m with
    | .openPositions => top.maxOpenPositions
    | _ => limits.maxOpenPositions - 1
  consecutiveLosses := match m with
    | .consecutiveLosses => top.maxConsecutiveLosses
    | _ => limits.maxConsecutiveLosses - 1

theorem scale_below (m m' : Measure) : m'.scale (below new m old) = 1 := by
  cases m' <;> rfl

theorem value_below_self (m : Measure) : m.value (below new m old) = m.limit old := by
  cases m <;> simp [Measure.value, Measure.limit, below]

theorem value_below_ne {m m' : Measure} (h : m' ≠ m) :
    m'.value (below new m old) = m'.limit new - 1 := by
  cases m' <;> cases m <;>
    first
    | exact absurd rfl h
    | simp [Measure.value, Measure.limit, below]

/-- **An account that the old limits reject and the new ones accept** exists exactly if some limit is
raised. -/
theorem rejected_then_accepted_iff :
    (∃ snapshot, validatePortfolio snapshot old ≠ [] ∧ validatePortfolio snapshot new = []) ↔
      ∃ m : Measure, m.limit old < m.limit new := by
  constructor
  · rintro ⟨snapshot, hold, hnew⟩
    obtain ⟨hequity, hbelow⟩ := validatePortfolio_eq_nil_iff.mp hnew
    by_contra hraised
    refine hold (validatePortfolio_eq_nil_iff.mpr ⟨hequity, fun m => (hbelow m).trans_le ?_⟩)
    have hscale : 0 ≤ m.scale snapshot := by
      cases m <;> first | exact hequity.le | exact zero_le_one
    exact mul_le_mul_of_nonneg_left (not_lt.mp fun hlt => hraised ⟨m, hlt⟩) hscale
  · rintro ⟨m, hlt⟩
    refine ⟨below new m old, fun hnil => ?_,
      validatePortfolio_eq_nil_iff.mpr ⟨one_pos, fun m' => ?_⟩⟩
    · have hself := (validatePortfolio_eq_nil_iff.mp hnil).2 m
      rw [scale_below, one_mul, value_below_self] at hself
      exact absurd hself (lt_irrefl _)
    · rw [scale_below, one_mul]
      by_cases hm : m' = m
      · rw [hm, value_below_self]
        exact hlt
      · rw [value_below_ne hm]
        exact sub_one_lt _

end Kripto.Risk
