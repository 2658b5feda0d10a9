/-
# Capital allocation

`risk/allocation.py`: `CapitalAllocator.allocate_cycle`, which spreads one account snapshot over
ranked candidates, and `ConcurrentAllocationCoordinator`, which lets several scanner workers
allocate from one snapshot, one call at a time under its lock.

`Decimal` is exact rational arithmetic here, so `is_finite` has nothing to reject.
-/
import Kripto.Effect.Object
import Kripto.Execution.PreTrade
import Mathlib.Algebra.BigOperators.Group.List.Basic
import Mathlib.Data.List.Sort
import Mathlib.Tactic.Linarith

namespace Kripto.Risk

open Effect Execution

/-! ## 1. Candidates, states, decisions -/

structure AllocationCandidate where
  symbol : String
  requestedNotional : ℚ
  expectedEdgeBps : ℚ
  stopRiskFraction : ℚ
  volatilityFraction : ℚ
  liquidityScore : ℚ
  correlationPenalty : ℚ
  strategyHealth : ℚ
  drawdownMultiplier : ℚ
  regimeMultiplier : ℚ
  quoteAssetMultiplier : ℚ
  deriving DecidableEq

structure AllocationState where
  accountEquity : ℚ
  freeCash : ℚ
  portfolioHeatFraction : ℚ
  maxPortfolioHeatFraction : ℚ
  riskBudgetRemaining : ℚ
  openOrderReserved : ℚ := 0
  reserveFraction : ℚ := 15 / 100
  costBufferFraction : ℚ := 5 / 1000
  maxCycleAllocationFraction : ℚ := 20 / 100
  maxSingleCandidateFraction : ℚ := 10 / 100
  deriving DecidableEq

structure AllocationDecision where
  symbol : String
  allocatedNotional : ℚ
  expectedStopLoss : ℚ
  score : ℚ
  reason : String
  deriving DecidableEq

/-! ## 2. `CapitalAllocator` -/

namespace CapitalAllocator

def clamp01 (value : ℚ) : ℚ := min 1 (max 0 value)

def score (c : AllocationCandidate) : ℚ :=
  if c.expectedEdgeBps ≤ 0 ∨ c.stopRiskFraction ≤ 0 then 0
  else if c.requestedNotional ≤ 0 then 0
  else
    let liquidity := clamp01 c.liquidityScore
    let correlation := 1 - clamp01 c.correlationPenalty
    let health := clamp01 c.strategyHealth
    let drawdown := clamp01 c.drawdownMultiplier
    let regime := clamp01 c.regimeMultiplier
    let quote := clamp01 c.quoteAssetMultiplier
    let volatilityPenalty := 1 + max 0 c.volatilityFraction
    c.expectedEdgeBps * liquidity * correlation * health * drawdown * regime * quote
      / volatilityPenalty

/-- The four values the last loop of `_validate_state` runs over. -/
def fractions (s : AllocationState) : List ℚ :=
  [s.reserveFraction, s.costBufferFraction, s.maxCycleAllocationFraction,
    s.maxSingleCandidateFraction]

def validateState (s : AllocationState) : Except Exc Unit := do
  raiseIf (s.accountEquity ≤ 0 ∨ s.freeCash < 0 ∨ s.riskBudgetRemaining < 0)
    (.valueError "invalid account allocation state")
  raiseIf (s.portfolioHeatFraction < 0 ∨ s.maxPortfolioHeatFraction < 0)
    (.valueError "portfolio heat cannot be negative")
  raiseIf (∃ fraction ∈ fractions s, fraction < 0 ∨ 1 < fraction)
    (.valueError "allocation fractions must be within [0, 1]")

/-- `liquid_budget`: what cash leaves after open orders, reserve and cost buffer. -/
def liquidBudget (s : AllocationState) : ℚ :=
  let reserve := s.accountEquity * s.reserveFraction
  let costBuffer := s.accountEquity * s.costBufferFraction
  max 0 (s.freeCash - s.openOrderReserved - reserve - costBuffer)

def heatCapacity (s : AllocationState) : ℚ :=
  max 0 (s.accountEquity * (s.maxPortfolioHeatFraction - s.portfolioHeatFraction))

def cycleCap (s : AllocationState) : ℚ := s.accountEquity * s.maxCycleAllocationFraction

def singleCap (s : AllocationState) : ℚ := s.accountEquity * s.maxSingleCandidateFraction

/-- What `remaining_notional` starts from. -/
def notionalCap (s : AllocationState) : ℚ := min (liquidBudget s) (cycleCap s)

/-- What `remaining_risk` starts from. -/
def riskCap (s : AllocationState) : ℚ := min s.riskBudgetRemaining (heatCapacity s)

/-- `key=lambda item: (-cls._score(item), item.symbol)`: does `a` sort no later than `b`? -/
def RankedBefore (a b : AllocationCandidate) : Prop :=
  score b < score a ∨ (score a = score b ∧ a.symbol ≤ b.symbol)

instance : DecidableRel RankedBefore := fun _ _ => inferInstanceAs (Decidable (_ ∨ _))

/-- `sorted(...)`.  Insertion sort is stable, as Python's is. -/
def ranked (candidates : List AllocationCandidate) : List AllocationCandidate :=
  candidates.insertionSort RankedBefore

/-- The body of the loop: the decision on one candidate. -/
def decideOne (singleCap remainingNotional remainingRisk : ℚ) (c : AllocationCandidate) :
    AllocationDecision :=
  let score := score c
  if score ≤ 0 then ⟨c.symbol, 0, 0, score, "NO_POSITIVE_ALLOCATABLE_EDGE"⟩
  else if c.stopRiskFraction ≤ 0 then ⟨c.symbol, 0, 0, score, "INVALID_STOP_RISK"⟩
  else if remainingNotional ≤ 0 ∨ remainingRisk ≤ 0 then
    ⟨c.symbol, 0, 0, score, "CYCLE_OR_RISK_BUDGET_EXHAUSTED"⟩
  else
    let maxByRisk := remainingRisk / c.stopRiskFraction
    let allocation := min (min (min c.requestedNotional singleCap) remainingNotional) maxByRisk
    if allocation ≤ 0 then ⟨c.symbol, 0, 0, score, "NO_AVAILABLE_CAPITAL"⟩
    else ⟨c.symbol, allocation, allocation * c.stopRiskFraction, score, "ALLOCATED"⟩

/-- The loop.  A candidate that gets nothing takes nothing from the budgets. -/
def fill (singleCap : ℚ) : ℚ → ℚ → List AllocationCandidate → List AllocationDecision
  | _, _, [] => []
  | remainingNotional, remainingRisk, c :: cs =>
    let d := decideOne singleCap remainingNotional remainingRisk c
    d :: fill singleCap (remainingNotional - d.allocatedNotional)
      (remainingRisk - d.expectedStopLoss) cs

def allocateCycle (s : AllocationState) (candidates : List AllocationCandidate) :
    Except Exc (List AllocationDecision) := do
  validateState s
  return fill (singleCap s) (notionalCap s) (riskCap s) (ranked candidates)

end CapitalAllocator

/-! ## 3. `ConcurrentAllocationCoordinator` -/

/-- `sum((d.allocated_notional for d in decisions), ZERO)`. -/
def notional (ds : List AllocationDecision) : ℚ := (ds.map (·.allocatedNotional)).sum

/-- `sum((d.expected_stop_loss for d in decisions), ZERO)`. -/
def stopLoss (ds : List AllocationDecision) : ℚ := (ds.map (·.expectedStopLoss)).sum

/-- The counters of the current cycle. -/
structure ConcurrentAllocationCoordinator where
  cycleId : Option String := none
  allocatedNotional : ℚ := 0
  allocatedRisk : ℚ := 0
  deriving DecidableEq

/-- The arguments of one `reconcile_and_allocate`. -/
structure AllocationRequest where
  cycleId : String
  state : AllocationState
  candidates : List AllocationCandidate

namespace ConcurrentAllocationCoordinator

open CapitalAllocator

/-- `begin_cycle` on a nonempty id: another id than the current one resets the counters. -/
def entered (self : ConcurrentAllocationCoordinator) (cycleId : String) :
    ConcurrentAllocationCoordinator :=
  if self.cycleId ≠ some cycleId then ⟨some cycleId, 0, 0⟩ else self

def beginCycle (self : ConcurrentAllocationCoordinator) (cycleId : String) :
    Except Exc ConcurrentAllocationCoordinator :=
  if cycleId = "" then .error (.valueError "cycle_id required") else .ok (self.entered cycleId)

/-- The snapshot less what the counters say is gone. -/
def adjusted (self : ConcurrentAllocationCoordinator) (s : AllocationState) : AllocationState :=
  { s with
    freeCash := max 0 (s.freeCash - self.allocatedNotional)
    riskBudgetRemaining := max 0 (s.riskBudgetRemaining - self.allocatedRisk) }

/-- The counters after a cycle handed out `ds`. -/
def charged (self : ConcurrentAllocationCoordinator) (ds : List AllocationDecision) :
    ConcurrentAllocationCoordinator :=
  { self with
    allocatedNotional := self.allocatedNotional + notional ds
    allocatedRisk := self.allocatedRisk + stopLoss ds }

/-- One call under the lock.  A refused snapshot still leaves the cycle begun. -/
def reconcileAndAllocate : Object ConcurrentAllocationCoordinator AllocationRequest
    (Except Exc (List AllocationDecision)) := fun self req =>
  match self.beginCycle req.cycleId with
  | .error e => (.error e, self)
  | .ok self =>
    match allocateCycle (self.adjusted req.state) req.candidates with
    | .error e => (.error e, self)
    | .ok ds => (.ok ds, self.charged ds)

end ConcurrentAllocationCoordinator

/-! ## 4. One decision -/

namespace CapitalAllocator

variable {single remN remR : ℚ} {c : AllocationCandidate} {cs : List AllocationCandidate}

theorem stopRiskFraction_pos (h : 0 < score c) : 0 < c.stopRiskFraction := by
  by_contra hn
  have hzero : score c = 0 := by simp [score, not_lt.mp hn]
  exact absurd hzero h.ne'

/-- What a candidate can get at most, whatever is left: nothing without a positive score. -/
def demand (single : ℚ) (c : AllocationCandidate) : ℚ :=
  if 0 < score c then min c.requestedNotional single else 0

theorem demand_nonneg (hs : 0 ≤ single) : 0 ≤ demand single c := by
  unfold demand
  split
  · rename_i h
    have hreq : 0 < c.requestedNotional := by
      by_contra hn
      have hzero : score c = 0 := by simp [score, not_lt.mp hn]
      exact absurd hzero h.ne'
    exact le_min hreq.le hs
  · exact le_refl 0

/-- **What one decision hands out.**  It is never negative, never more than the candidate can
get, and within both budgets. -/
structure Sound (single remN remR : ℚ) (c : AllocationCandidate) (d : AllocationDecision) :
    Prop where
  symbol : d.symbol = c.symbol
  notional_nonneg : 0 ≤ d.allocatedNotional
  stopLoss_nonneg : 0 ≤ d.expectedStopLoss
  notional_le : d.allocatedNotional ≤ max 0 remN
  stopLoss_le : d.expectedStopLoss ≤ max 0 remR
  demand_le : d.allocatedNotional ≤ demand single c
  risk_le : d.expectedStopLoss ≤ demand single c * c.stopRiskFraction

/-- A candidate that gets nothing. -/
theorem sound_nothing (hs : 0 ≤ single) (score : ℚ) (reason : String) :
    Sound single remN remR c ⟨c.symbol, 0, 0, score, reason⟩ where
  symbol := rfl
  notional_nonneg := le_refl 0
  stopLoss_nonneg := le_refl 0
  notional_le := le_max_left 0 remN
  stopLoss_le := le_max_left 0 remR
  demand_le := demand_nonneg hs
  risk_le := by
    by_cases h : 0 < CapitalAllocator.score c
    · exact mul_nonneg (demand_nonneg hs) (stopRiskFraction_pos h).le
    · simp [demand, h]

theorem sound_decideOne (hs : 0 ≤ single) (remN remR : ℚ) (c : AllocationCandidate) :
    Sound single remN remR c (decideOne single remN remR c) := by
  unfold decideOne
  simp only
  split
  · exact sound_nothing hs _ _
  · rename_i hscore
    split
    · exact sound_nothing hs _ _
    · rename_i hstop
      split
      · exact sound_nothing hs _ _
      · split
        · exact sound_nothing hs _ _
        · rename_i hexhausted halloc
          have hstop := not_le.mp hstop
          have halloc := (not_le.mp halloc).le
          have hrisk : min (min (min c.requestedNotional single) remN)
              (remR / c.stopRiskFraction) * c.stopRiskFraction ≤ remR :=
            (le_div_iff₀ hstop).mp (min_le_right _ _)
          have hdemand : min (min (min c.requestedNotional single) remN)
              (remR / c.stopRiskFraction) ≤ demand single c := by
            rw [demand, if_pos (not_le.mp hscore)]
            exact (min_le_left _ _).trans (min_le_left _ _)
          constructor
          · rfl
          · exact halloc
          · exact mul_nonneg halloc hstop.le
          · exact ((min_le_left _ _).trans (min_le_right _ _)).trans (le_max_right 0 remN)
          · exact hrisk.trans (le_max_right 0 remR)
          · exact hdemand
          · exact mul_le_mul_of_nonneg_right hdemand hstop.le

end CapitalAllocator

/-! ## 5. Totals -/

section Totals

variable {d : AllocationDecision} {ds ds' : List AllocationDecision}

/-- What `ds` hands out to one symbol. -/
def notionalOf (symbol : String) (ds : List AllocationDecision) : ℚ :=
  notional (ds.filter (·.symbol = symbol))

@[simp] theorem notional_nil : notional [] = 0 := rfl

@[simp] theorem stopLoss_nil : stopLoss [] = 0 := rfl

@[simp] theorem notionalOf_nil (symbol : String) : notionalOf symbol [] = 0 := rfl

@[simp] theorem notional_cons : notional (d :: ds) = d.allocatedNotional + notional ds := by
  simp [notional]

@[simp] theorem stopLoss_cons : stopLoss (d :: ds) = d.expectedStopLoss + stopLoss ds := by
  simp [stopLoss]

theorem notionalOf_cons (symbol : String) : notionalOf symbol (d :: ds) =
    (if d.symbol = symbol then d.allocatedNotional else 0) + notionalOf symbol ds := by
  by_cases h : d.symbol = symbol <;> simp [notionalOf, h]

@[simp] theorem notional_append : notional (ds ++ ds') = notional ds + notional ds' := by
  simp [notional]

@[simp] theorem stopLoss_append : stopLoss (ds ++ ds') = stopLoss ds + stopLoss ds' := by
  simp [stopLoss]

@[simp] theorem notionalOf_append (symbol : String) :
    notionalOf symbol (ds ++ ds') = notionalOf symbol ds + notionalOf symbol ds' := by
  simp [notionalOf]

end Totals

/-! ## 6. One cycle -/

namespace CapitalAllocator

variable {single remN remR : ℚ} {cs : List AllocationCandidate}

def notionalDemand (single : ℚ) (cs : List AllocationCandidate) : ℚ :=
  (cs.map (demand single)).sum

def riskDemand (single : ℚ) (cs : List AllocationCandidate) : ℚ :=
  (cs.map fun c => demand single c * c.stopRiskFraction).sum

def symbolDemand (single : ℚ) (symbol : String) (cs : List AllocationCandidate) : ℚ :=
  notionalDemand single (cs.filter (·.symbol = symbol))

theorem fill_nonneg (hs : 0 ≤ single) (cs : List AllocationCandidate) (remN remR : ℚ) :
    0 ≤ notional (fill single remN remR cs) ∧ 0 ≤ stopLoss (fill single remN remR cs) := by
  induction cs generalizing remN remR with
  | nil => simp [fill]
  | cons c cs ih =>
    have hd := sound_decideOne hs remN remR c
    simp only [fill, notional_cons, stopLoss_cons]
    exact ⟨add_nonneg hd.notional_nonneg (ih _ _).1, add_nonneg hd.stopLoss_nonneg (ih _ _).2⟩

/-- Taking `x` out of a budget and the rest out of what is left stays in the budget. -/
theorem spend_le {budget x rest : ℚ} (hx : 0 ≤ x) (hle : x ≤ max 0 budget)
    (hrest : rest ≤ max 0 (budget - x)) : x + rest ≤ max 0 budget := by
  rcases le_total budget 0 with hb | hb
  · rw [max_eq_left hb] at hle ⊢
    rw [max_eq_left (by linarith)] at hrest
    linarith
  · rw [max_eq_right hb] at hle ⊢
    rw [max_eq_right (by linarith)] at hrest
    linarith

/-- **The loop stays within both budgets.** -/
theorem fill_le_budget (hs : 0 ≤ single) (cs : List AllocationCandidate) (remN remR : ℚ) :
    notional (fill single remN remR cs) ≤ max 0 remN ∧
      stopLoss (fill single remN remR cs) ≤ max 0 remR := by
  induction cs generalizing remN remR with
  | nil => simp [fill]
  | cons c cs ih =>
    have hd := sound_decideOne hs remN remR c
    simp only [fill, notional_cons, stopLoss_cons]
    exact ⟨spend_le hd.notional_nonneg hd.notional_le (ih _ _).1,
      spend_le hd.stopLoss_nonneg hd.stopLoss_le (ih _ _).2⟩

/-- **The loop hands out no more than its candidates can get.** -/
theorem fill_le_demand (hs : 0 ≤ single) (cs : List AllocationCandidate) (remN remR : ℚ) :
    notional (fill single remN remR cs) ≤ notionalDemand single cs ∧
      stopLoss (fill single remN remR cs) ≤ riskDemand single cs ∧
      ∀ symbol, notionalOf symbol (fill single remN remR cs) ≤ symbolDemand single symbol cs := by
  induction cs generalizing remN remR with
  | nil => simp [fill, notionalDemand, riskDemand, symbolDemand]
  | cons c cs ih =>
    have hd := sound_decideOne hs remN remR c
    refine ⟨?_, ?_, fun symbol => ?_⟩
    · simp only [fill, notional_cons, notionalDemand, List.map_cons, List.sum_cons]
      exact add_le_add hd.demand_le (ih _ _).1
    · simp only [fill, stopLoss_cons, riskDemand, List.map_cons, List.sum_cons]
      exact add_le_add hd.risk_le (ih _ _).2.1
    · simp only [fill, notionalOf_cons, hd.symbol]
      by_cases h : c.symbol = symbol
      · rw [if_pos h]
        simp only [symbolDemand, notionalDemand, List.filter_cons_of_pos, h, decide_true,
          List.map_cons, List.sum_cons]
        exact add_le_add hd.demand_le ((ih _ _).2.2 symbol)
      · rw [if_neg h, zero_add]
        simpa [symbolDemand, h] using (ih _ _).2.2 symbol

/-- What goes to one symbol is part of what goes to all. -/
theorem notionalOf_fill_le (hs : 0 ≤ single) (symbol : String) (cs : List AllocationCandidate)
    (remN remR : ℚ) :
    notionalOf symbol (fill single remN remR cs) ≤ notional (fill single remN remR cs) := by
  induction cs generalizing remN remR with
  | nil => simp [fill]
  | cons c cs ih =>
    have hd := sound_decideOne hs remN remR c
    have hone : (if (decideOne single remN remR c).symbol = symbol
        then (decideOne single remN remR c).allocatedNotional else 0)
        ≤ (decideOne single remN remR c).allocatedNotional := by
      split
      · exact le_refl _
      · exact hd.notional_nonneg
    simp only [fill, notionalOf_cons, notional_cons]
    exact add_le_add hone (ih _ _)

/-- What goes to a symbol no candidate has. -/
theorem notionalOf_fill_eq_zero {symbol : String} (h : ∀ c ∈ cs, c.symbol ≠ symbol)
    (hs : 0 ≤ single) (remN remR : ℚ) : notionalOf symbol (fill single remN remR cs) = 0 := by
  induction cs generalizing remN remR with
  | nil => rfl
  | cons c cs ih =>
    have hd := sound_decideOne hs remN remR c
    have hne : c.symbol ≠ symbol := h c (by simp)
    simp only [fill, notionalOf_cons, hd.symbol, if_neg hne, zero_add]
    exact ih (fun c' hc' => h c' (by simp [hc'])) _ _

/-- The snapshots that pass validation. -/
structure Valid (s : AllocationState) : Prop where
  equity : 0 < s.accountEquity
  cash : 0 ≤ s.freeCash
  budget : 0 ≤ s.riskBudgetRemaining
  heat : 0 ≤ s.portfolioHeatFraction
  maxHeat : 0 ≤ s.maxPortfolioHeatFraction
  fractions : ∀ fraction ∈ fractions s, 0 ≤ fraction ∧ fraction ≤ 1

theorem validateState_eq_ok_iff (s : AllocationState) : validateState s = .ok () ↔ Valid s := by
  simp only [validateState, raiseIf_bind_eq_ok_iff, raiseIf_eq_ok_iff, not_or, not_le, not_lt,
    not_exists, not_and]
  constructor
  · rintro ⟨⟨hequity, hcash, hbudget⟩, ⟨hheat, hmaxHeat⟩, hfractions⟩
    exact ⟨hequity, hcash, hbudget, hheat, hmaxHeat, hfractions⟩
  · rintro ⟨hequity, hcash, hbudget, hheat, hmaxHeat, hfractions⟩
    exact ⟨⟨hequity, hcash, hbudget⟩, ⟨hheat, hmaxHeat⟩, hfractions⟩

instance (s : AllocationState) : Decidable (Valid s) :=
  decidable_of_iff _ (validateState_eq_ok_iff s)

variable {s : AllocationState}

theorem Valid.cycleCap_nonneg (h : Valid s) : 0 ≤ cycleCap s :=
  mul_nonneg h.equity.le (h.fractions _ (by simp [CapitalAllocator.fractions])).1

theorem Valid.singleCap_nonneg (h : Valid s) : 0 ≤ singleCap s :=
  mul_nonneg h.equity.le (h.fractions _ (by simp [CapitalAllocator.fractions])).1

theorem Valid.notionalCap_nonneg (h : Valid s) : 0 ≤ notionalCap s :=
  le_min (le_max_left _ _) h.cycleCap_nonneg

theorem Valid.riskCap_nonneg (h : Valid s) : 0 ≤ riskCap s :=
  le_min h.budget (le_max_left _ _)

/-- **One cycle** on a valid snapshot: what it hands out is nonnegative, within the caps, and
no more than the candidates can get. -/
structure Within (s : AllocationState) (cs : List AllocationCandidate)
    (ds : List AllocationDecision) : Prop where
  notional_nonneg : 0 ≤ notional ds
  stopLoss_nonneg : 0 ≤ stopLoss ds
  notional_le_cap : notional ds ≤ notionalCap s
  stopLoss_le_cap : stopLoss ds ≤ riskCap s
  notional_le_demand : notional ds ≤ notionalDemand (singleCap s) cs
  stopLoss_le_demand : stopLoss ds ≤ riskDemand (singleCap s) cs
  symbol_le_notional : ∀ symbol, notionalOf symbol ds ≤ notional ds
  symbol_le_demand : ∀ symbol, notionalOf symbol ds ≤ symbolDemand (singleCap s) symbol cs
  other_symbol : ∀ symbol, (∀ c ∈ cs, c.symbol ≠ symbol) → notionalOf symbol ds = 0

theorem ranked_perm (cs : List AllocationCandidate) : (ranked cs).Perm cs :=
  List.perm_insertionSort _ cs

theorem notionalDemand_ranked (single : ℚ) (cs : List AllocationCandidate) :
    notionalDemand single (ranked cs) = notionalDemand single cs :=
  ((ranked_perm cs).map _).sum_eq

theorem riskDemand_ranked (single : ℚ) (cs : List AllocationCandidate) :
    riskDemand single (ranked cs) = riskDemand single cs :=
  ((ranked_perm cs).map _).sum_eq

theorem symbolDemand_ranked (single : ℚ) (symbol : String) (cs : List AllocationCandidate) :
    symbolDemand single symbol (ranked cs) = symbolDemand single symbol cs :=
  (((ranked_perm cs).filter _).map _).sum_eq

theorem allocateCycle_within (h : Valid s) (cs : List AllocationCandidate) :
    ∃ ds, allocateCycle s cs = .ok ds ∧ Within s cs ds := by
  have hs := h.singleCap_nonneg
  have hbudget := fill_le_budget hs (ranked cs) (notionalCap s) (riskCap s)
  have hdemand := fill_le_demand hs (ranked cs) (notionalCap s) (riskCap s)
  have hnonneg := fill_nonneg hs (ranked cs) (notionalCap s) (riskCap s)
  rw [max_eq_right h.notionalCap_nonneg, max_eq_right h.riskCap_nonneg] at hbudget
  refine ⟨fill (singleCap s) (notionalCap s) (riskCap s) (ranked cs), ?_, ?_⟩
  · simp [allocateCycle, (validateState_eq_ok_iff s).mpr h, bind, Except.bind, pure, Except.pure]
  · constructor
    · exact hnonneg.1
    · exact hnonneg.2
    · exact hbudget.1
    · exact hbudget.2
    · rw [← notionalDemand_ranked]
      exact hdemand.1
    · rw [← riskDemand_ranked]
      exact hdemand.2.1
    · exact fun symbol => notionalOf_fill_le hs symbol _ _ _
    · intro symbol
      rw [← symbolDemand_ranked]
      exact hdemand.2.2 symbol
    · intro symbol hother
      exact notionalOf_fill_eq_zero
        (fun c hc => hother c ((ranked_perm cs).mem_iff.mp hc)) hs _ _

end CapitalAllocator

end Kripto.Risk
