/-
# What the orders of a strategy may do to a position

A strategy that reduces or exits a position gets an order from `to_order_intent`, and the gates
of `submit` pass it if it is marked `reduce_only`.  The mark is only set on orders for a
perpetual.

* `reduction_admitted_iff`: the gates let the order of a reducing signal pass exactly if the
  market is a perpetual's, or the symbol is not isolated and the machine either allows new risk
  or permits no reducing at all.

`spot_exit_refused` is the exit from a spot position that a machine in `REDUCING_ONLY` refuses.

A strategy states the directions it trades in, and a signal comes with the position it is about.
`interpret_signal` looks at the position's side and at `allow_short`, and `to_order_intent` takes the
quantity as it is given.

* `keepsDirection_iff`: an order executed in full keeps to the direction and the inventory exactly if
  the side of an opening signal is an allowed direction, and the quantity for any other is no more
  than the position.
-/
import Kripto.Execution.Refusal
import Kripto.Execution.Script
import Kripto.Strategy.Spec

namespace Kripto.Strategy

open Execution Execution.ExecutionService Effect StrategyDecisionFlow
open Risk (RiskMachine RiskAction)

/-! ## 1. The mark -/

def TradeAction.Reduces (action : TradeAction) : Prop :=
  action = .REDUCE_LONG_OR_EXIT ∨ action = .REDUCE_SHORT_OR_EXIT

/-- What an accepted signal says of its decision. -/
theorem signal_context {spec : StrategySpec} {symbol : String} {context : SignalContext}
    {d : SignalDecision} (h : signal spec symbol context = .ok d) : d.context = context := by
  unfold signal at h
  split at h
  · exact nomatch h
  · obtain ⟨action, -, hd⟩ := bind_eq_ok h
    cases hd
    rfl

theorem toOrderIntent_reduceOnly {decision : RiskApprovedDecision} {a : OrderArgs}
    {intent : OrderIntent} (h : toOrderIntent decision a = .ok intent) :
    intent.reduceOnly = reduceOnlyOf decision.signal := by
  unfold toOrderIntent at h
  split at h
  · exact nomatch h
  split at h
  · exact nomatch h
  split at h
  · exact nomatch h
  · cases h
    rfl

/-- **The order of a reducing signal is marked exactly on a perpetual.** -/
theorem reduceOnlyOf_iff {d : SignalDecision} (h : d.action.Reduces) :
    reduceOnlyOf d = true ↔ d.context.marketType = .PERPETUAL := by
  have hmem : d.action ∈ [TradeAction.REDUCE_LONG_OR_EXIT, .REDUCE_SHORT_OR_EXIT] := by
    rcases h with h | h <;> simp [h]
  simp [reduceOnlyOf, hmem]

/-! ## 2. The gates -/

section Gates

variable [PyStr] [NumericColumn] {ε : Type} {Ex : Exchange ε} {self : ExecutionService}
  {a : SubmitArgs} {m : RiskMachine} {w : World ε}

/-- The order is refused neither for the risk state, if that permits reducing, nor because its
symbol is isolated. -/
def Admitted (Ex : Exchange ε) (self : ExecutionService) (a : SubmitArgs) (m : RiskMachine)
    (w : World ε) : Prop :=
  (RiskAction.REDUCE ∈ m.allowedActions →
    ¬∃ w', Runs (gated Ex m) (submit self a) w (.error riskRefusal) w') ∧
  ¬∃ w', Runs (gated Ex m) (submit self a) w (.error symbolRefusal) w'

theorem admitted_iff (hfree : LockFree self a w) :
    Admitted Ex self a m w ↔ a.intent.reduceOnly = true ∨
      ¬Blocked self a w ∧ (m.allowNewRisk = true ∨ m.state.Severe) := by
  rw [Admitted, risk_refused_iff hfree, symbol_refused_iff hfree, Risk.reduce_mem_iff]
  cases a.intent.reduceOnly with
  | true => simp
  | false =>
    by_cases hblocked : Blocked self a w
    · simp [hblocked]
    · by_cases hsevere : m.state.Severe <;> simp [hblocked, hsevere]

/-- **When the order of a reducing signal passes the gates.** -/
theorem reduction_admitted_iff {spec : StrategySpec} {symbol : String} {context : SignalContext}
    {decision : RiskApprovedDecision} {args : OrderArgs}
    (hsignal : signal spec symbol context = .ok decision.signal)
    (haction : decision.signal.action.Reduces)
    (hintent : toOrderIntent decision args = .ok a.intent) (hfree : LockFree self a w) :
    Admitted Ex self a m w ↔ context.marketType = .PERPETUAL ∨
      ¬Blocked self a w ∧ (m.allowNewRisk = true ∨ m.state.Severe) := by
  rw [admitted_iff hfree, toOrderIntent_reduceOnly hintent, reduceOnlyOf_iff haction,
    signal_context hsignal]

end Gates

/-! ## 3. Two exits -/

section Exits

attribute [local instance] asciiStr exactColumn

/-- A strategy for both markets. -/
def exitSpec : StrategySpec where
  strategyId := "trend-v1"
  strategyVersion := "1"
  hypothesis := "trend"
  supportedMarketTypes := ["SPOT", "PERPETUAL"]
  supportedSymbols := ["BTCUSDT"]
  allowedDirection := ["LONG"]
  requiredTimeframes := ["5m"]
  requiredFeatures := ["atr"]
  warmup := 200
  validRegimes := ["BULL"]
  invalidRegimes := []
  entryRule := "ema"
  confirmationRule := "1h"
  invalidationRule := "break"
  exitRule := "time"
  stopRule := "atr"
  takeProfitRule := "multiple"
  maxHoldingTimeSeconds := 86400
  cooldownSeconds := 900
  orderPolicy := ["type"]
  positionSizingPolicy := ["risk_per_trade"]
  riskLimits := ["max_drawdown"]
  assumptions := ["liquid"]
  knownFailureModes := ["gap"]
  checked := by rfl

/-- A `SELL` against a long position of one. -/
def exitContext (market : MarketType) : SignalContext where
  signal := "SELL"
  marketType := market
  positionSide := .LONG
  currentPositionQty := 1
  signal_mem := by decide
  qty_nonneg := by decide

def exitDecision (market : MarketType) : RiskApprovedDecision where
  signal := ⟨"trend-v1", "BTCUSDT", exitContext market, .REDUCE_LONG_OR_EXIT⟩
  approved := true
  reason := "exit"

def exitArgs : OrderArgs where
  intentId := "i-1"
  accountId := "a-1"
  quantity := 1

/-- The whole position is sold, with the position and the balance stated. -/
def exitSubmit (market : MarketType) : SubmitArgs where
  intent := {
    intentId := "i-1"
    accountId := "a-1"
    symbol := "BTCUSDT"
    side := "SELL"
    orderType := "MARKET"
    quantity := 1
    marketType := market
    strategyId := "trend-v1"
    reduceOnly := market = .PERPETUAL
    clientOrderId := some "i-1" }
  referencePrice := 60000
  maxDeviationBps := 100
  currentPositionQty := some 1
  currentAvailableBaseQty := some 1

def exitService : ExecutionService := { id := 0, accountLocks := 0, symbolIsolation := some 0 }

theorem exit_lockFree (market : MarketType) :
    LockFree exitService (exitSubmit market) (World.empty ()) := rfl

/-- The exit of a perpetual position passes while the machine only permits reducing. -/
theorem perpetual_exit_admitted :
    Admitted (Exchange.any Unit) exitService (exitSubmit .PERPETUAL) { state := .REDUCING_ONLY }
      (World.empty ()) := by
  have hsignal : signal exitSpec "BTCUSDT" (exitContext .PERPETUAL) =
      .ok (exitDecision .PERPETUAL).signal := rfl
  have hintent : toOrderIntent (exitDecision .PERPETUAL) exitArgs =
      .ok (exitSubmit .PERPETUAL).intent := rfl
  exact (reduction_admitted_iff hsignal (.inl rfl) hintent (exit_lockFree _)).mpr (.inl rfl)

/-- **The exit of a spot position is refused while the machine permits reducing.** -/
theorem spot_exit_refused :
    signal exitSpec "BTCUSDT" (exitContext .SPOT) = .ok (exitDecision .SPOT).signal ∧
    (exitDecision .SPOT).signal.action.Reduces ∧
    toOrderIntent (exitDecision .SPOT) exitArgs = .ok (exitSubmit .SPOT).intent ∧
    exitArgs.quantity ≤ (exitContext .SPOT).currentPositionQty ∧
    RiskAction.REDUCE ∈ ({ state := .REDUCING_ONLY } : RiskMachine).allowedActions ∧
    ∃ w', Runs (gated (Exchange.any Unit) { state := .REDUCING_ONLY })
      (submit exitService (exitSubmit .SPOT)) (World.empty ()) (.error riskRefusal) w' := by
  refine ⟨rfl, .inl rfl, rfl, le_rfl, by decide,
    (risk_refused_iff (exit_lockFree _)).mpr ⟨rfl, ?_, rfl⟩⟩
  rintro ⟨iso, -, hblocked⟩
  exact nomatch hblocked

end Exits

/-! ## 4. Exposure -/

/-- An amount on a side, with its sign. -/
def PositionSide.signed (qty : ℚ) : PositionSide → ℚ
  | LONG => qty
  | SHORT => -qty

def SignalContext.position (context : SignalContext) : ℚ :=
  context.positionSide.signed context.currentPositionQty

/-- How much of a position is on a side. -/
def exposure (side : PositionSide) (position : ℚ) : ℚ := max (side.signed position) 0

/-- The position after an order is executed in full. -/
def executed (position : ℚ) (intent : OrderIntent) : ℚ :=
  if intent.side = "BUY" then position + intent.quantity else position - intent.quantity

/-- No exposure is opened or increased on a side that is not allowed, and no reduction exceeds the
position. -/
structure KeepsDirection (spec : StrategySpec) (context : SignalContext) (action : TradeAction)
    (intent : OrderIntent) : Prop where
  direction : ∀ side : PositionSide, side.value ∉ spec.allowedDirection →
    exposure side (executed context.position intent) ≤ exposure side context.position
  inventory : action.Reduces → intent.quantity ≤ context.currentPositionQty

/-! ## 5. What a signal leads to -/

/-- The signal adds to a position on the side it is about. -/
def SignalContext.Opens (context : SignalContext) : Prop :=
  context.signal = "BUY" ∧ context.positionSide = .LONG ∨
    context.signal = "SELL" ∧ context.positionSide = .SHORT

def PositionSide.increase : PositionSide → TradeAction
  | LONG => .INCREASE_LONG
  | SHORT => .INCREASE_SHORT

def PositionSide.reduce : PositionSide → TradeAction
  | LONG => .REDUCE_LONG_OR_EXIT
  | SHORT => .REDUCE_SHORT_OR_EXIT

variable {spec : StrategySpec} {symbol reason : String} {context : SignalContext}
  {action : TradeAction} {s : SignalDecision} {decision : RiskApprovedDecision} {a : OrderArgs}
  {intent : OrderIntent} {approved : Bool}

theorem interpretSignal_side (h : spec.interpretSignal context = .ok action) :
    context.positionSide = .LONG ∧ interpretLong context = action ∨
      context.positionSide = .SHORT ∧ interpretShort context = action := by
  unfold StrategySpec.interpretSignal at h
  cases hmarket : context.marketType <;> cases hside : context.positionSide <;>
    simp only [hmarket, hside] at h <;> split_ifs at h <;> cases h
  · exact .inl ⟨rfl, rfl⟩
  · exact .inl ⟨rfl, rfl⟩
  · exact .inr ⟨rfl, rfl⟩

/-- **An action** adds to the side of the position, or reduces it, as the signal says. -/
theorem interpretSignal_cases (h : spec.interpretSignal context = .ok action)
    (hne : action ≠ .NO_ACTION) :
    context.Opens ∧ action = context.positionSide.increase ∨
      ¬ context.Opens ∧ action = context.positionSide.reduce := by
  rcases interpretSignal_side h with ⟨hside, haction⟩ | ⟨hside, haction⟩
  · unfold interpretLong at haction
    split_ifs at haction with hbuy hqty
    · exact .inl ⟨.inl ⟨hbuy, hside⟩, by rw [hside, ← haction]; rfl⟩
    · exact .inr ⟨by simp [SignalContext.Opens, hbuy, hside], by rw [hside, ← haction]; rfl⟩
    · exact absurd haction.symm hne
  · unfold interpretShort at haction
    split_ifs at haction with hsell hqty
    · exact .inl ⟨.inr ⟨hsell, hside⟩, by rw [hside, ← haction]; rfl⟩
    · exact .inr ⟨by simp [SignalContext.Opens, hsell, hside], by rw [hside, ← haction]; rfl⟩
    · exact absurd haction.symm hne

theorem signal_action (h : signal spec symbol context = .ok s) :
    spec.interpretSignal context = .ok s.action := by
  unfold signal at h
  split_ifs at h
  obtain ⟨action, haction, hs⟩ := bind_eq_ok h
  cases hs
  exact haction

theorem approveRisk_signal (h : approveRisk s approved reason = .ok decision) :
    decision.signal = s := by
  unfold approveRisk at h
  split_ifs at h
  rw [← Except.ok.inj h]

theorem toOrderIntent_eq_ok (h : toOrderIntent decision a = .ok intent) :
    0 < a.quantity ∧ decision.signal.action ≠ .NO_ACTION ∧ intent.quantity = a.quantity ∧
      intent.side = sideOf decision.signal.action := by
  unfold toOrderIntent at h
  split_ifs at h with happroved hqty haction
  have hintent := Except.ok.inj h
  exact ⟨not_le.mp hqty, haction, by rw [← hintent], by rw [← hintent]⟩

/-! ## 6. Orders that keep to the direction -/

/-- An order in the direction of the position. -/
theorem executed_increase (hside : intent.side = sideOf context.positionSide.increase) :
    executed context.position intent =
      context.positionSide.signed (context.currentPositionQty + intent.quantity) := by
  rw [executed, hside, SignalContext.position]
  cases context.positionSide
  · simp [PositionSide.increase, sideOf, PositionSide.signed]
  · simp [PositionSide.increase, sideOf, PositionSide.signed]
    ring

/-- An order against it. -/
theorem executed_reduce (hside : intent.side = sideOf context.positionSide.reduce) :
    executed context.position intent =
      context.positionSide.signed (context.currentPositionQty - intent.quantity) := by
  rw [executed, hside, SignalContext.position]
  cases context.positionSide
  · simp [PositionSide.reduce, sideOf, PositionSide.signed]
  · simp [PositionSide.reduce, sideOf, PositionSide.signed]
    ring

theorem exposure_signed (side : PositionSide) (qty : ℚ) :
    exposure side (side.signed qty) = max qty 0 := by
  cases side <;> simp [exposure, PositionSide.signed]

theorem exposure_signed_of_ne {side side' : PositionSide} (h : side ≠ side') {qty : ℚ}
    (hqty : 0 ≤ qty) : exposure side (side'.signed qty) = 0 := by
  cases side <;> cases side' <;> first | exact absurd rfl h | simpa [exposure, PositionSide.signed]

theorem not_reduces_increase (side : PositionSide) : ¬ side.increase.Reduces := by
  cases side <;> simp [PositionSide.increase, TradeAction.Reduces]

theorem reduces_reduce (side : PositionSide) : side.reduce.Reduces := by
  cases side <;> simp [PositionSide.reduce, TradeAction.Reduces]

/-- An order that adds to a position keeps to the direction on an allowed side only. -/
theorem keepsDirection_increase (hqty : 0 < intent.quantity)
    (hside : intent.side = sideOf context.positionSide.increase) :
    KeepsDirection spec context context.positionSide.increase intent ↔
      context.positionSide.value ∈ spec.allowedDirection := by
  have hnonneg := context.qty_nonneg
  have hgrows : exposure context.positionSide context.position <
      exposure context.positionSide (executed context.position intent) := by
    rw [executed_increase hside, SignalContext.position, exposure_signed, exposure_signed,
      max_eq_left hnonneg]
    exact lt_max_of_lt_left (by linarith)
  constructor
  · intro h
    by_contra hnot
    exact absurd (h.direction _ hnot) (not_le.mpr hgrows)
  · intro hallowed
    refine ⟨fun side hside' => ?_, fun hred => absurd hred (not_reduces_increase _)⟩
    have hne : side ≠ context.positionSide := fun heq => hside' (heq ▸ hallowed)
    rw [executed_increase hside, SignalContext.position, exposure_signed_of_ne hne hnonneg,
      exposure_signed_of_ne hne (by linarith)]

/-- An order against a position does if it is no more than the position. -/
theorem keepsDirection_reduce (hqty : 0 < intent.quantity)
    (hside : intent.side = sideOf context.positionSide.reduce) :
    KeepsDirection spec context context.positionSide.reduce intent ↔
      intent.quantity ≤ context.currentPositionQty := by
  refine ⟨fun h => h.inventory (reduces_reduce _), fun hle => ⟨fun side _ => ?_, fun _ => hle⟩⟩
  rw [executed_reduce hside, SignalContext.position]
  by_cases heq : side = context.positionSide
  · rw [heq, exposure_signed, exposure_signed]
    exact max_le_max_right 0 (by linarith)
  · rw [exposure_signed_of_ne heq context.qty_nonneg, exposure_signed_of_ne heq (by linarith)]

/-- **An order keeps to the direction and the inventory** exactly if its signal opens on an allowed
side, or its quantity is no more than the position. -/
theorem keepsDirection_iff (spec : StrategySpec) (symbol reason : String) (context : SignalContext)
    (approved : Bool) (a : OrderArgs) (s : SignalDecision) (decision : RiskApprovedDecision)
    (intent : OrderIntent) (hsignal : signal spec symbol context = .ok s)
    (happrove : approveRisk s approved reason = .ok decision)
    (hintent : toOrderIntent decision a = .ok intent) :
    KeepsDirection spec context decision.signal.action intent ↔
      (context.Opens → context.positionSide.value ∈ spec.allowedDirection) ∧
        (¬ context.Opens → a.quantity ≤ context.currentPositionQty) := by
  obtain ⟨hqty, hne, hquantity, hside⟩ := toOrderIntent_eq_ok hintent
  rw [approveRisk_signal happrove] at hne hside ⊢
  rw [← hquantity] at hqty ⊢
  rcases interpretSignal_cases (signal_action hsignal) hne with ⟨hopens, haction⟩ | ⟨hnot, haction⟩
  · rw [haction] at hside ⊢
    rw [keepsDirection_increase hqty hside]
    exact ⟨fun h => ⟨fun _ => h, fun hn => absurd hopens hn⟩, fun h => h.1 hopens⟩
  · rw [haction] at hside ⊢
    rw [keepsDirection_reduce hqty hside]
    exact ⟨fun h => ⟨fun ho => absurd ho hnot, fun _ => h⟩, fun h => h.2 hnot⟩

theorem keepsDirection_iff_exit :
    ∃ intent, toOrderIntent (exitDecision .SPOT) exitArgs = .ok intent ∧
      (KeepsDirection exitSpec (exitContext .SPOT) .REDUCE_LONG_OR_EXIT intent ↔
        ((exitContext .SPOT).Opens → (exitContext .SPOT).positionSide.value ∈
          exitSpec.allowedDirection) ∧
        (¬ (exitContext .SPOT).Opens → exitArgs.quantity ≤
          (exitContext .SPOT).currentPositionQty)) :=
  ⟨_, rfl, keepsDirection_iff exitSpec "BTCUSDT" "exit" (exitContext .SPOT) true exitArgs
    (exitDecision .SPOT).signal (exitDecision .SPOT) _ rfl rfl rfl⟩

/-- A strategy that is allowed to be short only. -/
def shortOnlySpec : StrategySpec :=
  { exitSpec with
    allowedDirection := ["SHORT"]
    allowShort := true
    shortValidation := some [("max_short_exposure", 1), ("liquidation_buffer", 1)]
    checked := by rfl }

/-- A `BUY` without a position. -/
def flatContext : SignalContext where
  signal := "BUY"
  marketType := .PERPETUAL
  positionSide := .LONG
  currentPositionQty := 0
  signal_mem := by decide
  qty_nonneg := le_rfl

def flatSignal : SignalDecision := ⟨"trend-v1", "BTCUSDT", flatContext, .INCREASE_LONG⟩

/-- **A strategy that may only be short goes long.** -/
theorem direction_not_kept : ¬ ∀ (spec : StrategySpec) (symbol reason : String)
    (context : SignalContext) (approved : Bool) (a : OrderArgs) (s : SignalDecision)
    (decision : RiskApprovedDecision) (intent : OrderIntent),
    signal spec symbol context = .ok s → approveRisk s approved reason = .ok decision →
      toOrderIntent decision a = .ok intent →
        KeepsDirection spec context decision.signal.action intent := by
  intro h
  have hkeeps := h shortOnlySpec "BTCUSDT" "entry" flatContext true exitArgs flatSignal
    ⟨flatSignal, true, "entry"⟩ _ rfl rfl rfl
  have hlong := hkeeps.direction .LONG (by decide)
  norm_num [exposure, executed, SignalContext.position, PositionSide.signed, flatContext, exitArgs,
    sideOf, flatSignal] at hlong

end Kripto.Strategy
