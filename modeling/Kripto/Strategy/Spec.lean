/-
# From a signal to an order

`strategies/spec.py`: a strategy says what a signal means for a position, a risk decision
approves the result, and `to_order_intent` makes an order of it.  The texts and policies of a
strategy are read by its own check only; what the signal path reads are the supported markets
and symbols and `allow_short`.
-/
import Kripto.Execution.PreTrade
import Kripto.Python.Text

namespace Kripto.Strategy

open Execution Python.Text

/-! ## 1. The specification of a strategy -/

inductive PositionSide
  | LONG | SHORT
  deriving DecidableEq, Repr

def PositionSide.value : PositionSide → String
  | LONG => "LONG"
  | SHORT => "SHORT"

inductive TradeAction
  | INCREASE_LONG | REDUCE_LONG_OR_EXIT | INCREASE_SHORT | REDUCE_SHORT_OR_EXIT | NO_ACTION
  deriving DecidableEq, Repr

def marketValue : MarketType → String
  | .SPOT => "SPOT"
  | .PERPETUAL => "PERPETUAL"

/-- The arguments of `StrategySpec(...)`.  Of the three policies only the keys are looked at. -/
structure StrategyFields where
  strategyId : String
  strategyVersion : String
  hypothesis : String
  supportedMarketTypes : List String
  supportedSymbols : List String
  allowedDirection : List String
  requiredTimeframes : List String
  requiredFeatures : List String
  warmup : ℤ
  validRegimes : List String
  invalidRegimes : List String
  entryRule : String
  confirmationRule : String
  invalidationRule : String
  exitRule : String
  stopRule : String
  takeProfitRule : String
  maxHoldingTimeSeconds : ℤ
  cooldownSeconds : ℤ
  orderPolicy : List String
  positionSizingPolicy : List String
  riskLimits : List String
  assumptions : List String
  knownFailureModes : List String
  allowShort : Bool := false
  shortValidation : Option (List (String × ℚ)) := none

namespace StrategyFields

variable (self : StrategyFields)

def requiredStrings : List String :=
  [self.strategyId, self.strategyVersion, self.hypothesis, self.entryRule,
    self.confirmationRule, self.invalidationRule, self.exitRule, self.stopRule,
    self.takeProfitRule]

def requiredSequences : List (List String) :=
  [self.supportedMarketTypes, self.supportedSymbols, self.allowedDirection,
    self.requiredTimeframes, self.requiredFeatures, self.assumptions, self.knownFailureModes]

def requiredShort : List String := ["max_short_exposure", "liquidation_buffer"]

/-- The limits that trading short needs of its own. -/
def checkShort : Except Exc Unit :=
  match self.shortValidation with
  | none => .error (.valueError "short trading requires separate short_validation limits")
  | some limits => do
    raiseIf (∃ key ∈ requiredShort, (limits.lookup key).isNone = true)
      (.valueError "short trading requires separate short_validation limits")
    raiseIf (∃ key ∈ requiredShort, (limits.lookup key).getD 0 ≤ 0)
      (.valueError "short_validation limits must be positive")

def postInit : Except Exc Unit := do
  raiseIf (self.requiredStrings.any isBlank = true)
    (.valueError "strategy specification contains empty required text")
  raiseIf (self.requiredSequences.any List.isEmpty = true)
    (.valueError "strategy specification contains empty required collection")
  raiseIf (¬self.supportedMarketTypes ⊆ ["SPOT", "PERPETUAL"])
    (.valueError "unsupported market type")
  raiseIf (¬self.allowedDirection ⊆ ["LONG", "SHORT"])
    (.valueError "allowed_direction must contain only LONG/SHORT")
  raiseIf (∃ regime ∈ self.validRegimes, regime ∈ self.invalidRegimes)
    (.valueError "valid and invalid regimes cannot overlap")
  raiseIf (self.warmup < 1 ∨ self.maxHoldingTimeSeconds < 1 ∨ self.cooldownSeconds < 0)
    (.valueError "warmup/holding/cooldown values are invalid")
  raiseIf (self.orderPolicy = [] ∨ self.positionSizingPolicy = [] ∨ self.riskLimits = [])
    (.valueError "order, sizing and risk policies are required")
  raiseIf ("SHORT" ∈ self.allowedDirection ∧ self.allowShort = false)
    (.valueError "SHORT direction requires allow_short=true")
  if self.allowShort then self.checkShort else .ok ()

end StrategyFields

/-- A strategy whose specification passed its check. -/
structure StrategySpec extends StrategyFields where
  checked : toStrategyFields.postInit = .ok ()

/-! ## 2. Signals -/

/-- What a signal is about.  The position is an amount without a sign. -/
structure SignalContext where
  signal : String
  marketType : MarketType
  positionSide : PositionSide
  currentPositionQty : ℚ
  signal_mem : signal ∈ ["BUY", "SELL"]
  qty_nonneg : 0 ≤ currentPositionQty

def SignalContext.create (signal : String) (marketType : MarketType)
    (positionSide : PositionSide) (currentPositionQty : ℚ) : Except Exc SignalContext :=
  if hsignal : signal ∈ ["BUY", "SELL"] then
    if hqty : 0 ≤ currentPositionQty then
      .ok ⟨signal, marketType, positionSide, currentPositionQty, hsignal, hqty⟩
    else
      .error (.valueError "current_position_qty must be non-negative absolute quantity")
  else .error (.valueError "signal must be BUY or SELL")

/-- A signal against a long position: the market type makes no difference. -/
def interpretLong (context : SignalContext) : TradeAction :=
  if context.signal = "BUY" then .INCREASE_LONG
  else if 0 < context.currentPositionQty then .REDUCE_LONG_OR_EXIT
  else .NO_ACTION

def interpretShort (context : SignalContext) : TradeAction :=
  if context.signal = "SELL" then .INCREASE_SHORT
  else if 0 < context.currentPositionQty then .REDUCE_SHORT_OR_EXIT
  else .NO_ACTION

def StrategySpec.interpretSignal (self : StrategySpec) (context : SignalContext) :
    Except Exc TradeAction :=
  if marketValue context.marketType ∉ self.supportedMarketTypes then
    .error (.permissionError "market type not supported by strategy")
  else match context.marketType, context.positionSide with
    | .SPOT, .SHORT => .error (.permissionError "SPOT position side must be LONG inventory")
    | .SPOT, .LONG => .ok (interpretLong context)
    | .PERPETUAL, .LONG => .ok (interpretLong context)
    | .PERPETUAL, .SHORT =>
      if self.allowShort = false then .error (.permissionError "short trading is disabled")
      else .ok (interpretShort context)

/-! ## 3. The decision flow -/

structure SignalDecision where
  strategyId : String
  symbol : String
  context : SignalContext
  action : TradeAction

structure RiskApprovedDecision where
  signal : SignalDecision
  approved : Bool
  reason : String

namespace StrategyDecisionFlow

def signal (spec : StrategySpec) (symbol : String) (context : SignalContext) :
    Except Exc SignalDecision :=
  if symbol ∉ spec.supportedSymbols then
    .error (.permissionError "symbol not supported by strategy")
  else do
    let action ← spec.interpretSignal context
    return ⟨spec.strategyId, symbol, context, action⟩

def approveRisk (signal : SignalDecision) (approved : Bool) (reason : String) :
    Except Exc RiskApprovedDecision :=
  if isBlank reason then .error (.valueError "risk decision reason is required")
  else .ok ⟨signal, approved, reason⟩

/-- The side that takes the position where the action wants it. -/
def sideOf (action : TradeAction) : String :=
  if action ∈ [TradeAction.INCREASE_LONG, .REDUCE_SHORT_OR_EXIT] then "BUY" else "SELL"

/-- Only orders for a perpetual are ever marked. -/
def reduceOnlyOf (signal : SignalDecision) : Bool :=
  signal.context.marketType = .PERPETUAL ∧
    signal.action ∈ [TradeAction.REDUCE_LONG_OR_EXIT, .REDUCE_SHORT_OR_EXIT]

/-- The arguments of `to_order_intent` next to the decision. -/
structure OrderArgs where
  intentId : String
  accountId : String
  quantity : ℚ
  orderType : String := "MARKET"

def toOrderIntent (decision : RiskApprovedDecision) (a : OrderArgs) : Except Exc OrderIntent :=
  if !decision.approved then
    .error (.permissionError "Signal -> RiskApproved -> OrderIntent transition requires approval")
  else if a.quantity ≤ 0 then .error (.valueError "quantity must be positive")
  else if decision.signal.action = .NO_ACTION then
    .error (.permissionError "NO_ACTION cannot become OrderIntent")
  else .ok {
    intentId := a.intentId
    accountId := a.accountId
    symbol := decision.signal.symbol
    side := sideOf decision.signal.action
    orderType := a.orderType
    quantity := a.quantity
    marketType := decision.signal.context.marketType
    strategyId := decision.signal.strategyId
    reduceOnly := reduceOnlyOf decision.signal
    clientOrderId := some a.intentId }

end StrategyDecisionFlow

end Kripto.Strategy
