/-
# Pre-trade checks and normalization

`core/money.py`, `execution/pretrade.py` and `execution/pretrade_guard.py`: the pure functions
`ExecutionService.submit` applies to an intent before it reserves or sends anything.  Times are
microseconds.  A `Decimal` is a rational, and what is calculated goes through the context.
-/
import Kripto.Execution.Order
import Kripto.Python.Rounding
import Mathlib.Data.Rat.Floor

namespace Kripto.Execution

/-! ## 1. Checks that raise -/

/-- `if c: raise e`. -/
def raiseIf (c : Prop) [Decidable c] (e : Exc) : Except Exc Unit :=
  if c then .error e else .ok ()

theorem bind_eq_ok {α β : Type} {x : Except Exc α} {f : α → Except Exc β} {b : β}
    (h : x >>= f = .ok b) : ∃ a, x = .ok a ∧ f a = .ok b := by
  cases x with
  | ok a => exact ⟨a, rfl, h⟩
  | error e => cases h

@[simp] theorem raiseIf_eq_ok_iff {c : Prop} [Decidable c] {e : Exc} {u : Unit} :
    raiseIf c e = .ok u ↔ ¬c := by
  by_cases h : c <;> simp [raiseIf, h]

theorem raiseIf_bind_eq_ok_iff {α : Type} {c : Prop} [Decidable c] {e : Exc}
    {f : Unit → Except Exc α} {a : α} :
    raiseIf c e >>= f = .ok a ↔ ¬c ∧ f () = .ok a := by
  by_cases h : c
  · simp [raiseIf, h, bind, Except.bind]
  · simp [raiseIf, h, bind, Except.bind]

open Python (DecimalContext)

open Python.DecimalContext (fix)

/-! ## 2. `core/money.py` -/

/-- The two roundings of `quantize_step`: `ROUND_DOWN` is towards zero, `ROUND_UP` away. -/
inductive Direction
  | down | up
  deriving DecidableEq, Repr

/-- `Decimal.to_integral_value`. -/
def toIntegralValue (q : ℚ) : Direction → ℤ
  | .down => if 0 ≤ q then q.floor else q.ceil
  | .up => if 0 ≤ q then q.ceil else q.floor

section

variable [DecimalContext]

def quantizeStep (value step : ℚ) (direction : Direction) : Except Exc ℚ :=
  if step ≤ 0 then .error (.valueError "step must be positive")
  else .ok (fix (toIntegralValue (fix (value / step)) direction * step))

def normalizeQuantity (qty step : ℚ) : Except Exc ℚ := quantizeStep qty step .down

/-- `abs(x)`, which the context rounds as well. -/
def absolute (x : ℚ) : ℚ := fix |x|

/-- `abs(a-b)/b*10000`. -/
def distanceBps (a b : ℚ) : ℚ := fix (fix (absolute (fix (a - b)) / b) * 10000)

def bpsDistance (a b : ℚ) : Except Exc ℚ :=
  if b = 0 then .error (.zeroDivisionError "reference price is zero") else .ok (distanceBps a b)

end

variable [PyStr]

open PyStr

def normalizePrice (price tick : ℚ) (side : String) : Except Exc ℚ :=
  quantizeStep price tick (if upper side = "BUY" then .down else .up)

/-! ## 3. `execution/pretrade.py` -/

/-- `{'MARKET':cap.market, ...}.get(typ, False)`. -/
def supportedType (cap : Capabilities) (typ : String) : Bool :=
  if typ = "MARKET" then cap.market
  else if typ = "LIMIT" then cap.limit
  else if typ = "STOP_LOSS_LIMIT" then cap.stop
  else if typ = "TAKE_PROFIT_LIMIT" then cap.takeProfit
  else false

/-- `price or reference_price`: a missing price and a price of zero are both false. -/
def checkPrice (price : Option ℚ) (referencePrice : ℚ) : ℚ :=
  match price with
  | some p => if p = 0 then referencePrice else p
  | none => referencePrice

/-- `filters.max_notional and check_price*qty > filters.max_notional`. -/
def exceedsMaxNotional (maxNotional : Option ℚ) (notional : ℚ) : Bool :=
  match maxNotional with
  | some m => m ≠ 0 ∧ m < notional
  | none => false

/-- `price` on the tick grid, if there is one. -/
def normalizedPrice (intent : OrderIntent) (filters : SymbolFilters) :
    Except Exc (Option ℚ) :=
  match intent.price with
  | some p => do
    let price ← normalizePrice p filters.tickSize intent.side
    return some price
  | none => return none

/-- The price collar.  An order without a price has none. -/
def checkCollar (price : Option ℚ) (referencePrice maxDeviationBps : ℚ) : Except Exc Unit :=
  match price with
  | some p => do
    let distance ← bpsDistance p referencePrice
    raiseIf (maxDeviationBps < distance) (.valueError "fat finger price collar")
  | none => return ()

def normalizeAndValidate (intent : OrderIntent) (filters : SymbolFilters) (cap : Capabilities)
    (referencePrice maxDeviationBps : ℚ) : Except Exc OrderIntent := do
  let typ := upper intent.orderType
  raiseIf (supportedType cap typ = false) (.valueError "unsupported order type")
  let qty ← normalizeQuantity intent.quantity filters.stepSize
  raiseIf (qty < filters.minQty ∨ filters.maxQty < qty) (.valueError "quantity filter")
  let price ← normalizedPrice intent filters
  let notional := fix (checkPrice price referencePrice * qty)
  raiseIf (notional < filters.minNotional) (.valueError "min notional")
  raiseIf (exceedsMaxNotional filters.maxNotional notional = true) (.valueError "max notional")
  checkCollar price referencePrice maxDeviationBps
  return { intent with
    orderType := typ, quantity := qty, price := price
    clientOrderId := some (orText intent.clientOrderId intent.intentId) }

/-- **What normalization does to an intent it accepts**: it upper-cases the type, rounds
quantity and price to their steps, and fills in the client id; the rest stays. -/
theorem normalizeAndValidate_eq_ok {intent n : OrderIntent} {filters : SymbolFilters}
    {cap : Capabilities} {referencePrice maxDeviationBps : ℚ}
    (h : normalizeAndValidate intent filters cap referencePrice maxDeviationBps = .ok n) :
    ∃ qty price, normalizeQuantity intent.quantity filters.stepSize = .ok qty ∧
      normalizedPrice intent filters = .ok price ∧
      n = { intent with
        orderType := upper intent.orderType, quantity := qty, price := price
        clientOrderId := some (orText intent.clientOrderId intent.intentId) } := by
  obtain ⟨_, _, h⟩ := bind_eq_ok h
  obtain ⟨qty, hqty, h⟩ := bind_eq_ok h
  obtain ⟨_, _, h⟩ := bind_eq_ok h
  obtain ⟨price, hprice, h⟩ := bind_eq_ok h
  obtain ⟨_, _, h⟩ := bind_eq_ok h
  obtain ⟨_, _, h⟩ := bind_eq_ok h
  obtain ⟨_, _, h⟩ := bind_eq_ok h
  cases h
  exact ⟨qty, price, hqty, hprice, rfl⟩

def validateReduceOnly (intent : OrderIntent) (currentPositionQty : Option ℚ) :
    Except Exc Unit :=
  if !intent.reduceOnly then .ok ()
  else match currentPositionQty with
    | none => .error (.permissionError "reduce-only requires current position context")
    | some position =>
      if position = 0 then
        .error (.permissionError "reduce-only cannot open exposure from flat")
      else if 0 < position ∧ upper intent.side ≠ "SELL" then
        .error (.permissionError "reduce-only side would increase long exposure")
      else if position < 0 ∧ upper intent.side ≠ "BUY" then
        .error (.permissionError "reduce-only side would increase short exposure")
      else if absolute position < intent.quantity then
        .error (.permissionError "reduce-only quantity would cross through zero")
      else .ok ()

def validateSpotSellBalance (intent : OrderIntent) (availableBaseQty : Option ℚ) :
    Except Exc Unit :=
  if intent.marketType ≠ .SPOT then .ok ()
  else if upper intent.side ≠ "SELL" then .ok ()
  else match availableBaseQty with
    | none => .error (.permissionError "SPOT SELL requires available base-asset balance context")
    | some available =>
      if available < 0 then .error (.valueError "available base balance cannot be negative")
      else if available < intent.quantity then
        .error (.permissionError "SPOT SELL exceeds available base-asset balance")
      else .ok ()

/-! ## 4. `execution/pretrade_guard.py` -/

/-- A `datetime`: an instant, and whether it carries a timezone. -/
structure DateTime where
  micros : ℤ
  aware : Bool
  deriving DecidableEq

structure PreTradeLimits where
  maxOrderNotional : ℚ
  maxQuantity : ℚ
  maxPositionNotional : ℚ
  maxPriceDeviationBps : ℚ := 100
  maxSpreadBps : ℚ := 50
  maxExpectedSlippageBps : ℚ := 50
  maxReferenceAgeMs : ℤ := 3000
  deriving DecidableEq

structure PreTradeContext where
  referencePrice : ℚ
  referenceTime : DateTime
  bid : ℚ
  ask : ℚ
  expectedSlippageBps : ℚ
  currentPositionQty : ℚ
  availableBalance : ℚ
  symbolTrading : Bool
  tradingStateAllowsNewRisk : Bool
  minPrice : Option ℚ := none
  maxPrice : Option ℚ := none
  deriving DecidableEq

/-- The decision.  A spread of `none` is `Decimal('Infinity')`. -/
structure PreTradeDecision where
  allowed : Bool
  reasons : List String
  orderNotional : ℚ
  resultingPositionNotional : ℚ
  spreadBps : Option ℚ
  referenceAgeMs : ℤ
  deriving DecidableEq

def guardBps (a b : ℚ) : Except Exc ℚ :=
  if b ≤ 0 then .error (.valueError "reference price must be positive") else .ok (distanceBps a b)

/-- The reason, when its condition holds. -/
def reasonIf (c : Prop) [Decidable c] (reason : String) : List String :=
  if c then [reason] else []

omit [PyStr] in
theorem reasonIf_eq_nil_iff {c : Prop} [Decidable c] {reason : String} :
    reasonIf c reason = [] ↔ ¬ c := by
  by_cases h : c <;> simp [reasonIf, h]

/-- The `REDUCE_ONLY_*` reason of an intent against a position. -/
def reduceOnlyReasons (intent : OrderIntent) (pos : ℚ) : List String :=
  if !intent.reduceOnly then []
  else if pos = 0 then ["REDUCE_ONLY_FLAT"]
  else if 0 < pos ∧ upper intent.side ≠ "SELL" then ["REDUCE_ONLY_SIDE"]
  else if pos < 0 ∧ upper intent.side ≠ "BUY" then ["REDUCE_ONLY_SIDE"]
  else if absolute pos < intent.quantity then ["REDUCE_ONLY_CROSS_ZERO"]
  else []

/-- `int((now-reference_time).total_seconds()*1000)`, with the roundings of its floats. -/
def ageMillis (micros : ℤ) : ℤ :=
  Python.toInt (Python.binary64 (Python.totalSeconds micros * 1000))

def evaluatePretrade (intent : OrderIntent) (limits : PreTradeLimits) (ctx : PreTradeContext)
    (now : ℤ) : Except Exc PreTradeDecision := do
  raiseIf (ctx.referenceTime.aware = false)
    (.valueError "reference_time must be timezone-aware")
  let ageMs := max 0 (ageMillis (now - ctx.referenceTime.micros))
  let qty := intent.quantity
  let side := upper intent.side
  let px := intent.price.getD ctx.referencePrice
  let orderNotional := absolute (fix (qty * px))
  let sideSign : ℚ := if side = "BUY" then 1 else -1
  let resultingQty := fix (ctx.currentPositionQty + fix (sideSign * qty))
  let resultingNotional := absolute (fix (resultingQty * ctx.referencePrice))
  let spreadBps := if 0 < ctx.referencePrice then
    some (fix (fix (fix (ctx.ask - ctx.bid) / ctx.referencePrice) * 10000)) else none
  let deviation ← guardBps px ctx.referencePrice
  let reasons :=
    reasonIf (side ≠ "BUY" ∧ side ≠ "SELL") "SIDE_SANITY"
    ++ reasonIf (ctx.tradingStateAllowsNewRisk = false ∧ intent.reduceOnly = false)
        "TRADING_STATE_BLOCKS_NEW_RISK"
    ++ reasonIf (ctx.symbolTrading = false) "SYMBOL_NOT_TRADING"
    ++ reasonIf (limits.maxReferenceAgeMs < ageMs) "STALE_REFERENCE_PRICE"
    ++ reasonIf (qty ≤ 0 ∨ limits.maxQuantity < qty) "MAX_QUANTITY"
    ++ reasonIf (limits.maxOrderNotional < orderNotional) "MAX_ORDER_NOTIONAL"
    ++ reasonIf (limits.maxPositionNotional < resultingNotional ∧ intent.reduceOnly = false)
        "MAX_POSITION_NOTIONAL"
    ++ reasonIf (limits.maxPriceDeviationBps < deviation) "PRICE_COLLAR"
    ++ reasonIf (∀ bps ∈ spreadBps, limits.maxSpreadBps < bps) "SPREAD_LIMIT"
    ++ reasonIf (limits.maxExpectedSlippageBps < ctx.expectedSlippageBps) "SLIPPAGE_LIMIT"
    ++ reasonIf (∃ m ∈ ctx.minPrice, px < m) "EXCHANGE_MIN_PRICE"
    ++ reasonIf (∃ m ∈ ctx.maxPrice, m < px) "EXCHANGE_MAX_PRICE"
    ++ reasonIf (intent.marketType = .SPOT ∧ side = "BUY" ∧ ctx.availableBalance < orderNotional)
        "INSUFFICIENT_AVAILABLE_BALANCE"
    ++ reduceOnlyReasons intent ctx.currentPositionQty
  return {
    allowed := reasons = [], reasons, orderNotional
    resultingPositionNotional := resultingNotional, spreadBps, referenceAgeMs := ageMs }

def requirePretrade (intent : OrderIntent) (limits : PreTradeLimits) (ctx : PreTradeContext)
    (now : ℤ) : Except Exc PreTradeDecision := do
  let decision ← evaluatePretrade intent limits ctx now
  raiseIf (decision.allowed = false)
    (.permissionError ("pre-trade rejected: " ++ ",".intercalate decision.reasons))
  return decision

end Kripto.Execution
