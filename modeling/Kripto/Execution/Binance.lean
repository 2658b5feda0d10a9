/-
# The orders of `BinanceSpotAdapter`

`submit_order`, `get_order` and `_map_order` of `exchange/binance.py`.  A response is a JSON
object that may lack any of its fields; what is missing is taken from the intent, when there is
one at hand.  The number fields of a response are texts, as the API sends them.

The API behind the adapter is an arbitrary state machine (`BinanceApi`).  What `_request` makes of
a failed call -- `AmbiguousExecution`, `ExchangeRateLimited`, an HTTP error -- is one of its
answers.
-/
import Kripto.Execution.Ledger

namespace Kripto.Execution

open PyStr

/-! ## 1. Responses -/

/-- The texts Python's `Decimal` takes, and the numbers it makes of them. -/
class PyDecimal where
  number : String → Option ℚ

/-- `Decimal(text)`. -/
def decimal [PyDecimal] (text : String) : Except Exc ℚ :=
  match PyDecimal.number text with
  | some q => .ok q
  | none => .error (.other "InvalidOperation")

/-- An order in a response.  A field is absent or `null` (`none`), or has a value; `executedQty`
tells the two apart. -/
structure OrderResponse where
  symbol : Option String := none
  status : Option String := none
  type : Option String := none
  side : Option String := none
  origQty : Option String := none
  price : Option String := none
  stopPrice : Option String := none
  orderId : Option ℤ := none
  clientOrderId : Option String := none
  executedQty : Option (Option String) := none

/-- The required fields a response does not have. -/
def OrderResponse.missing (x : OrderResponse) : List String :=
  [("symbol", x.symbol), ("status", x.status), ("type", x.type), ("side", x.side),
    ("origQty", x.origQty)].filterMap fun (key, value) =>
      if value = none then some key else none

/-- The state an order status stands for. -/
def stateOf : Option String → OrderState
  | some "NEW" => .ACKNOWLEDGED
  | some "PARTIALLY_FILLED" => .PARTIALLY_FILLED
  | some "FILLED" => .FILLED
  | some "CANCELED" => .CANCELLED
  | some "REJECTED" => .REJECTED
  | some "EXPIRED" => .FAILED
  | _ => .UNKNOWN

/-! ## 2. `_map_order` -/

/-- `x.get(key) or fallback.field`.  Without a fallback there is no `field` to look at. -/
def orField (value : Option String) (field : Option String) : Except Exc String :=
  match field with
  | some field => .ok (orText value field)
  | none =>
    if orText value "" = "" then .error (.other "AttributeError") else .ok (orText value "")

section

variable [PyDecimal]

/-- `Decimal(x.get("origQty") or fallback.quantity)`. -/
def orQuantity (value : Option String) (quantity : Option ℚ) : Except Exc ℚ :=
  if orText value "" = "" then
    match quantity with
    | some quantity => .ok quantity
    | none => .error (.other "AttributeError")
  else decimal (orText value "")

/-- `Decimal(x[key]) if x.get(key) else fallback.field if fallback else None`. -/
def orPrice (value : Option String) (field : Option ℚ) : Except Exc (Option ℚ) :=
  if orText value "" = "" then .ok field else (decimal (orText value "")).map some

/-- `Decimal(x.get("executedQty", "0"))`: a `null` is no number. -/
def executed : Option (Option String) → Except Exc ℚ
  | none => .ok 0
  | some none => .error (.other "TypeError")
  | some (some value) => decimal value

def mapOrder (x : OrderResponse) (fallback : Option OrderIntent) : Except Exc OrderRecord := do
  raiseIf (fallback = none ∧ x.missing ≠ [])
    (.valueError ("required order field missing: " ++ ",".intercalate x.missing))
  let symbol ← orField x.symbol (fallback.map (·.symbol))
  let side ← orField x.side (fallback.map (·.side))
  let orderType ← orField x.type (fallback.map (·.orderType))
  let quantity ← orQuantity x.origQty (fallback.map (·.quantity))
  let price ← orPrice x.price (fallback.bind (·.price))
  let stopPrice ← orPrice x.stopPrice (fallback.bind (·.stopPrice))
  let _ ← executed x.executedQty
  return {
    intentId := orText x.clientOrderId (fallback.elim "" (·.intentId))
    accountId := fallback.elim "binance" (·.accountId)
    symbol, side, orderType, quantity
    state := stateOf x.status
    price, stopPrice
    exchangeOrderId := x.orderId.map toString
    clientOrderId := x.clientOrderId }

variable {x : OrderResponse} {record : OrderRecord}

/-- **Whom a mapped record is of**: the client id, or else the intent, names it. -/
theorem mapOrder_eq_ok {fallback : Option OrderIntent} (h : mapOrder x fallback = .ok record) :
    record.intentId = orText x.clientOrderId (fallback.elim "" (·.intentId)) ∧
      record.accountId = fallback.elim "binance" (·.accountId) ∧
      orField x.symbol (fallback.map (·.symbol)) = .ok record.symbol ∧
      orField x.side (fallback.map (·.side)) = .ok record.side := by
  obtain ⟨_, -, h⟩ := bind_eq_ok h
  obtain ⟨symbol, hsymbol, h⟩ := bind_eq_ok h
  obtain ⟨side, hside, h⟩ := bind_eq_ok h
  obtain ⟨orderType, -, h⟩ := bind_eq_ok h
  obtain ⟨quantity, -, h⟩ := bind_eq_ok h
  obtain ⟨price, -, h⟩ := bind_eq_ok h
  obtain ⟨stopPrice, -, h⟩ := bind_eq_ok h
  obtain ⟨_, -, h⟩ := bind_eq_ok h
  obtain rfl := Except.ok.inj h
  exact ⟨rfl, rfl, hsymbol, hside⟩

end

/-! ## 3. Requests -/

/-- The parameters of an order.  Prices and quantities stand for their texts. -/
structure OrderParams where
  symbol : String
  side : String
  type : String
  quantity : ℚ
  newClientOrderId : String
  price : Option ℚ
  stopPrice : Option ℚ

/-- How an order is looked up. -/
inductive OrderKey
  | orderId (id : String)
  | origClientOrderId (id : String)

structure QueryParams where
  symbol : String
  key : OrderKey

def submitParams [PyStr] (intent : OrderIntent) (cap : Capabilities) : Except Exc OrderParams := do
  raiseIf (supportedType cap (upper intent.orderType) = false) (.other "UnsupportedCapability")
  return {
    symbol := intent.symbol
    side := intent.side
    type := upper intent.orderType
    quantity := intent.quantity
    newClientOrderId := orText intent.clientOrderId intent.intentId
    price := intent.price
    stopPrice := intent.stopPrice }

def queryParams (query : OrderQuery) : Except Exc QueryParams :=
  if orText query.orderId "" = "" then do
    raiseIf (orText query.clientOrderId "" = "")
      (.valueError "order_id or client_order_id required")
    return ⟨query.symbol, .origClientOrderId (orText query.clientOrderId "")⟩
  else .ok ⟨query.symbol, .orderId (orText query.orderId "")⟩

/-! ## 4. The adapter -/

/-- The API: the answers it can give in each of its states, and the state it is in after. -/
structure BinanceApi (ε : Type) where
  capabilities : String → ε → Except Exc Capabilities → ε → Prop
  post : OrderParams → ε → Except Exc OrderResponse → ε → Prop
  get : QueryParams → ε → Except Exc OrderResponse → ε → Prop

section

variable {ε : Type} [PyStr] (api : BinanceApi ε)

/-- The response to an order, or why there is none. -/
def BinanceApi.Places (intent : OrderIntent) (e : ε) (reply : Except Exc OrderResponse) (e' : ε) :
    Prop :=
  ∃ cap e₁, api.capabilities intent.symbol e cap e₁ ∧
    match cap >>= submitParams intent with
    | .ok params => api.post params e₁ reply e'
    | .error exc => reply = .error exc ∧ e' = e₁

omit [PyStr] in
/-- The response to a query, or why there is none. -/
def BinanceApi.LooksUp (query : OrderQuery) (e : ε) (reply : Except Exc OrderResponse) (e' : ε) :
    Prop :=
  match queryParams query with
  | .ok params => api.get params e reply e'
  | .error exc => reply = .error exc ∧ e' = e

variable [PyDecimal]

/-- What `submit_order` makes of a response. -/
def submitted (intent : OrderIntent) (reply : Except Exc OrderResponse) : Except Exc OrderRecord :=
  reply >>= fun x => mapOrder x (some intent)

/-- What `get_order` makes of one. -/
def found (reply : Except Exc OrderResponse) : Except Exc (Option OrderRecord) :=
  (reply >>= fun x => mapOrder x none).map some

/-- **The adapter**, as an exchange. -/
def binance : Exchange ε where
  submit intent e r e' := ∃ reply, api.Places intent e reply e' ∧ r = submitted intent reply
  get _ query e r e' := ∃ reply, api.LooksUp query e reply e' ∧ r = found reply

end

end Kripto.Execution
