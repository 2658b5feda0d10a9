/-
# Orders, their states, and the transition table

The data of `core/enums.py` and `exchange/models.py` that the execution path reads, and
`execution/state.py`: which order states may follow which.  A `Decimal` is a rational here; `str` is
`String`.  Python's `str.upper` is a parameter (`PyStr`), since the execution path only ever compares
upper-cased texts with each other, and so is what the context of `decimal` makes of a result.
-/
import Kripto.Python.Rounding
import Mathlib.Data.Rat.Defs
import Mathlib.Logic.Relation

namespace Kripto.Execution

/-! ## 1. Texts, exceptions -/

/-- The Python runtime: a function of texts, and the context of its `Decimal`s. -/
class PyStr extends Python.DecimalContext where
  upper : String → String

/-- `str.upper` on ASCII texts. -/
def asciiUpper (s : String) : String := String.ofList (s.toList.map Char.toUpper)

/-- The runtime of concrete inputs: ASCII texts, and the default context. -/
abbrev asciiStr : PyStr := { Python.defaultContext with upper := asciiUpper }

/-- The same, with `Decimal`s taken as exact. -/
abbrev exactStr : PyStr := { Python.exactDecimals with upper := asciiUpper }

/-- The exceptions the execution path raises or lets through.  `other` is any class it neither
raises nor catches itself: `ExchangeRateLimited`, an HTTP status error, `KeyError`, ... -/
inductive Exc
  | permissionError (msg : String)
  | valueError (msg : String)
  | lookupError (msg : String)
  | zeroDivisionError (msg : String)
  | integrityError
  | databaseError
  | ambiguousExecution
  | timeoutError
  | other (name : String)
  deriving DecidableEq, Repr

/-! ## 2. Enumerations -/

inductive TradingMode
  | BACKTEST | PAPER | TESTNET | LIVE | LIVE_SHADOW
  deriving DecidableEq, Repr

inductive MarketType
  | SPOT | PERPETUAL
  deriving DecidableEq, Repr

inductive OrderState
  | CREATED | SUBMITTED | ACKNOWLEDGED | PARTIALLY_FILLED | FILLED
  | CANCEL_PENDING | CANCELLED | REJECTED | FAILED | UNKNOWN
  deriving DecidableEq, Repr

/-- The text of an order state, as the database column and messages have it. -/
def OrderState.value : OrderState → String
  | CREATED => "CREATED"
  | SUBMITTED => "SUBMITTED"
  | ACKNOWLEDGED => "ACKNOWLEDGED"
  | PARTIALLY_FILLED => "PARTIALLY_FILLED"
  | FILLED => "FILLED"
  | CANCEL_PENDING => "CANCEL_PENDING"
  | CANCELLED => "CANCELLED"
  | REJECTED => "REJECTED"
  | FAILED => "FAILED"
  | UNKNOWN => "UNKNOWN"

/-! ## 3. The transition table -/

open OrderState in
/-- `ALLOWED.get(current, set())`: the states that may follow. -/
def ALLOWED : OrderState → List OrderState
  | CREATED => [SUBMITTED, REJECTED, FAILED]
  | SUBMITTED => [ACKNOWLEDGED, PARTIALLY_FILLED, FILLED, REJECTED, FAILED, UNKNOWN]
  | ACKNOWLEDGED => [PARTIALLY_FILLED, FILLED, CANCEL_PENDING, CANCELLED, REJECTED, UNKNOWN]
  | PARTIALLY_FILLED => [PARTIALLY_FILLED, FILLED, CANCEL_PENDING, CANCELLED, UNKNOWN]
  | CANCEL_PENDING => [CANCELLED, PARTIALLY_FILLED, FILLED, UNKNOWN]
  | UNKNOWN => [ACKNOWLEDGED, PARTIALLY_FILLED, FILLED, CANCELLED, REJECTED, FAILED]
  | FILLED => []
  | CANCELLED => []
  | REJECTED => []
  | FAILED => []

def transition (current new : OrderState) : Except Exc OrderState :=
  if current = new then .ok new
  else if new ∉ ALLOWED current then
    .error (.valueError ("illegal order transition " ++ current.value ++ "->" ++ new.value))
  else .ok new

/-- What `transition` accepts. -/
def Legal (current new : OrderState) : Prop := new = current ∨ new ∈ ALLOWED current

instance (current new : OrderState) : Decidable (Legal current new) :=
  inferInstanceAs (Decidable (_ ∨ _))

theorem transition_eq_ok_iff (current new : OrderState) :
    transition current new = .ok new ↔ Legal current new := by
  unfold transition Legal
  split
  · rename_i h; simp [h]
  · split
    · rename_i hne hnot; simp [hnot, Ne.symm hne]
    · rename_i hne hin; simp only [not_not] at hin; simp [hin]

/-- The states nothing may follow. -/
def OrderState.Terminal (st : OrderState) : Prop := ALLOWED st = []

instance (st : OrderState) : Decidable st.Terminal := inferInstanceAs (Decidable (_ = _))

/-- Any number of steps along the table. -/
def Advances : OrderState → OrderState → Prop :=
  Relation.ReflTransGen fun current new => new ∈ ALLOWED current

/-- **A terminal state is final along the table**, however many steps are taken. -/
theorem Advances.eq_of_terminal {st st' : OrderState} (h : Advances st st')
    (ht : st.Terminal) : st' = st := by
  induction h with
  | refl => rfl
  | tail _ hstep ih =>
    rw [ih, OrderState.Terminal.eq_1 st |>.mp ht] at hstep
    exact absurd hstep List.not_mem_nil

/-! ## 4. Instruments, intents, records -/

structure SymbolFilters where
  tickSize : ℚ
  stepSize : ℚ
  minQty : ℚ
  maxQty : ℚ
  minNotional : ℚ
  maxNotional : Option ℚ
  maxOrders : Option ℤ
  deriving DecidableEq

structure Capabilities where
  market : Bool := true
  limit : Bool := true
  stop : Bool := false
  takeProfit : Bool := false
  trailingStop : Bool := false
  oco : Bool := false
  postOnly : Bool := false
  reduceOnly : Bool := false
  clientOrderId : Bool := true
  testnet : Bool := true
  privateStream : Bool := true
  stpModes : List String := []
  timeInForce : List String := ["GTC", "IOC", "FOK"]
  deriving DecidableEq

structure OrderIntent where
  intentId : String
  accountId : String
  symbol : String
  side : String
  orderType : String
  quantity : ℚ
  price : Option ℚ := none
  stopPrice : Option ℚ := none
  marketType : MarketType := .SPOT
  strategyId : String := "default"
  reduceOnly : Bool := false
  clientOrderId : Option String := none
  deriving DecidableEq

structure OrderRecord where
  intentId : String
  accountId : String
  symbol : String
  side : String
  orderType : String
  quantity : ℚ
  state : OrderState := .CREATED
  price : Option ℚ := none
  stopPrice : Option ℚ := none
  exchangeOrderId : Option String := none
  clientOrderId : Option String := none
  deriving DecidableEq

/-- `a or b` on an optional text: `None` and the empty text are both false. -/
def orText : Option String → String → String
  | some x, y => if x = "" then y else x
  | none, y => y

/-- A fallback that has been taken is not taken again. -/
theorem orText_orText (text : Option String) (fallback : String) :
    orText (some (orText text fallback)) fallback = orText text fallback := by
  by_cases h : orText text fallback = ""
  · have hfallback : fallback = "" := by
      cases text with
      | none => exact h
      | some x => by_cases hx : x = "" <;> simp_all [orText]
    rw [h, hfallback]
    rfl
  · rw [orText, if_neg h]

end Kripto.Execution
