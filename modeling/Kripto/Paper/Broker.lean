/-
# The paper broker

`paper/engine.py`: a simulator of market fills with one position a symbol, a stop and three
take-profit levels.  The broker and its positions are changed in place, so a method that raises
leaves what it has done so far; each method here returns its answer beside the broker it leaves.
-/
import Kripto.Effect.Totals
import Mathlib.Data.Rat.Defs
import Mathlib.Algebra.Order.Ring.Rat

namespace Kripto.Paper

open Effect

/-! ## 1. Fills and positions -/

inductive Exc
  | valueError (msg : String)
  | runtimeError (msg : String)
  deriving DecidableEq

structure PaperFill where
  side : String
  qty : ℚ
  price : ℚ
  fee : ℚ
  latencyMs : ℤ
  status : String
  reason : String
  deriving DecidableEq

/-- The three take-profit levels. -/
structure TakeProfits where
  first : ℚ
  second : ℚ
  third : ℚ
  deriving DecidableEq

structure PaperPosition where
  symbol : String
  qty : ℚ
  entryPrice : ℚ
  stopLoss : ℚ
  takeProfits : TakeProfits
  remainingQty : ℚ
  realizedPnl : ℚ := 0
  closed : Bool := false
  triggeredTps : Finset ℤ := ∅
  deriving DecidableEq

structure PaperBroker where
  feeBps : ℚ := 10
  slippageBps : ℚ := 5
  fills : List PaperFill := []
  positions : Table String PaperPosition := ∅

namespace PaperBroker

variable (self : PaperBroker)

/-! ## 2. Filling -/

/-- `_fill`.  The caller asks for `requestedQty`, or does not say. -/
def fill (side : String) (qty referencePrice : ℚ) (latencyMs : ℤ) (reason : String)
    (requestedQty : Option ℚ := none) : Except Exc PaperFill × PaperBroker :=
  if qty ≤ 0 ∨ referencePrice ≤ 0 then
    (.error (.valueError "paper fill requires positive quantity and price"), self)
  else
    let slip := referencePrice * self.slippageBps / 10000
    let price := if side = "BUY" then referencePrice + slip else referencePrice - slip
    let made : PaperFill := {
      side, qty, price, fee := price * qty * self.feeBps / 10000, latencyMs
      status := if ∃ requested ∈ requestedQty, qty < requested then "PARTIALLY_FILLED"
        else "FILLED"
      reason }
    (.ok made, { self with fills := self.fills ++ [made] })

def fillMarket (side : String) (qty bid ask : ℚ) (latencyMs : ℤ) (availableQty : Option ℚ) :
    Except Exc PaperFill × PaperBroker :=
  let actual := match availableQty with
    | none => qty
    | some available => min qty available
  if actual ≤ 0 then (.error (.valueError "no executable paper liquidity"), self)
  else self.fill side actual (if side = "BUY" then ask else bid) latencyMs "MARKET" (some qty)

/-- There is a position that is not closed. -/
def hasOpen (symbol : String) : Bool :=
  match self.positions.lookup symbol with
  | some position => !position.closed
  | none => false

def openLong (symbol : String) (qty bid ask stopLoss : ℚ) (takeProfits : TakeProfits)
    (latencyMs : ℤ) (availableQty : Option ℚ := none) :
    Except Exc PaperPosition × PaperBroker :=
  if self.hasOpen symbol then (.error (.valueError "paper position already open"), self)
  else if ¬ (stopLoss < ask ∧ ask < takeProfits.first ∧ takeProfits.first < takeProfits.second ∧
      takeProfits.second < takeProfits.third) then
    (.error (.valueError "invalid long protective levels"), self)
  else match self.fillMarket "BUY" qty bid ask latencyMs availableQty with
    | (.error e, left) => (.error e, left)
    | (.ok made, left) =>
      let position : PaperPosition := {
        symbol, qty := made.qty, entryPrice := made.price, stopLoss, takeProfits
        remainingQty := made.qty }
      (.ok position, { left with positions := left.positions.insert symbol position })

/-! ## 3. Closing -/

/-- A position being sold: the broker, the position, and the fills of this quote. -/
structure Selling where
  broker : PaperBroker
  position : PaperPosition
  generated : List PaperFill

/-- `_close_qty`, with the fill appended to `generated` where it returns. -/
def closeQty (s : Selling) (qty bid : ℚ) (latencyMs : ℤ) (reason : String) :
    Except Exc Unit × Selling :=
  match s.broker.fill "SELL" qty bid latencyMs reason with
  | (.error e, left) => (.error e, { s with broker := left })
  | (.ok made, left) =>
    let gross := (made.price - s.position.entryPrice) * made.qty
    let position : PaperPosition := { s.position with
      realizedPnl := s.position.realizedPnl + (gross - made.fee)
      remainingQty := s.position.remainingQty - made.qty }
    if position.remainingQty < 0 then
      (.error (.runtimeError "paper remaining quantity became negative"),
        { s with broker := left, position })
    else (.ok (), ⟨left, position, s.generated ++ [made]⟩)

/-- The levels with their indices and fractions. -/
def TakeProfits.levels (t : TakeProfits) : List (ℤ × ℚ × ℚ) :=
  [(0, t.first, 3/10), (1, t.second, 3/10), (2, t.third, 4/10)]

/-- What one level sells of a position, if it fires. -/
def levelQty (position : PaperPosition) (index : ℤ) (fraction : ℚ) : ℚ :=
  min (if index = 2 then position.remainingQty else position.qty * fraction)
    position.remainingQty

/-- The loop over the levels. -/
def sellLevels (bid : ℚ) (latencyMs : ℤ) : List (ℤ × ℚ × ℚ) → Selling → Except Exc Unit × Selling
  | [], s => (.ok (), s)
  | (index, level, fraction) :: rest, s =>
    if index ∈ s.position.triggeredTps ∨ bid < level ∨ s.position.remainingQty ≤ 0 then
      sellLevels bid latencyMs rest s
    else
      let triggered : Selling := { s with
        position := { s.position with triggeredTps := insert index s.position.triggeredTps } }
      match closeQty triggered (levelQty s.position index fraction) bid latencyMs
          ("TP" ++ toString (index + 1)) with
      | (.error e, left) => (.error e, left)
      | (.ok (), left) => sellLevels bid latencyMs rest left

/-- The position stops out. -/
def stopOut (bid : ℚ) (latencyMs : ℤ) (s : Selling) : Except Exc Unit × Selling :=
  match closeQty s s.position.remainingQty bid latencyMs "STOP_LOSS" with
  | (.error e, left) => (.error e, left)
  | (.ok (), left) => (.ok (), { left with position := { left.position with closed := true } })

/-- The position takes its profits. -/
def takeProfit (bid : ℚ) (latencyMs : ℤ) (s : Selling) : Except Exc Unit × Selling :=
  match sellLevels bid latencyMs (TakeProfits.levels s.position.takeProfits) s with
  | (.error e, left) => (.error e, left)
  | (.ok (), left) =>
    if left.position.remainingQty ≤ 0 then
      (.ok (), { left with position := { left.position with closed := true } })
    else (.ok (), left)

/-- The broker, with the position it was selling. -/
def Selling.stored (symbol : String) (s : Selling) : PaperBroker :=
  { s.broker with positions := s.broker.positions.insert symbol s.position }

def onQuote (symbol : String) (bid : ℚ) (latencyMs : ℤ) :
    Except Exc (List PaperFill) × PaperBroker :=
  match self.positions.lookup symbol with
  | none => (.ok [], self)
  | some position =>
    if position.closed then (.ok [], self)
    else
      let sold := (if bid ≤ position.stopLoss then stopOut else takeProfit) bid latencyMs
        ⟨self, position, []⟩
      (sold.1.map fun _ => sold.2.generated, Selling.stored symbol sold.2)

end PaperBroker

end Kripto.Paper
