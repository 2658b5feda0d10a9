/-
# Strategy sleeves

`execution/sleeves.py`: the lots of an account, each with the strategy that owns it.  The methods
change the lots in place, so each returns its answer beside the book it leaves.  `Decimal` is exact
rational arithmetic, `upper` is `str.upper`, and the id that `uuid4` gives a lot is an argument.
-/
import Kripto.Execution.Order
import Mathlib.Algebra.Order.Ring.Rat

namespace Kripto.Execution.Sleeves

/-! ## 1. Lots -/

inductive PositionSide
  | LONG | SHORT
  deriving DecidableEq, Repr

inductive NettingPolicy
  | FIFO_PER_STRATEGY | REJECT_CROSS_STRATEGY_EXIT
  deriving DecidableEq, Repr

/-- `PositionSide(text)` -/
def positionSide (text : String) : Except Exc PositionSide :=
  if text = "LONG" then .ok .LONG
  else if text = "SHORT" then .ok .SHORT
  else .error (.valueError ("'" ++ text ++ "' is not a valid PositionSide"))

def PositionSide.opposite : PositionSide → PositionSide
  | LONG => SHORT
  | SHORT => LONG

def PositionSide.signed (side : PositionSide) (quantity : ℚ) : ℚ :=
  match side with
  | LONG => quantity
  | SHORT => -quantity

structure StrategyAllocationLot where
  lotId : String
  strategyId : String
  symbol : String
  side : PositionSide
  quantity : ℚ
  entryPrice : ℚ
  sourceOrderId : String
  sourceFillId : String
  fees : ℚ := 0
  funding : ℚ := 0
  realizedPnl : ℚ := 0
  deriving DecidableEq

def StrategyAllocationLot.signedQuantity (lot : StrategyAllocationLot) : ℚ :=
  lot.side.signed lot.quantity

structure SleeveReconciliation where
  symbol : String
  accountNetQuantity : ℚ
  sleeveNetQuantity : ℚ
  consistent : Bool
  deriving DecidableEq

structure StrategySleeveBook where
  nettingPolicy : NettingPolicy := .FIFO_PER_STRATEGY
  hedgingSupported : Bool := false
  ownershipTransferAllowed : Bool := false
  lots : List StrategyAllocationLot := []
  deriving DecidableEq

/-! ## 2. The arguments of the calls -/

/-- The arguments of `allocate_fill`. -/
structure Fill where
  strategyId : String
  symbol : String
  side : String
  quantity : ℚ
  entryPrice : ℚ
  sourceOrderId : String
  sourceFillId : String
  fee : ℚ := 0
  funding : ℚ := 0

/-- The arguments of `close`. -/
structure Exit where
  strategyId : String
  symbol : String
  side : String
  quantity : ℚ
  exitPrice : ℚ
  exitFee : ℚ := 0
  funding : ℚ := 0

namespace StrategySleeveBook

variable (upper : String → String) (self : StrategySleeveBook)

/-! ## 3. `allocate_fill` -/

def allocateFill (lotId : String) (fill : Fill) :
    Except Exc StrategyAllocationLot × StrategySleeveBook :=
  if fill.strategyId = "" ∨ fill.symbol = "" ∨ fill.sourceOrderId = "" ∨ fill.sourceFillId = "" then
    (.error (.valueError "entry/fill attribution identifiers are required"), self)
  else if fill.quantity ≤ 0 ∨ fill.entryPrice ≤ 0 then
    (.error (.valueError "quantity and entry price must be positive"), self)
  else match positionSide (upper fill.side) with
    | .error e => (.error e, self)
    | .ok side =>
      if ¬ self.hedgingSupported ∧ ∃ lot ∈ self.lots,
          lot.symbol = upper fill.symbol ∧ 0 < lot.quantity ∧ lot.side = side.opposite then
        (.error (.valueError "hedging conflict for account/symbol"), self)
      else
        let lot : StrategyAllocationLot := {
          lotId, strategyId := fill.strategyId, symbol := upper fill.symbol, side
          quantity := fill.quantity, entryPrice := fill.entryPrice
          sourceOrderId := fill.sourceOrderId, sourceFillId := fill.sourceFillId
          fees := fill.fee, funding := fill.funding }
        (.ok lot, { self with lots := self.lots ++ [lot] })

/-! ## 4. `close` -/

/-- `lot in self._open_lots(strategy_id, symbol, side)` -/
def isOpenLot (strategyId symbol : String) (side : PositionSide) (lot : StrategyAllocationLot) :
    Bool :=
  lot.strategyId = strategyId ∧ lot.symbol = upper symbol ∧ lot.side = side ∧ 0 < lot.quantity

/-- The profit of closing a part of a lot, with its share of the fee and the funding. -/
def pnlOf (exit : Exit) (side : PositionSide) (lot : StrategyAllocationLot) (closed : ℚ) : ℚ :=
  side.signed ((exit.exitPrice - lot.entryPrice) * closed) -
    exit.exitFee * (closed / exit.quantity) - exit.funding * (closed / exit.quantity)

def closePart (exit : Exit) (side : PositionSide) (lot : StrategyAllocationLot) (closed : ℚ) :
    StrategyAllocationLot :=
  { lot with
    quantity := lot.quantity - closed
    realizedPnl := lot.realizedPnl + pnlOf exit side lot closed
    fees := lot.fees + exit.exitFee * (closed / exit.quantity)
    funding := lot.funding + exit.funding * (closed / exit.quantity) }

/-- The loop over the candidates, which are changed in their places: the lots after it, and what
it adds to `realized`. -/
def closeLots (exit : Exit) (side : PositionSide) (isCandidate : StrategyAllocationLot → Bool) :
    List StrategyAllocationLot → ℚ → List StrategyAllocationLot × ℚ
  | [], _ => ([], 0)
  | lot :: lots, qtyLeft =>
    if ¬ isCandidate lot then
      let rest := closeLots exit side isCandidate lots qtyLeft
      (lot :: rest.1, rest.2)
    -- `if qty_left <= 0: break`
    else if qtyLeft ≤ 0 then (lot :: lots, 0)
    else
      let closed := min lot.quantity qtyLeft
      let rest := closeLots exit side isCandidate lots (qtyLeft - closed)
      (closePart exit side lot closed :: rest.1, pnlOf exit side lot closed + rest.2)

def close (exit : Exit) : Except Exc ℚ × StrategySleeveBook :=
  match positionSide (upper exit.side) with
  | .error e => (.error e, self)
  | .ok side =>
    if exit.quantity ≤ 0 ∨ exit.exitPrice ≤ 0 then
      (.error (.valueError "close quantity and price must be positive"), self)
    else
      let isCandidate := isOpenLot upper exit.strategyId exit.symbol side
      let available := ((self.lots.filter isCandidate).map (·.quantity)).sum
      if available < exit.quantity then
        (.error (.valueError "strategy cannot exit another strategy's exposure"), self)
      else
        let closed := closeLots exit side isCandidate self.lots exit.quantity
        (.ok closed.2, { self with lots := closed.1 })

/-! ## 5. `transfer_ownership` -/

/-- The first lot with the id gets the strategy. -/
def setStrategy (lotId toStrategy : String) :
    List StrategyAllocationLot → List StrategyAllocationLot
  | [] => []
  | lot :: lots =>
    if lot.lotId = lotId then { lot with strategyId := toStrategy } :: lots
    else lot :: setStrategy lotId toStrategy lots

def transferOwnership (lotId fromStrategy toStrategy : String) :
    Except Exc Unit × StrategySleeveBook :=
  if ¬ self.ownershipTransferAllowed then
    (.error (.permissionError "ownership transfer policy forbids transfer"), self)
  else if ¬ (self.lots.find? (·.lotId = lotId)).any (·.strategyId = fromStrategy) then
    (.error (.valueError "lot ownership mismatch"), self)
  else if toStrategy = "" ∨ toStrategy = fromStrategy then
    (.error (.valueError "invalid target strategy"), self)
  else (.ok (), { self with lots := setStrategy lotId toStrategy self.lots })

/-! ## 6. Positions -/

def strategyVirtualSleeve (strategyId symbol : String) : ℚ :=
  ((self.lots.filter fun lot => lot.strategyId = strategyId ∧ lot.symbol = upper symbol).map
    (·.signedQuantity)).sum

def accountNetPosition (symbol : String) : ℚ :=
  ((self.lots.filter fun lot => lot.symbol = upper symbol).map (·.signedQuantity)).sum

def reconcileAccountNet (symbol : String) (exchangeAccountNetQuantity : ℚ) : SleeveReconciliation :=
  let sleeve := self.accountNetPosition upper symbol
  ⟨upper symbol, exchangeAccountNetQuantity, sleeve, exchangeAccountNetQuantity = sleeve⟩

end StrategySleeveBook

/-! ## 7. Sequences of calls -/

/-- A call.  The first argument of `allocateFill` is the id of the new lot. -/
inductive Call
  | allocateFill (lotId : String) (fill : Fill)
  | close (exit : Exit)
  | transferOwnership (lotId fromStrategy toStrategy : String)

namespace StrategySleeveBook

variable (upper : String → String)

/-- Whether a call raises, and the book it leaves. -/
def perform (self : StrategySleeveBook) : Call → Except Exc Unit × StrategySleeveBook
  | .allocateFill lotId fill =>
    let (answer, book) := self.allocateFill upper lotId fill
    (answer.map fun _ => (), book)
  | .close exit =>
    let (answer, book) := self.close upper exit
    (answer.map fun _ => (), book)
  | .transferOwnership lotId fromStrategy toStrategy =>
    self.transferOwnership lotId fromStrategy toStrategy

/-- The book after some calls, and those of them that have not raised. -/
def play (self : StrategySleeveBook) : List Call → StrategySleeveBook × List Call
  | [] => (self, [])
  | call :: calls =>
    let (answer, book) := self.perform upper call
    let rest := book.play calls
    (rest.1, if answer.isOk then call :: rest.2 else rest.2)

end StrategySleeveBook

end Kripto.Execution.Sleeves
