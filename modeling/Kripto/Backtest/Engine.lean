/-
# The backtest engine

`backtest/engine.py`: `run` goes through the candles of one symbol, `run_multi_asset` through those
of several, time by time, with one equity.  A position is entered at the open of a bar, with a stop
and a take-profit level, and sized by the equity at that moment.

`Decimal` is exact rational arithmetic, and so is a `float` of the results.  A strategy and a
universe are functions of what they are given; of a signal, the code only asks whether it is `BUY`
or `SELL`.
-/
import Kripto.Effect.Outcome
import Kripto.Effect.Totals
import Mathlib.Algebra.Order.Ring.Rat
import Mathlib.Data.List.Sort
import Mathlib.Data.Prod.Lex
import Mathlib.Data.String.Basic

namespace Kripto.Backtest

open Effect

/-! ## 1. Candles, positions and trades -/

/-- A candle.  `more` is what only a strategy reads. -/
structure Candle (T X : Type) where
  openTime : T
  openPrice : ℚ
  high : ℚ
  low : ℚ
  atr : Option ℚ
  more : X
  deriving DecidableEq

inductive Signal
  | BUY | SELL | HOLD
  deriving DecidableEq, Repr

inductive ExitReason
  | STOP | TP | SIGNAL | UNIVERSE_EXIT
  deriving DecidableEq, Repr

structure Costs where
  riskFraction : ℚ := 1/400
  feeBps : ℚ := 10
  slippageBps : ℚ := 5
  spreadBps : ℚ := 5

structure Position (T : Type) where
  entry : ℚ
  stop : ℚ
  tp : ℚ
  qty : ℚ
  time : T
  deriving DecidableEq

structure Trade (T : Type) where
  entryTime : T
  exitTime : T
  side : String
  qty : ℚ
  entry : ℚ
  exit : ℚ
  fee : ℚ
  slippage : ℚ
  pnl : ℚ
  exitReason : ExitReason
  symbol : String := ""
  deriving DecidableEq

variable {T X : Type}

/-- `Decimal` division. -/
def divide (a b : ℚ) : Except String ℚ :=
  if b = 0 then .error (if a = 0 then "InvalidOperation" else "DivisionByZero") else .ok (a / b)

/-- The position that is entered at the open of `bar`. -/
def enter (costs : Costs) (equity : ℚ) (prev bar : Candle T X) : Except String (Position T) :=
  let entry := bar.openPrice * (1 + (costs.spreadBps / 2 + costs.slippageBps) / 10000)
  let atr := prev.atr.getD (max (prev.high - prev.low) (1/100))
  let stop := entry - atr * 2
  let riskPerUnit := entry - stop +
    entry * (costs.feeBps * 2 + costs.spreadBps + costs.slippageBps * 2) / 10000
  (divide (equity * costs.riskFraction) riskPerUnit).map fun qty =>
    { entry, stop, tp := entry + (entry - stop) * 2, qty, time := bar.openTime }

/-- A sale at the open. -/
def saleAtOpen (costs : Costs) (bar : Candle T X) : ℚ :=
  bar.openPrice * (1 - (costs.spreadBps / 2 + costs.slippageBps) / 10000)

/-- The price and the reason of an exit, as both loops find them. -/
def exitOf (costs : Costs) (pos : Position T) (bar : Candle T X) (signal : Signal) :
    Option (ℚ × ExitReason) :=
  if bar.low ≤ pos.stop then some (pos.stop * (1 - costs.slippageBps / 10000), .STOP)
  else if pos.tp ≤ bar.high then some (pos.tp * (1 - costs.slippageBps / 10000), .TP)
  else if signal = .SELL then some (saleAtOpen costs bar, .SIGNAL)
  else none

def closedTrade (costs : Costs) (pos : Position T) (bar : Candle T X) (exit : ℚ × ExitReason)
    (symbol : String) : Trade T :=
  let notional := (pos.entry + exit.1) * pos.qty
  let fee := notional * costs.feeBps / 10000
  { entryTime := pos.time, exitTime := bar.openTime, side := "LONG", qty := pos.qty
    entry := pos.entry, exit := exit.1, fee, slippage := notional * costs.slippageBps / 10000
    pnl := (exit.1 - pos.entry) * pos.qty - fee, exitReason := exit.2, symbol }

/-! ## 2. The account -/

/-- What both loops keep. -/
structure Account (T : Type) where
  equity : ℚ
  peak : ℚ
  maxdd : ℚ
  trades : List (Trade T)
  deriving DecidableEq

namespace Account

def start (initialEquity : ℚ) : Account T := ⟨initialEquity, initialEquity, 0, []⟩

def book (a : Account T) (trade : Trade T) : Account T :=
  { a with equity := a.equity + trade.pnl, trades := a.trades ++ [trade] }

/-- The end of a turn: the peak and the drawdown. -/
def mark (a : Account T) : Account T :=
  let peak := max a.peak a.equity
  { a with peak, maxdd := max a.maxdd (if peak = 0 then 0 else (peak - a.equity) / peak) }

@[simp] theorem book_trades (a : Account T) (trade : Trade T) :
    (a.book trade).trades = a.trades ++ [trade] := rfl

@[simp] theorem book_equity (a : Account T) (trade : Trade T) :
    (a.book trade).equity = a.equity + trade.pnl := rfl

@[simp] theorem mark_trades (a : Account T) : a.mark.trades = a.trades := rfl

@[simp] theorem mark_equity (a : Account T) : a.mark.equity = a.equity := rfl

end Account

/-! ## 3. Moments -/

/-- What is read at one bar. -/
structure Moment (T X : Type) where
  history : List (Candle T X)
  prev : Candle T X
  bar : Candle T X
  deriving DecidableEq

/-- `candles[:i]`, `candles[i-1]` and `candles[i]`, for an `i` in `range(1, len(candles))`. -/
def moment? (candles : List (Candle T X)) (i : ℕ) : Option (Moment T X) :=
  if i = 0 then none
  else match candles[i - 1]?, candles[i]? with
    | some prev, some bar => some ⟨candles.take i, prev, bar⟩
    | _, _ => none

def moments (candles : List (Candle T X)) : List (Moment T X) :=
  (List.range candles.length).filterMap (moment? candles)

/-! ## 4. `run` -/

structure BacktestResult (T : Type) where
  trades : List (Trade T)
  totalReturn : ℚ
  maxDrawdown : ℚ
  winRate : ℚ
  /-- `none` is `float('inf')` -/
  profitFactor : Option ℚ
  expectancy : ℚ
  deriving DecidableEq

structure RunState (T : Type) where
  account : Account T
  pos : Option (Position T)
  deriving DecidableEq

section Run

variable (signalFn : List (Candle T X) → Signal) (costs : Costs) (initialEquity : ℚ)

/-- The body of the loop up to the drawdown. -/
def act (s : RunState T) (m : Moment T X) : Except String (RunState T) :=
  match s.pos with
  | none =>
    if signalFn m.history = .BUY then
      (enter costs s.account.equity m.prev m.bar).map fun pos => { s with pos := some pos }
    else .ok s
  | some pos => match exitOf costs pos m.bar (signalFn m.history) with
    -- `if exit_price`: a price of zero does not count.
    | some exit => if exit.1 = 0 then .ok s
      else .ok ⟨s.account.book (closedTrade costs pos m.bar exit ""), none⟩
    | none => .ok s

def turn (s : RunState T) (m : Moment T X) : Except String (RunState T) :=
  (act signalFn costs s m).map fun s => { s with account := s.account.mark }

def RunState.start (initialEquity : ℚ) : RunState T := ⟨.start initialEquity, none⟩

def summary (initialEquity : ℚ) (a : Account T) : Except String (BacktestResult T) := do
  let pnls := a.trades.map (·.pnl)
  let wins := pnls.filter (0 < ·)
  let losses := pnls.filter (· < 0)
  let totalReturn ← divide (a.equity - initialEquity) initialEquity
  return {
    trades := a.trades, totalReturn, maxDrawdown := a.maxdd
    winRate := if pnls = [] then 0 else wins.length / pnls.length
    profitFactor := if losses ≠ [] then some (wins.sum / |losses.sum|)
      else if wins ≠ [] then none else some 0
    expectancy := if pnls = [] then 0 else pnls.sum / pnls.length }

def run (candles : List (Candle T X)) : Except String (BacktestResult T) := do
  let s ← (moments candles).foldlM (turn signalFn costs) (.start initialEquity)
  summary initialEquity s.account

end Run

/-! ## 5. `run_multi_asset` -/

structure PortfolioBacktestResult (T : Type) where
  trades : List (Trade T)
  equityCurve : List (T × ℚ)
  totalReturn : ℚ
  maxDrawdown : ℚ
  fees : ℚ
  slippage : ℚ
  symbolsTraded : List String
  deriving DecidableEq

abbrev CandlesBySymbol (T X : Type) : Type := Table String (List (Candle T X))

/-- `sorted(xs)` -/
def sorted {A : Type} [LinearOrder A] (xs : List A) : List A := xs.insertionSort (· ≤ ·)

/-- The candles of a symbol. -/
def rowsOf (candles : CandlesBySymbol T X) (symbol : String) : List (Candle T X) :=
  (candles.lookup symbol).getD []

/-- What is appended to the lists of `by_time`: a time, a symbol and an index. -/
def entries (candles : CandlesBySymbol T X) : List (T × (String ×ₗ ℕ)) :=
  candles.entries.flatMap fun e => (List.range e.2.length).filterMap fun i =>
    (moment? e.2 i).map fun m => (m.bar.openTime, toLex (e.1, i))

structure Portfolio (T : Type) where
  account : Account T
  positions : Table String (Position T)
  curve : List (T × ℚ)

section MultiAsset

variable [LinearOrder T]

/-- `sorted(by_time)` -/
def times (candles : CandlesBySymbol T X) : List T := sorted ((entries candles).map (·.1)).dedup

/-- `sorted(by_time[ts])` -/
def due (candles : CandlesBySymbol T X) (ts : T) : List (String ×ₗ ℕ) :=
  sorted (((entries candles).filter fun e => e.1 = ts).map (·.2))

variable (signalFn : String → List (Candle T X) → Signal) (universeFn : Option (T → Finset String))
  (costs : Costs) (initialEquity : ℚ) (maxPositions : ℤ) (candles : CandlesBySymbol T X)

def active (ts : T) : Finset String :=
  match universeFn with
  | none => candles.keys.toFinset
  | some members => members ts

/-- The first loop at a time: exits. -/
def exitOne (ts : T) (s : Portfolio T) (p : String ×ₗ ℕ) : Portfolio T :=
  let (symbol, i) := ofLex p
  match s.positions.lookup symbol, moment? (rowsOf candles symbol) i with
  | some pos, some m =>
    let exit := if symbol ∉ active universeFn candles ts
      then some (saleAtOpen costs m.bar, ExitReason.UNIVERSE_EXIT)
      else exitOf costs pos m.bar (signalFn symbol m.history)
    match exit with
    | some exit => { s with
        account := s.account.book (closedTrade costs pos m.bar exit symbol)
        positions := s.positions.erase symbol }
    | none => s
  | _, _ => s

/-- The second loop at a time: entries. -/
def enterOne (ts : T) (s : Portfolio T) (p : String ×ₗ ℕ) : Except String (Portfolio T) :=
  let (symbol, i) := ofLex p
  if symbol ∈ s.positions ∨ symbol ∉ active universeFn candles ts ∨
      maxPositions ≤ s.positions.entries.length then .ok s
  else match moment? (rowsOf candles symbol) i with
    | none => .ok s
    | some m =>
      if signalFn symbol m.history ≠ .BUY then .ok s
      else (enter costs s.account.equity m.prev m.bar).map fun pos =>
        { s with positions := s.positions.insert symbol pos }

def markAt (ts : T) (s : Portfolio T) : Portfolio T :=
  { s with account := s.account.mark, curve := s.curve ++ [(ts, s.account.equity)] }

/-- The body of the loop over the times. -/
def turnAt (s : Portfolio T) (ts : T) : Except String (Portfolio T) := do
  let s := (due candles ts).foldl (exitOne signalFn universeFn costs candles ts) s
  let s ← (due candles ts).foldlM (enterOne signalFn universeFn costs maxPositions candles ts) s
  return markAt ts s

def Portfolio.start (initialEquity : ℚ) : Portfolio T := ⟨.start initialEquity, ∅, []⟩

/-- The symbols one of whose candles has the time of an entry. -/
def symbolsTraded (trades : List (Trade T)) : List String :=
  sorted (candles.keys.filter fun symbol =>
    trades.any fun t => (rowsOf candles symbol).any fun row => row.openTime = t.entryTime)

def portfolioSummary (s : Portfolio T) : Except String (PortfolioBacktestResult T) := do
  let totalReturn ← divide (s.account.equity - initialEquity) initialEquity
  return {
    trades := s.account.trades, equityCurve := s.curve, totalReturn
    maxDrawdown := s.account.maxdd, fees := (s.account.trades.map (·.fee)).sum
    slippage := (s.account.trades.map (·.slippage)).sum
    symbolsTraded := symbolsTraded candles s.account.trades }

def runMultiAsset : Except String (PortfolioBacktestResult T) := do
  let s ← (times candles).foldlM (turnAt signalFn universeFn costs maxPositions candles)
    (.start initialEquity)
  portfolioSummary initialEquity candles s

end MultiAsset

end Kripto.Backtest
