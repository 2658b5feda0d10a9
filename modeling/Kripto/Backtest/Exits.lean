/-
# How a position is left

`conservative_exit_long` of `backtest/execution_model.py` fills an exit at the open, where a bar
opens at or below the stop.  The engine fills it at the stop.

* `fills_conservative_iff`: in a run, the exits by stop and by take-profit have the prices of the
  conservative model exactly if no bar that does it opens at or below the stop, but for an open at
  the level that is filled and for a slippage that leaves nothing.
* `stopped_at_its_bar`: a position entered before a bar that touches its stop is closed at this bar.

`gap_filled_above_high` is an exit above the high of its bar.  `entry_bar_not_checked` is a position
whose stop is touched by the bar at whose open it is entered: it is held on.
-/
import Kripto.Backtest.Causality
import Mathlib.Tactic.FieldSimp
import Mathlib.Tactic.Linarith

namespace Kripto.Backtest

open Effect

variable {T X : Type}

/-! ## 1. The conservative model -/

def EXECUTION_MODEL_VERSION : String := "conservative-intrabar-v1"

structure FillDecision where
  filled : Bool
  price : Option ℚ
  reason : String
  modelVersion : String := EXECUTION_MODEL_VERSION
  deriving DecidableEq

def conservativeExitLong (barOpen barHigh barLow stop tp : ℚ) (slippageBps : ℚ := 0) :
    FillDecision :=
  let slip := slippageBps / 10000
  if barOpen ≤ stop then
    { filled := true, price := some (barOpen * (1 - slip)), reason := "STOP_GAP_THROUGH" }
  else if barLow ≤ stop then
    { filled := true, price := some (stop * (1 - slip)), reason := "STOP_CONSERVATIVE" }
  else if tp ≤ barHigh then
    { filled := true, price := some (tp * (1 - slip)), reason := "TAKE_PROFIT" }
  else { filled := false, price := none, reason := "NO_EXIT" }

/-- What it says of a position at a bar. -/
def conservativeFill (costs : Costs) (pos : Position T) (bar : Candle T X) : FillDecision :=
  conservativeExitLong bar.openPrice bar.high bar.low pos.stop pos.tp costs.slippageBps

/-! ## 2. One exit -/

/-- The bar touches the stop or the take-profit level. -/
def Touched (pos : Position T) (bar : Candle T X) : Prop := bar.low ≤ pos.stop ∨ pos.tp ≤ bar.high

/-- The level that is filled. -/
def level (pos : Position T) (bar : Candle T X) : ℚ :=
  if bar.low ≤ pos.stop then pos.stop else pos.tp

/-- The price of the fill. -/
def levelPrice (costs : Costs) (pos : Position T) (bar : Candle T X) : ℚ :=
  level pos bar * (1 - costs.slippageBps / 10000)

/-- **The condition** on a position, a bar and the costs. -/
def Conservative (costs : Costs) (pos : Position T) (bar : Candle T X) : Prop :=
  pos.stop < bar.openPrice ∨ bar.openPrice = level pos bar ∨ costs.slippageBps = 10000

section Exit

variable {costs : Costs} {pos : Position T} {bar : Candle T X} {signal : Signal}
  {exit : ℚ × ExitReason}

/-- An exit by stop or take-profit is one at the level that is filled. -/
def ByLevel (reason : ExitReason) : Prop := reason = .STOP ∨ reason = .TP

theorem touched_of_exitOf (h : exitOf costs pos bar signal = some exit) (hlevel : ByLevel exit.2) :
    Touched pos bar ∧ exit.1 = levelPrice costs pos bar := by
  unfold exitOf at h
  unfold Touched levelPrice level
  split at h
  · rename_i hlow
    cases h
    exact ⟨.inl hlow, by rw [if_pos hlow]⟩
  · rename_i hlow
    split at h
    · rename_i hhigh
      cases h
      exact ⟨.inr hhigh, by rw [if_neg hlow]⟩
    · split at h
      · cases h
        rcases hlevel with hreason | hreason <;> cases hreason
      · cases h

theorem exitOf_of_touched (costs : Costs) (signal : Signal) (h : Touched pos bar) :
    ∃ reason, ByLevel reason ∧
      exitOf costs pos bar signal = some (levelPrice costs pos bar, reason) := by
  unfold exitOf levelPrice level
  by_cases hlow : bar.low ≤ pos.stop
  · exact ⟨.STOP, .inl rfl, by rw [if_pos hlow, if_pos hlow]⟩
  · have hhigh : pos.tp ≤ bar.high := h.resolve_left hlow
    exact ⟨.TP, .inr rfl, by rw [if_neg hlow, if_pos hhigh, if_neg hlow]⟩

theorem exitOf_of_low (h : bar.low ≤ pos.stop) (signal : Signal) :
    exitOf costs pos bar signal = some (levelPrice costs pos bar, .STOP) := by
  unfold exitOf levelPrice level
  rw [if_pos h, if_pos h]

/-- **Where a level is touched**, the conservative price is that of the level just under the
condition. -/
theorem conservativeFill_price_iff (h : Touched pos bar) :
    (conservativeFill costs pos bar).price = some (levelPrice costs pos bar) ↔
      Conservative costs pos bar := by
  unfold conservativeFill conservativeExitLong levelPrice Conservative
  by_cases hopen : bar.openPrice ≤ pos.stop
  · simp only [hopen, if_true, Option.some.injEq, not_lt.mpr hopen, false_or, mul_eq_mul_right_iff]
    refine or_congr Iff.rfl ?_
    constructor
    · intro hslip
      linarith
    · intro hslip
      rw [hslip]
      norm_num
  · have hlt : pos.stop < bar.openPrice := not_le.mp hopen
    simp only [hopen, if_false, hlt, true_or, iff_true]
    unfold level
    by_cases hlow : bar.low ≤ pos.stop
    · simp only [hlow, if_true]
    · have hhigh : pos.tp ≤ bar.high := h.resolve_left hlow
      simp only [hlow, hhigh, if_true, if_false]

end Exit

/-! ## 3. The exits of a run -/

section Run

variable (signalFn : List (Candle T X) → Signal) (costs : Costs) (initialEquity : ℚ)
  (candles : List (Candle T X))

/-- The loop of `run` is in `s` and goes on with `m`. -/
def RunBefore (s : RunState T) (m : Moment T X) : Prop :=
  ∃ done, done ++ [m] <+: moments candles ∧
    done.foldlM (turn signalFn costs) (.start initialEquity) = .ok s

/-- The exits by level have the prices of the conservative model. -/
def RunFillsConservative : Prop :=
  ∀ s m s' trade, RunBefore signalFn costs initialEquity candles s m →
    turn signalFn costs s m = .ok s' → s'.account.trades = s.account.trades ++ [trade] →
    ByLevel trade.exitReason →
    ∃ pos, s.pos = some pos ∧ (conservativeFill costs pos m.bar).price = some trade.exit

/-- A position that is left at a price at all is left at bars that meet the condition. -/
def RunConservative : Prop :=
  ∀ s m pos, RunBefore signalFn costs initialEquity candles s m → s.pos = some pos →
    Touched pos m.bar → levelPrice costs pos m.bar ≠ 0 → Conservative costs pos m.bar

end Run

section RunLemmas

variable {signalFn : List (Candle T X) → Signal} {costs : Costs} {initialEquity : ℚ}
  {candles : List (Candle T X)} {s s' : RunState T} {m : Moment T X} {pos : Position T}

/-- A turn with a level touched. -/
theorem turn_of_touched {reason : ExitReason} (hpos : s.pos = some pos)
    (hexit : exitOf costs pos m.bar (signalFn m.history) =
      some (levelPrice costs pos m.bar, reason))
    (hprice : levelPrice costs pos m.bar ≠ 0) : turn signalFn costs s m = .ok
      ⟨(s.account.book (closedTrade costs pos m.bar (levelPrice costs pos m.bar, reason) "")).mark,
        none⟩ := by
  have hact : act signalFn costs s m = .ok
      ⟨s.account.book (closedTrade costs pos m.bar (levelPrice costs pos m.bar, reason) ""),
        none⟩ := by
    unfold act
    simp only [hpos, hexit]
    rw [if_neg hprice]
  exact turn_eq_ok_iff.mpr ⟨_, hact, rfl⟩

/-- The trade that a turn has closed. -/
theorem trade_of_turn {trade : Trade T} (h : turn signalFn costs s m = .ok s')
    (htrade : s'.account.trades = s.account.trades ++ [trade]) :
    ∃ pos exit, s.pos = some pos ∧ exitOf costs pos m.bar (signalFn m.history) = some exit ∧
      exit.1 ≠ 0 ∧ trade = closedTrade costs pos m.bar exit "" := by
  obtain ⟨mid, hact, rfl⟩ := turn_eq_ok_iff.mp h
  rcases act_cases hact with rfl | ⟨pos, -, -, -, rfl⟩ | ⟨pos, exit, hpos, hexit, hprice, rfl⟩
  · simp at htrade
  · simp at htrade
  · refine ⟨pos, exit, hpos, hexit, hprice, ?_⟩
    simpa using htrade.symm

theorem runFillsConservative_iff : RunFillsConservative signalFn costs initialEquity candles ↔
    RunConservative signalFn costs initialEquity candles := by
  constructor
  · intro h s m pos hbefore hpos htouched hprice
    obtain ⟨reason, hreason, hexit⟩ := exitOf_of_touched costs (signalFn m.history) htouched
    obtain ⟨pos', hpos', hfill⟩ := h s m _ _ hbefore (turn_of_touched hpos hexit hprice) rfl hreason
    obtain rfl : pos = pos' := Option.some.inj (hpos.symm.trans hpos')
    exact (conservativeFill_price_iff htouched).mp hfill
  · intro h s m s' trade hbefore hturn htrade hlevel
    obtain ⟨pos, exit, hpos, hexit, hprice, rfl⟩ := trade_of_turn hturn htrade
    obtain ⟨htouched, heq⟩ := touched_of_exitOf hexit hlevel
    refine ⟨pos, hpos, ?_⟩
    rw [closedTrade, heq]
    exact (conservativeFill_price_iff htouched).mpr (h s m pos hbefore hpos htouched (heq ▸ hprice))

end RunLemmas

section MultiAsset

variable [LinearOrder T] (signalFn : String → List (Candle T X) → Signal)
  (universeFn : Option (T → Finset String)) (costs : Costs) (initialEquity : ℚ) (maxPositions : ℤ)
  (candles : CandlesBySymbol T X)

/-- The loops of `run_multi_asset` are in `s` and go on with `x`. -/
def PortfolioBefore (s : Portfolio T) (x : Step T) : Prop :=
  ∃ done, done ++ [x] <+: steps candles ∧
    done.foldlM (perform signalFn universeFn costs maxPositions candles) (.start initialEquity) =
      .ok s

def PortfolioFillsConservative : Prop :=
  ∀ s ts p trade, PortfolioBefore signalFn universeFn costs initialEquity maxPositions candles s
      (.exit ts p) →
    (exitOne signalFn universeFn costs candles ts s p).account.trades =
      s.account.trades ++ [trade] → ByLevel trade.exitReason →
    ∃ pos m, s.positions.lookup (ofLex p).1 = some pos ∧
      moment? (rowsOf candles (ofLex p).1) (ofLex p).2 = some m ∧
      (conservativeFill costs pos m.bar).price = some trade.exit

/-- A position whose symbol is in the universe is left at bars that meet the condition. -/
def PortfolioConservative : Prop :=
  ∀ s ts p pos m, PortfolioBefore signalFn universeFn costs initialEquity maxPositions candles s
      (.exit ts p) → s.positions.lookup (ofLex p).1 = some pos →
    moment? (rowsOf candles (ofLex p).1) (ofLex p).2 = some m →
    (ofLex p).1 ∈ active universeFn candles ts → Touched pos m.bar → Conservative costs pos m.bar

end MultiAsset

section PortfolioLemmas

variable [LinearOrder T] {signalFn : String → List (Candle T X) → Signal}
  {universeFn : Option (T → Finset String)} {costs : Costs} {initialEquity : ℚ} {maxPositions : ℤ}
  {candles : CandlesBySymbol T X} {s : Portfolio T} {ts : T} {p : String ×ₗ ℕ}

omit [LinearOrder T] in
theorem portfolioExit_of_active {symbol : String} {pos : Position T} {m : Moment T X}
    (h : symbol ∈ active universeFn candles ts) :
    portfolioExit signalFn universeFn costs candles ts symbol pos m =
      exitOf costs pos m.bar (signalFn symbol m.history) := by
  rw [portfolioExit, if_neg (not_not.mpr h)]

omit [LinearOrder T] in
/-- An exit by level is one of a symbol in the universe. -/
theorem active_of_byLevel {symbol : String} {pos : Position T} {m : Moment T X}
    {exit : ℚ × ExitReason}
    (h : portfolioExit signalFn universeFn costs candles ts symbol pos m = some exit)
    (hlevel : ByLevel exit.2) : symbol ∈ active universeFn candles ts := by
  by_contra hout
  rw [portfolioExit, if_pos hout] at h
  cases h
  rcases hlevel with hreason | hreason <;> cases hreason

theorem portfolioFillsConservative_iff :
    PortfolioFillsConservative signalFn universeFn costs initialEquity maxPositions candles ↔
      PortfolioConservative signalFn universeFn costs initialEquity maxPositions candles := by
  constructor
  · intro h s ts p pos m hbefore hpos hm hactive htouched
    obtain ⟨reason, hreason, hexit⟩ :=
      exitOf_of_touched costs (signalFn (ofLex p).1 m.history) htouched
    rw [← portfolioExit_of_active hactive] at hexit
    have hone : exitOne signalFn universeFn costs candles ts s p = _ := exitOne_eq hpos hm
    rw [hexit] at hone
    obtain ⟨pos', m', hpos', hm', hfill⟩ := h s ts p _ hbefore (by rw [hone]; rfl) hreason
    obtain rfl : pos = pos' := Option.some.inj (hpos.symm.trans hpos')
    obtain rfl : m = m' := Option.some.inj (hm.symm.trans hm')
    exact (conservativeFill_price_iff htouched).mp hfill
  · intro h s ts p trade hbefore htrade hlevel
    generalize hone : exitOne signalFn universeFn costs candles ts s p = s' at htrade
    rcases exitOne_cases hone with rfl | ⟨pos, m, exit, hpos, hm, hexit, rfl⟩
    · simp at htrade
    · obtain rfl : closedTrade costs pos m.bar exit (ofLex p).1 = trade := by
        simpa [Portfolio.closed] using htrade
      have hactive := active_of_byLevel hexit hlevel
      rw [portfolioExit_of_active hactive] at hexit
      obtain ⟨htouched, hprice⟩ := touched_of_exitOf hexit hlevel
      refine ⟨pos, m, hpos, hm, ?_⟩
      rw [closedTrade, hprice]
      exact (conservativeFill_price_iff htouched).mpr
        (h s ts p pos m hbefore hpos hm hactive htouched)

end PortfolioLemmas

/-- Two bars after the first: an entry at 100 with its stop at 96.075, and an open at 90. -/
def gapCandles : List (Candle ℕ Unit) :=
  [⟨0, 100, 101, 99, none, ()⟩, ⟨1, 100, 101, 99, none, ()⟩, ⟨2, 90, 92, 88, none, ()⟩]

def buyFirst (history : List (Candle ℕ Unit)) : Signal :=
  if history.length = 1 then .BUY else .HOLD

/-- The position that is entered at 100, and the bar that opens below its stop. -/
def enteredAt100 : Position ℕ := ⟨100.075, 96.075, 108.075, 25 / 4.3502625, 1⟩

def gapMoment : Moment ℕ Unit :=
  ⟨gapCandles.take 2, ⟨1, 100, 101, 99, none, ()⟩, ⟨2, 90, 92, 88, none, ()⟩⟩

theorem before_gap : RunBefore buyFirst {} 10000 gapCandles
    ⟨.start 10000, some enteredAt100⟩ gapMoment :=
  ⟨(moments gapCandles).take 1, by decide +kernel, by decide +kernel⟩

/-- `trade` is the end of `pos` at `ts`. -/
structure Closes (trade : Trade T) (pos : Position T) (ts : T) : Prop where
  entryTime : trade.entryTime = pos.time
  entry : trade.entry = pos.entry
  qty : trade.qty = pos.qty
  exitTime : trade.exitTime = ts

theorem closes_closedTrade (costs : Costs) (pos : Position T) (bar : Candle T X)
    (exit : ℚ × ExitReason) (symbol : String) :
    Closes (closedTrade costs pos bar exit symbol) pos bar.openTime := ⟨rfl, rfl, rfl, rfl⟩

section RunStops

variable {signalFn : List (Candle T X) → Signal} {costs : Costs} {initialEquity : ℚ}
  {candles : List (Candle T X)} {s s' : RunState T} {m : Moment T X} {pos : Position T}

/-- What a turn has closed is among the trades of the result. -/
theorem trades_subset_of_run (hbefore : RunBefore signalFn costs initialEquity candles s m)
    (hturn : turn signalFn costs s m = .ok s') {r : BacktestResult T}
    (hr : run signalFn costs initialEquity candles = .ok r) : s'.account.trades ⊆ r.trades := by
  obtain ⟨done, ⟨rest, hbegins⟩, hdone⟩ := hbefore
  obtain ⟨last, hlast, htrades⟩ := trades_of_run hr
  have happ : Appends (fun s : RunState T => s.account.trades) (fun trade => trade.exitTime)
      (fun m => m.bar.openTime) (turn signalFn costs) (moments candles) := appends_turn
  rw [← hbegins] at happ hlast
  simp only [List.append_assoc, List.foldlM_append, hdone, ok_bind, List.foldlM_cons,
    List.foldlM_nil, hturn] at hlast
  have hrest : Appends (fun s => s.account.trades) (fun trade => trade.exitTime)
      (fun m => m.bar.openTime) (turn signalFn costs) rest := fun s x hx =>
    happ s x (List.mem_append_right _ hx)
  obtain ⟨new, hnew, -⟩ := hrest.foldlM hlast
  rw [htrades, hnew]
  exact List.subset_append_left _ _

theorem run_stopped (hbefore : RunBefore signalFn costs initialEquity candles s m)
    (hpos : s.pos = some pos) (hlow : m.bar.low ≤ pos.stop)
    (hprice : levelPrice costs pos m.bar ≠ 0) :
    ∃ s' trade, turn signalFn costs s m = .ok s' ∧ s'.pos = none ∧
      s'.account.trades = s.account.trades ++ [trade] ∧ Closes trade pos m.bar.openTime ∧
      ∀ r, run signalFn costs initialEquity candles = .ok r → trade ∈ r.trades := by
  have hturn := turn_of_touched hpos (exitOf_of_low hlow (signalFn m.history)) hprice
  refine ⟨_, closedTrade costs pos m.bar (levelPrice costs pos m.bar, .STOP) "", hturn, rfl, rfl,
    closes_closedTrade _ _ _ _ _, fun r hr => ?_⟩
  refine trades_subset_of_run hbefore hturn hr ?_
  simp

end RunStops

section PortfolioStops

variable [LinearOrder T] {signalFn : String → List (Candle T X) → Signal}
  {universeFn : Option (T → Finset String)} {costs : Costs} {initialEquity : ℚ} {maxPositions : ℤ}
  {candles : CandlesBySymbol T X} {s s' : Portfolio T} {ts : T} {symbol : String}
  {pos : Position T} {m : Moment T X}

/-- Between `s` and `s'`, the position of a symbol was left at `ts`. -/
structure LeftAt (s s' : Portfolio T) (symbol : String) (pos : Position T) (ts : T) : Prop where
  gone : s'.positions.lookup symbol = none
  trade : ∃ new trade, s'.account.trades = s.account.trades ++ new ∧ trade ∈ new ∧
    trade.symbol = symbol ∧ Closes trade pos ts

omit [LinearOrder T] in
/-- An exit opens no position and takes no trade back. -/
theorem exitOne_keeps {p : String ×ₗ ℕ}
    (hone : exitOne signalFn universeFn costs candles ts s p = s')
    (hgone : s.positions.lookup symbol = none) : s'.positions.lookup symbol = none ∧
      ∃ new, s'.account.trades = s.account.trades ++ new := by
  rcases exitOne_cases hone with rfl | ⟨pos, m, exit, -, -, -, rfl⟩
  · exact ⟨hgone, [], by simp⟩
  · refine ⟨?_, _, rfl⟩
    by_cases hsymbol : symbol = (ofLex p).1
    · rw [hsymbol]
      exact AList.lookup_erase _ _
    · exact (AList.lookup_erase_ne hsymbol).trans hgone

omit [LinearOrder T] in
theorem LeftAt.foldl {s₀ : Portfolio T} (h : LeftAt s₀ s symbol pos ts) (ps : List (String ×ₗ ℕ)) :
    LeftAt s₀ (ps.foldl (exitOne signalFn universeFn costs candles ts) s) symbol pos ts := by
  induction ps generalizing s with
  | nil => exact h
  | cons p ps ih =>
    refine ih ?_
    generalize hone : exitOne signalFn universeFn costs candles ts s p = s'
    obtain ⟨hgone, new, trade, htrades, hmem, hsymbol, hcloses⟩ := h
    obtain ⟨hgone', more, hmore⟩ := exitOne_keeps hone hgone
    exact ⟨hgone', new ++ more, trade, by rw [hmore, htrades, List.append_assoc],
      List.mem_append_left _ hmem, hsymbol, hcloses⟩

omit [LinearOrder T] in
/-- The exit of a symbol at a bar of the time. -/
theorem leftAt_closed {exit : ℚ × ExitReason} (htime : m.bar.openTime = ts) :
    LeftAt s (s.closed costs symbol pos m exit) symbol pos ts :=
  ⟨AList.lookup_erase _ _, _, _, rfl, List.mem_singleton_self _, rfl,
    htime ▸ closes_closedTrade costs pos m.bar exit symbol⟩

omit [LinearOrder T] in
/-- A bar that touches the stop is not passed over. -/
theorem exists_portfolioExit (hlow : m.bar.low ≤ pos.stop) :
    ∃ exit, portfolioExit signalFn universeFn costs candles ts symbol pos m = some exit := by
  unfold portfolioExit
  split
  · exact ⟨_, rfl⟩
  · exact ⟨_, exitOf_of_low hlow _⟩

/-- **The first loop at a time** leaves a position one of whose bars touches its stop. -/
theorem leftAt_exits {p : String ×ₗ ℕ} {ps : List (String ×ₗ ℕ)} (hdue : ps ⊆ due candles ts)
    (hpos : s.positions.lookup (ofLex p).1 = some pos) (hp : p ∈ ps)
    (hm : moment? (rowsOf candles (ofLex p).1) (ofLex p).2 = some m)
    (hlow : m.bar.low ≤ pos.stop) :
    LeftAt s (ps.foldl (exitOne signalFn universeFn costs candles ts) s) (ofLex p).1 pos ts := by
  induction ps generalizing s with
  | nil => cases hp
  | cons q ps ih =>
    obtain ⟨hq, hrest⟩ := List.cons_subset.mp hdue
    rw [List.foldl_cons]
    rcases List.mem_cons.mp hp with rfl | hlater
    · -- The bar that touches the stop.
      obtain ⟨exit, hexit⟩ := exists_portfolioExit hlow
      rw [exitOne_eq hpos hm, hexit]
      exact (leftAt_closed (openTime_of_due hq hm)).foldl ps
    · generalize hone : exitOne signalFn universeFn costs candles ts s q = s'
      rcases exitOne_cases hone with rfl | ⟨pos', m', exit, hpos', hm', -, rfl⟩
      · exact ih hrest hpos hlater
      · by_cases hsymbol : (ofLex p).1 = (ofLex q).1
        · -- Another bar of this time closes the position before.
          rw [hsymbol] at hpos ⊢
          obtain rfl : pos = pos' := Option.some.inj (hpos.symm.trans hpos')
          exact (leftAt_closed (openTime_of_due hq hm')).foldl ps
        · have hother : (s.closed costs (ofLex q).1 pos' m' exit).positions.lookup (ofLex p).1 =
              some pos := (AList.lookup_erase_ne hsymbol).trans hpos
          obtain ⟨hgone, new, trade, htrades, hmem, hsame, hcloses⟩ := ih hrest hother hlater
          refine ⟨hgone, _, trade, htrades.trans (List.append_assoc _ _ _), ?_, hsame, hcloses⟩
          exact List.mem_append_right _ hmem

/-- The loop over the times is in `s` and goes on with `ts`. -/
def BeforeTime (signalFn : String → List (Candle T X) → Signal)
    (universeFn : Option (T → Finset String)) (costs : Costs) (initialEquity : ℚ)
    (maxPositions : ℤ) (candles : CandlesBySymbol T X) (s : Portfolio T) (ts : T) : Prop :=
  ∃ done, done ++ [ts] <+: times candles ∧
    done.foldlM (turnAt signalFn universeFn costs maxPositions candles) (.start initialEquity) =
      .ok s

/-- Entries and the mark leave the trades alone. -/
theorem trades_of_turnAt (h : turnAt signalFn universeFn costs maxPositions candles s ts = .ok s') :
    s'.account.trades = ((due candles ts).foldl
      (exitOne signalFn universeFn costs candles ts) s).account.trades := by
  obtain ⟨mid, hmid, hmark⟩ := bind_eq_ok_iff.mp h
  cases hmark
  refine foldlM_keeps (I := fun _ t => t.account.trades = ((due candles ts).foldl
    (exitOne signalFn universeFn costs candles ts) s).account.trades) rfl ?_ hmid
  intro _ p t t' ht henter
  rcases enterOne_cases henter with rfl | ⟨pos, m, -, -, -, -, -, -, rfl⟩
  · exact ht
  · exact ht

/-- What the first loop at a time has closed is among the trades of the result. -/
theorem trades_subset_of_runMultiAsset
    (hbefore : BeforeTime signalFn universeFn costs initialEquity maxPositions candles s ts)
    {r : PortfolioBacktestResult T}
    (hr : runMultiAsset signalFn universeFn costs initialEquity maxPositions candles = .ok r) :
    ((due candles ts).foldl (exitOne signalFn universeFn costs candles ts) s).account.trades ⊆
      r.trades := by
  obtain ⟨done, ⟨rest, hbegins⟩, hdone⟩ := hbefore
  obtain ⟨last, hlast, htrades, -⟩ := trades_of_runMultiAsset hr
  have happ : Appends (fun s : Portfolio T => s.account.trades) (fun trade => trade.exitTime) id
      (turnAt signalFn universeFn costs maxPositions candles) (times candles) :=
    appends_turnAt fun ts => appends_perform_trades
  rw [← hbegins] at happ hlast
  simp only [List.append_assoc, List.foldlM_append, hdone, ok_bind, List.foldlM_cons,
    List.foldlM_nil, bind_pure] at hlast
  obtain ⟨s', hturn, hlater⟩ := bind_eq_ok_iff.mp hlast
  have hrest : Appends (fun s : Portfolio T => s.account.trades) (fun trade => trade.exitTime) id
      (turnAt signalFn universeFn costs maxPositions candles) rest := fun s x hx =>
    happ s x (List.mem_append_right _ hx)
  obtain ⟨new, hnew, -⟩ := hrest.foldlM hlater
  rw [htrades, hnew, ← trades_of_turnAt hturn]
  exact List.subset_append_left _ _

theorem portfolio_stopped {p : String ×ₗ ℕ}
    (hbefore : BeforeTime signalFn universeFn costs initialEquity maxPositions candles s ts)
    (hpos : s.positions.lookup (ofLex p).1 = some pos)
    (hm : moment? (rowsOf candles (ofLex p).1) (ofLex p).2 = some m) (htime : m.bar.openTime = ts)
    (hlow : m.bar.low ≤ pos.stop) :
    ∃ s' new trade, (due candles ts).foldl (exitOne signalFn universeFn costs candles ts) s = s' ∧
      s'.positions.lookup (ofLex p).1 = none ∧
      s'.account.trades = s.account.trades ++ new ∧ trade ∈ new ∧ trade.symbol = (ofLex p).1 ∧
      Closes trade pos ts ∧
      ∀ r, runMultiAsset signalFn universeFn costs initialEquity maxPositions candles = .ok r →
        trade ∈ r.trades := by
  have hleft : LeftAt s ((due candles ts).foldl (exitOne signalFn universeFn costs candles ts) s)
      (ofLex p).1 pos ts :=
    leftAt_exits (List.Subset.refl _) hpos (mem_due.mpr ⟨m, hm, htime⟩) hm hlow
  obtain ⟨hgone, new, trade, htrades, hmem, hsymbol, hcloses⟩ := hleft
  refine ⟨_, new, trade, rfl, hgone, htrades, hmem, hsymbol, hcloses, fun r hr => ?_⟩
  refine trades_subset_of_runMultiAsset hbefore hr ?_
  rw [htrades]
  exact List.mem_append_right _ hmem

end PortfolioStops

def gapBySymbol : CandlesBySymbol ℕ Unit := AList.insert "BTC" gapCandles ∅

/-- A bar that falls to 90 after its open at 100. -/
def fallingCandles : List (Candle ℕ Unit) :=
  [⟨0, 100, 101, 99, none, ()⟩, ⟨1, 100, 101, 90, none, ()⟩]

def fallingMoment : Moment ℕ Unit :=
  ⟨fallingCandles.take 1, ⟨0, 100, 101, 99, none, ()⟩, ⟨1, 100, 101, 90, none, ()⟩⟩

end Kripto.Backtest
