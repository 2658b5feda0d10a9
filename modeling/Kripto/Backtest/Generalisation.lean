/-
# One symbol in the portfolio engine

`run_multi_asset` with the candles of one symbol, no universe and room for a position goes through
the bars of `run`.  It leaves positions first and enters afterwards, so that at one bar it can do
both; `run` does one of the two.

* `generalises`: the two have the same trades, but for the symbol, the same total return and the
  same drawdown, if no bar at which a position is left has a signal to buy and none is left at a
  price of zero.

`reenters_at_the_bar` is a strategy that always says `BUY`.
-/
import Kripto.Backtest.Exits

namespace Kripto.Backtest

open Effect

variable {T X : Type}

/-! ## 1. The statement -/

/-- The candles of one symbol. -/
def single (symbol : String) (candles : List (Candle T X)) : CandlesBySymbol T X :=
  AList.insert symbol candles ∅

def Trade.unlabelled (trade : Trade T) : Trade T := { trade with symbol := "" }

/-- No bar at which `run` leaves a position has a signal to buy or a price of zero. -/
def NeverBoth (signalFn : List (Candle T X) → Signal) (costs : Costs) (initialEquity : ℚ)
    (candles : List (Candle T X)) : Prop :=
  ∀ s m pos exit, RunBefore signalFn costs initialEquity candles s m → s.pos = some pos →
    exitOf costs pos m.bar (signalFn m.history) = some exit →
    exit.1 ≠ 0 ∧ signalFn m.history ≠ .BUY

/-- What is compared. -/
structure Outcome (T : Type) where
  trades : List (Trade T)
  totalReturn : ℚ
  maxDrawdown : ℚ
  deriving DecidableEq

def outcome (r : BacktestResult T) : Outcome T := ⟨r.trades, r.totalReturn, r.maxDrawdown⟩

def portfolioOutcome (r : PortfolioBacktestResult T) : Outcome T :=
  ⟨r.trades.map Trade.unlabelled, r.totalReturn, r.maxDrawdown⟩

/-! ## 2. Accounts that differ in the symbols -/

def Account.unlabelled (a : Account T) : Account T :=
  { a with trades := a.trades.map Trade.unlabelled }

theorem Account.unlabelled_book (a : Account T) (costs : Costs) (pos : Position T)
    (bar : Candle T X) (exit : ℚ × ExitReason) (symbol : String) :
    (a.book (closedTrade costs pos bar exit symbol)).unlabelled =
      a.unlabelled.book (closedTrade costs pos bar exit "") := by
  simp [Account.unlabelled, Account.book, Trade.unlabelled, closedTrade]

theorem Account.unlabelled_mark (a : Account T) : a.mark.unlabelled = a.unlabelled.mark := rfl

/-- The table with the one position, if there is one. -/
def held (symbol : String) : Option (Position T) → Table String (Position T)
  | none => ∅
  | some pos => AList.insert symbol pos ∅

/-- **The relation** between the two states. -/
structure Alike (symbol : String) (s : RunState T) (p : Portfolio T) : Prop where
  account : p.account.unlabelled = s.account
  positions : p.positions = held symbol s.pos

theorem Alike.equity {symbol : String} {s : RunState T} {p : Portfolio T} (h : Alike symbol s p) :
    p.account.equity = s.account.equity := by
  rw [← h.account]
  rfl

/-! ## 3. What is due -/

section Due

variable {symbol : String} {candles : List (Candle T X)} {m : Moment T X} {i : ℕ}

theorem rowsOf_single_self : rowsOf (single symbol candles) symbol = candles := by
  rw [rowsOf, single, AList.lookup_insert, Option.getD_some]

theorem rowsOf_single_of_ne {other : String} (h : other ≠ symbol) :
    rowsOf (single symbol candles) other = [] := by
  rw [rowsOf, single, AList.lookup_insert_ne h, AList.lookup_empty, Option.getD_none]

theorem eq_symbol_of_moment? {p : String ×ₗ ℕ}
    (h : moment? (rowsOf (single symbol candles) (ofLex p).1) (ofLex p).2 = some m) :
    (ofLex p).1 = symbol ∧ moment? candles (ofLex p).2 = some m := by
  by_cases hsymbol : (ofLex p).1 = symbol
  · rw [hsymbol, rowsOf_single_self] at h
    exact ⟨hsymbol, h⟩
  · rw [rowsOf_single_of_ne hsymbol] at h
    simp [moment?_eq_some_iff] at h

variable [LinearOrder T]

theorem due_single (hcandles : Increasing candles) (hm : moment? candles i = some m) :
    due (single symbol candles) m.bar.openTime = [toLex (symbol, i)] := by
  refine eq_of_sorted (pairwise_sorted _) (List.pairwise_singleton _ _) nodup_due
    (List.nodup_singleton _) fun p => ?_
  rw [mem_due, List.mem_singleton]
  constructor
  · rintro ⟨m', hm', htime⟩
    obtain ⟨hsymbol, hm'⟩ := eq_symbol_of_moment? hm'
    have hindex : (ofLex p).2 = i := by
      rcases lt_trichotomy (ofLex p).2 i with hlt | heq | hgt
      · exact absurd htime (hcandles.openTime_lt hm' hm hlt).ne
      · exact heq
      · exact absurd htime (hcandles.openTime_lt hm hm' hgt).ne'
    exact ofLex.injective (Prod.ext hsymbol hindex)
  · rintro rfl
    exact ⟨m, by simpa [rowsOf_single_self] using hm, rfl⟩

theorem times_single (hcandles : Increasing candles) :
    times (single symbol candles) = (moments candles).map fun m => m.bar.openTime := by
  refine eq_of_sorted (pairwise_sorted _)
    (List.pairwise_map.mpr (hcandles.moments.imp fun hlt => hlt.le)) nodup_times
    (List.pairwise_map.mpr (hcandles.moments.imp fun hlt => hlt.ne)) fun ts => ?_
  rw [mem_times, List.mem_map]
  constructor
  · rintro ⟨p, hp⟩
    obtain ⟨m, hm, htime⟩ := mem_due.mp hp
    exact ⟨m, mem_moments.mpr ⟨_, (eq_symbol_of_moment? hm).2⟩, htime⟩
  · rintro ⟨m, hm, rfl⟩
    obtain ⟨i, hi⟩ := mem_moments.mp hm
    exact ⟨toLex (symbol, i), by rw [due_single hcandles hi]; exact List.mem_singleton_self _⟩

end Due

/-! ## 4. One turn -/

section Turn

variable [LinearOrder T] {f : List (Candle T X) → Signal} {costs : Costs} {maxPositions : ℤ}
  {symbol : String} {candles : List (Candle T X)} {s : RunState T} {p : Portfolio T}
  {m : Moment T X} {i : ℕ}

omit [LinearOrder T] in
theorem erase_held (pos : Position T) : (held symbol (some pos)).erase symbol = ∅ := by
  have hkeys : ((held symbol (some pos)).erase symbol).keys = [] := by
    rw [AList.keys_erase]
    simp [held]
  exact AList.ext (List.map_eq_nil_iff.mp hkeys)

omit [LinearOrder T] in
theorem symbol_mem_active (ts : T) : symbol ∈ active none (single symbol candles) ts := by
  simp [active, single]

/-- With one bar due, the portfolio leaves, enters and is marked. -/
theorem turnAt_single (hcandles : Increasing candles) (hm : moment? candles i = some m) :
    turnAt (fun _ => f) none costs maxPositions (single symbol candles) p m.bar.openTime =
      (enterOne (fun _ => f) none costs maxPositions (single symbol candles) m.bar.openTime
        (exitOne (fun _ => f) none costs (single symbol candles) m.bar.openTime p
          (toLex (symbol, i))) (toLex (symbol, i))).map (markAt m.bar.openTime) := by
  rw [turnAt, due_single hcandles hm]
  simp only [List.foldl_cons, List.foldl_nil, List.foldlM_cons, List.foldlM_nil, bind_pure]
  cases enterOne (fun _ => f) none costs maxPositions (single symbol candles) m.bar.openTime
    (exitOne (fun _ => f) none costs (single symbol candles) m.bar.openTime p (toLex (symbol, i)))
    (toLex (symbol, i)) <;> rfl

omit [LinearOrder T] in
/-- Without a position, the first loop does nothing. -/
theorem exitOne_single_none (h : Alike symbol s p) (hpos : s.pos = none) (ts : T) :
    exitOne (fun _ => f) none costs (single symbol candles) ts p (toLex (symbol, i)) = p := by
  have hnone : p.positions.lookup symbol = none := by
    rw [h.positions, hpos, held, AList.lookup_empty]
  generalize hone : exitOne (fun _ => f) none costs (single symbol candles) ts p
    (toLex (symbol, i)) = p'
  rcases exitOne_cases hone with heq | ⟨pos, _, _, hlookup, -, -, -⟩
  · exact heq
  · exact absurd (hnone.symm.trans hlookup) nofun

omit [LinearOrder T] in
/-- With one, the second loop does nothing. -/
theorem enterOne_single_some {pos : Position T} (h : Alike symbol s p) (hpos : s.pos = some pos)
    (ts : T) : enterOne (fun _ => f) none costs maxPositions (single symbol candles) ts p
      (toLex (symbol, i)) = .ok p := by
  have hmem : symbol ∈ p.positions := by
    rw [h.positions, hpos, held]
    exact (AList.mem_insert _).mpr (.inl rfl)
  unfold enterOne
  simp only [ofLex_toLex]
  exact if_pos (.inl hmem)

section Single

variable (hm : moment? candles i = some m)

include hm

omit [LinearOrder T] in
/-- With one, it leaves it as `run` does. -/
theorem exitOne_single_some {pos : Position T} (h : Alike symbol s p) (hpos : s.pos = some pos) :
    exitOne (fun _ => f) none costs (single symbol candles) m.bar.openTime p (toLex (symbol, i)) =
      (exitOf costs pos m.bar (f m.history)).elim p (p.closed costs symbol pos m) := by
  have hlookup : p.positions.lookup symbol = some pos := by
    rw [h.positions, hpos, held, AList.lookup_insert]
  have hrow : moment? (rowsOf (single symbol candles) symbol) i = some m := by
    rw [rowsOf_single_self, hm]
  have hone : exitOne (fun _ => f) none costs (single symbol candles) m.bar.openTime p
      (toLex (symbol, i)) = _ := exitOne_eq hlookup hrow
  rw [hone]
  simp only [ofLex_toLex]
  rw [portfolioExit_of_active (symbol_mem_active _)]

omit [LinearOrder T] in
/-- Without a position, the second loop enters as `run` does. -/
theorem enterOne_single_none (hmax : 1 ≤ maxPositions) (hnone : p.positions = ∅) :
    enterOne (fun _ => f) none costs maxPositions (single symbol candles) m.bar.openTime p
      (toLex (symbol, i)) =
      if f m.history = .BUY then (enter costs p.account.equity m.prev m.bar).map fun pos =>
        { p with positions := held symbol (some pos) }
      else .ok p := by
  have hguard : ¬ (symbol ∈ p.positions ∨ symbol ∉ active none (single symbol candles)
      m.bar.openTime ∨ maxPositions ≤ (p.positions.entries.length : ℤ)) := by
    rw [hnone]
    rintro (hmem | hout | hfull)
    · exact AList.notMem_empty symbol hmem
    · exact hout (symbol_mem_active _)
    · simp at hfull
      omega
  have hrow : moment? (rowsOf (single symbol candles) symbol) i = some m := by
    rw [rowsOf_single_self, hm]
  unfold enterOne
  simp only [ofLex_toLex, hguard, if_false, hrow]
  by_cases hbuy : f m.history = .BUY
  · simp only [hbuy, ne_eq, not_true_eq_false, if_false, if_true, hnone]
    rfl
  · simp only [ne_eq, hbuy, not_false_eq_true, if_true, if_false]

/-- **One turn** of the two is the same. -/
theorem agree_turn (hcandles : Increasing candles) (hmax : 1 ≤ maxPositions)
    (h : Alike symbol s p) (hnever : ∀ pos exit, s.pos = some pos →
      exitOf costs pos m.bar (f m.history) = some exit → exit.1 ≠ 0 ∧ f m.history ≠ .BUY) :
    Agree (Alike symbol) (turn f costs s m)
      (turnAt (fun _ => f) none costs maxPositions (single symbol candles) p m.bar.openTime) := by
  have hmarked : ∀ {s : RunState T} {p : Portfolio T}, Alike symbol s p →
      Alike symbol ⟨s.account.mark, s.pos⟩ (markAt m.bar.openTime p) := fun h =>
    ⟨by rw [markAt, Account.unlabelled_mark, h.account], h.positions⟩
  rw [turnAt_single hcandles hm, turn]
  cases hpos : s.pos with
  | none =>
    have hempty : p.positions = ∅ := by rw [h.positions, hpos, held]
    rw [exitOne_single_none h hpos, enterOne_single_none hm hmax hempty, act]
    simp only [hpos]
    by_cases hbuy : f m.history = .BUY
    · simp only [hbuy, if_true, h.equity]
      cases enter costs s.account.equity m.prev m.bar with
      | error e => exact .error e
      | ok pos => exact .ok (hmarked ⟨h.account, rfl⟩)
    · simp only [hbuy, if_false]
      exact .ok (hmarked h)
  | some pos =>
    rw [exitOne_single_some hm h hpos, act]
    simp only [hpos]
    cases hexit : exitOf costs pos m.bar (f m.history) with
    | none =>
      simp only [Option.elim_none]
      rw [enterOne_single_some h hpos]
      exact .ok (hmarked h)
    | some exit =>
      obtain ⟨hprice, hbuy⟩ := hnever pos exit hpos hexit
      have hempty : (p.closed costs symbol pos m exit).positions = ∅ := by
        rw [Portfolio.closed, h.positions, hpos, erase_held]
      simp only [Option.elim_some, hprice, if_false]
      rw [enterOne_single_none hm hmax hempty, if_neg hbuy]
      refine .ok (hmarked ⟨?_, hempty⟩)
      rw [Portfolio.closed, Account.unlabelled_book, h.account]

end Single

end Turn

/-! ## 5. The result -/

/-- The summaries of alike states. -/
theorem summary_alike [LinearOrder T] {symbol : String} {s : RunState T} {p : Portfolio T}
    (h : Alike symbol s p) (initialEquity : ℚ) (candles : CandlesBySymbol T X) :
    (portfolioSummary initialEquity candles p).map portfolioOutcome =
      (summary initialEquity s.account).map outcome := by
  unfold portfolioSummary summary
  rw [h.equity]
  cases divide (s.account.equity - initialEquity) initialEquity with
  | error e => rfl
  | ok total =>
    have htrades : p.account.trades.map Trade.unlabelled = s.account.trades := by
      rw [← h.account]
      rfl
    have hmaxdd : p.account.maxdd = s.account.maxdd := by
      rw [← h.account]
      rfl
    simp only [ok_bind, Except.map, portfolioOutcome, outcome, htrades, hmaxdd, pure_eq_ok]

/-- **The portfolio engine on one symbol** is `run`, where `run` need not do two things at a bar. -/
theorem generalises [LinearOrder T] {f : List (Candle T X) → Signal} {costs : Costs}
    {initialEquity : ℚ} {maxPositions : ℤ} {symbol : String} {candles : List (Candle T X)}
    (hcandles : Increasing candles) (hmax : 1 ≤ maxPositions)
    (hnever : NeverBoth f costs initialEquity candles) :
    (runMultiAsset (fun _ => f) none costs initialEquity maxPositions
      (single symbol candles)).map portfolioOutcome =
      (run f costs initialEquity candles).map outcome := by
  have hloops : Agree (Alike symbol)
      ((moments candles).foldlM (turn f costs) (.start initialEquity))
      ((times (single symbol candles)).foldlM
        (turnAt (fun _ => f) none costs maxPositions (single symbol candles))
        (.start initialEquity)) := by
    rw [times_single hcandles, List.foldlM_map]
    refine Agree.foldlM ⟨rfl, rfl⟩ fun done m s p hbegins hdone h => ?_
    have hmem : m ∈ moments candles := hbegins.subset (by simp)
    obtain ⟨i, hm⟩ := mem_moments.mp hmem
    exact agree_turn hm hcandles hmax h fun pos exit => hnever s m pos exit ⟨done, hbegins, hdone⟩
  unfold runMultiAsset run
  generalize (moments candles).foldlM (turn f costs) (.start initialEquity) = loop at hloops ⊢
  generalize (times (single symbol candles)).foldlM (turnAt (fun _ => f) none costs maxPositions
    (single symbol candles)) (.start initialEquity) = portfolioLoop at hloops ⊢
  cases hloops with
  | ok h => exact summary_alike h initialEquity _
  | error e => rfl

/-- With `buyFirst`, no bar does both. -/
theorem neverBoth_buyFirst : NeverBoth buyFirst {} 10000 gapCandles := by
  rintro s m pos exit ⟨done, hbegins, hdone⟩ hpos hexit
  have hmoments : moments gapCandles = (moments gapCandles).take 1 ++ [gapMoment] := by
    decide
  rw [hmoments, List.prefix_concat_iff] at hbegins
  rcases hbegins with hlast | hfirst
  · -- The second bar, where the position of the first is left.
    obtain ⟨rfl, hm⟩ := List.append_inj' hlast rfl
    obtain rfl : m = gapMoment := List.singleton_inj.mp hm
    have hentered : ((moments gapCandles).take 1).foldlM (turn buyFirst {}) (.start 10000) =
        .ok ⟨.start 10000, some enteredAt100⟩ := by decide +kernel
    rw [hentered] at hdone
    cases hdone
    cases hpos
    have hexit' : exitOf {} enteredAt100 gapMoment.bar (buyFirst gapMoment.history) =
        some (levelPrice {} enteredAt100 gapMoment.bar, .STOP) := by decide +kernel
    rw [hexit'] at hexit
    cases hexit
    exact ⟨by decide +kernel, by decide +kernel⟩
  · -- At the first bar there is no position.
    have hlength := hfirst.length_le
    have hone : ((moments gapCandles).take 1).length = 1 := by decide
    have hnil : done = [] := by
      rw [hone, List.length_append, List.length_singleton] at hlength
      exact List.length_eq_zero_iff.mp (by omega)
    subst hnil
    cases hdone
    cases hpos

/-- The gap in both engines. -/
theorem generalises_gapCandles : Increasing gapCandles ∧
    (runMultiAsset (fun _ => buyFirst) none {} 10000 5
      (single "A" gapCandles)).map portfolioOutcome =
      (run buyFirst {} 10000 gapCandles).map outcome := by
  have hcandles : Increasing gapCandles := by
    unfold Increasing
    decide
  exact ⟨hcandles, generalises hcandles (by decide) neverBoth_buyFirst⟩

/-- A strategy that always buys. -/
def alwaysBuy (_ : List (Candle ℕ Unit)) : Signal := .BUY

def fallenCandles : List (Candle ℕ Unit) := gapCandles ++ [⟨3, 80, 81, 79, none, ()⟩]

/-- **Left and entered at one bar**: the portfolio engine has closed a second trade. -/
theorem reenters_at_the_bar : ¬ ∀ (f : List (Candle ℕ Unit) → Signal) costs initialEquity
    maxPositions symbol candles, Increasing candles → 1 ≤ maxPositions →
    (runMultiAsset (fun _ => f) none costs initialEquity maxPositions
      (single symbol candles)).map portfolioOutcome =
      (run f costs initialEquity candles).map outcome := by
  intro h
  have heq := h alwaysBuy {} 10000 5 "A" fallenCandles (by unfold Increasing; decide) (by decide)
  revert heq
  decide +kernel

end Kripto.Backtest
