/-
# Which symbols are said to be traded

`run_multi_asset` finds `symbols_traded` by times: a symbol is among them if one of its candles has
the time of an entry.  The entry may be that of another symbol.

* `canTrade_of_run`: where the trades of a run can have been entered;
* `trades_buyOnce`: wherever that is, a strategy enters there and nowhere else;
* `symbolsTraded_exact_iff`: so the field is exact for all strategies if and only if no candle of
  another symbol has the time of a bar where a trade can be entered.
-/
import Kripto.Backtest.Causality
import Mathlib.Data.List.Pairwise
import Mathlib.Tactic.Linarith

namespace Kripto.Backtest

open Effect

variable {T X : Type}

/-! ## 1. Where a trade can be entered -/

/-- What an entry takes for the range of the bar before. -/
def Candle.rangeBefore (prev : Candle T X) : ℚ :=
  prev.atr.getD (max (prev.high - prev.low) (1/100))

/-- The moment leaves something to be risked. -/
def Moment.CanEnter (m : Moment T X) : Prop := m.prev.rangeBefore ≠ 0 ∨ m.bar.openPrice ≠ 0

/-- Costs under which that is so. -/
def costsFor (prev : Candle T X) : Costs where
  feeBps := if prev.rangeBefore = 0 then 5000 else 0
  slippageBps := 0
  spreadBps := 0

theorem canEnter_of_enter {costs : Costs} {equity : ℚ} {m : Moment T X} {pos : Position T}
    (h : enter costs equity m.prev m.bar = .ok pos) :
    m.CanEnter ∧ pos.time = m.bar.openTime := by
  obtain ⟨qty, hqty, rfl⟩ := map_eq_ok_iff.mp h
  refine ⟨?_, rfl⟩
  by_contra hnot
  rw [Moment.CanEnter, not_or, not_not, not_not, Candle.rangeBefore] at hnot
  rw [hnot.1, hnot.2] at hqty
  simp [divide] at hqty

theorem exists_enter {m : Moment T X} (h : m.CanEnter) (equity : ℚ) :
    ∃ pos, enter (costsFor m.prev) equity m.prev m.bar = .ok pos := by
  rw [Moment.CanEnter, Candle.rangeBefore] at h
  rw [enter, divide, if_neg]
  · exact ⟨_, rfl⟩
  · rw [costsFor, Candle.rangeBefore]
    intro hzero
    split_ifs at hzero with hrange
    · refine h.resolve_left (not_not.mpr hrange) ?_
      dsimp only at hzero
      linarith
    · refine hrange ?_
      dsimp only at hzero
      linarith

section Trading

variable [LinearOrder T] (candles : CandlesBySymbol T X)

/-- A trade of the symbol can be entered at the time: one of its bars has it, and a later one can
close the trade. -/
def CanTrade (symbol : String) (ts : T) : Prop :=
  ∃ i m j m', moment? (rowsOf candles symbol) i = some m ∧ m.bar.openTime = ts ∧ m.CanEnter ∧
    moment? (rowsOf candles symbol) j = some m' ∧ ts < m'.bar.openTime

/-- The symbol has a candle of that time. -/
def HasCandle (symbol : String) (ts : T) : Prop := ∃ row ∈ rowsOf candles symbol, row.openTime = ts

/-- The sorted set of the symbols of trades. -/
def tradedSymbols (trades : List (Trade T)) : List String :=
  sorted (trades.map fun trade => trade.symbol).dedup

end Trading

/-! ## 2. The order of the steps -/

section Order

variable [LinearOrder T] {candles : CandlesBySymbol T X} {ts ts' : T} {p p' : String ×ₗ ℕ}
  {done : List (Step T)}

def Step.phase : Step T → ℕ
  | .exit _ _ => 0
  | .enter _ _ => 1
  | .mark _ => 2

/-- By their times, and at one time exits come first. -/
def Step.key (x : Step T) : T ×ₗ ℕ := toLex (x.time, x.phase)

theorem time_of_stepsAt {x : Step T} (h : x ∈ stepsAt candles ts) : x.time = ts := by
  simp only [stepsAt, List.mem_append, List.mem_map, List.mem_singleton] at h
  rcases h with (⟨p, -, rfl⟩ | ⟨p, -, rfl⟩) | rfl <;> rfl

theorem key_le_key_iff {x y : Step T} :
    x.key ≤ y.key ↔ x.time < y.time ∨ x.time = y.time ∧ x.phase ≤ y.phase :=
  Prod.Lex.toLex_le_toLex

theorem inOrder_stepsAt : InOrder Step.key (stepsAt candles ts) := by
  rw [InOrder, stepsAt, List.pairwise_append, List.pairwise_append]
  refine ⟨⟨?_, ?_, ?_⟩, List.pairwise_singleton _ _, ?_⟩
  · exact List.pairwise_map.mpr (List.pairwise_of_forall fun _ _ => le_refl _)
  · exact List.pairwise_map.mpr (List.pairwise_of_forall fun _ _ => le_refl _)
  · intro x hx y hy
    obtain ⟨p, -, rfl⟩ := List.mem_map.mp hx
    obtain ⟨q, -, rfl⟩ := List.mem_map.mp hy
    exact key_le_key_iff.mpr (.inr ⟨rfl, Nat.zero_le _⟩)
  · intro x hx y hy
    obtain rfl := List.mem_singleton.mp hy
    rcases List.mem_append.mp hx with hx | hx
    · obtain ⟨p, -, rfl⟩ := List.mem_map.mp hx
      exact key_le_key_iff.mpr (.inr ⟨rfl, Nat.zero_le _⟩)
    · obtain ⟨p, -, rfl⟩ := List.mem_map.mp hx
      exact key_le_key_iff.mpr (.inr ⟨rfl, Nat.le_succ _⟩)

/-- **The steps are in order.** -/
theorem inOrder_steps : InOrder Step.key (steps candles) := by
  rw [InOrder, steps, List.pairwise_flatMap]
  refine ⟨fun ts _ => inOrder_stepsAt, ?_⟩
  refine (inOrder_times.and nodup_times).imp fun {ts ts'} h x hx y hy => ?_
  refine key_le_key_iff.mpr (.inl ?_)
  rw [time_of_stepsAt hx, time_of_stepsAt hy]
  exact lt_of_le_of_ne h.1 h.2

theorem key_le_of_before {x y : Step T} (h : done ++ [y] <+: steps candles) (hx : x ∈ done) :
    x.key ≤ y.key := by
  have hbefore : (done ++ [y]).Pairwise fun x y => x.key ≤ y.key := inOrder_steps.sublist h.sublist
  rw [List.pairwise_append] at hbefore
  exact hbefore.2.2 x hx y (List.mem_singleton_self y)

/-- What is left has been entered earlier. -/
theorem lt_of_enter_before (h : done ++ [.exit ts' p'] <+: steps candles)
    (hmem : .enter ts p ∈ done) : ts < ts' := by
  rcases key_le_key_iff.mp (key_le_of_before h hmem) with hlt | ⟨-, hle⟩
  · exact hlt
  · exact absurd hle (Nat.not_succ_le_zero 0)

theorem le_of_exit_before (h : done ++ [.enter ts' p'] <+: steps candles)
    (hmem : .exit ts p ∈ done) : ts ≤ ts' := by
  rcases key_le_key_iff.mp (key_le_of_before h hmem) with hlt | ⟨heq, -⟩
  · exact hlt.le
  · exact heq.le

theorem mem_steps_iff {x : Step T} :
    x ∈ steps candles ↔ x.time ∈ times candles ∧ x ∈ stepsAt candles x.time := by
  rw [steps, List.mem_flatMap]
  constructor
  · rintro ⟨ts, hts, hx⟩
    obtain rfl := time_of_stepsAt hx
    exact ⟨hts, hx⟩
  · exact fun h => ⟨x.time, h⟩

theorem exit_mem_steps_iff : .exit ts p ∈ steps candles ↔ p ∈ due candles ts := by
  rw [mem_steps_iff, Step.time, mem_times]
  constructor
  · rintro ⟨-, hx⟩
    simpa [stepsAt] using hx
  · exact fun h => ⟨⟨p, h⟩, by simpa [stepsAt] using h⟩

theorem enter_mem_steps_iff : .enter ts p ∈ steps candles ↔ p ∈ due candles ts := by
  rw [mem_steps_iff, Step.time, mem_times]
  constructor
  · rintro ⟨-, hx⟩
    simpa [stepsAt] using hx
  · exact fun h => ⟨⟨p, h⟩, by simpa [stepsAt] using h⟩

end Order

/-! ## 3. Every run -/

section Run

variable [LinearOrder T] {signalFn : String → List (Candle T X) → Signal}
  {universeFn : Option (T → Finset String)} {costs : Costs} {initialEquity : ℚ} {maxPositions : ℤ}
  {candles : CandlesBySymbol T X} {s s' : Portfolio T} {done : List (Step T)} {x : Step T}
  {symbol : String} {ts : T}

omit [LinearOrder T] in
theorem lookup_start {pos : Position T} :
    (Portfolio.start initialEquity : Portfolio T).positions.lookup symbol ≠ some pos := by
  intro h
  exact absurd (h.symm.trans (AList.lookup_empty symbol)) (by simp)

omit [LinearOrder T] in
/-- What is held after an exit was held before. -/
theorem lookup_of_closed {costs : Costs} {closed : String} {pos pos' : Position T}
    {m : Moment T X} {exit : ℚ × ExitReason}
    (h : (s.closed costs closed pos m exit).positions.lookup symbol = some pos') :
    s.positions.lookup symbol = some pos' := by
  by_cases hclosed : symbol = closed
  · rw [hclosed] at h
    exact absurd (h.symm.trans (AList.lookup_erase _ _)) (by simp)
  · exact (AList.lookup_erase_ne hclosed).symm.trans h

/-- After the steps of `done`, each position has been entered in one of them, and each trade where
one can be. -/
structure EnteredIn (candles : CandlesBySymbol T X) (done : List (Step T)) (s : Portfolio T) :
    Prop where
  position : ∀ symbol pos, s.positions.lookup symbol = some pos → ∃ i m,
    moment? (rowsOf candles symbol) i = some m ∧ m.bar.openTime = pos.time ∧ m.CanEnter ∧
      .enter pos.time (toLex (symbol, i)) ∈ done
  trade : ∀ trade ∈ s.account.trades, CanTrade candles trade.symbol trade.entryTime

theorem EnteredIn.mono {more : List (Step T)} (h : EnteredIn candles done s)
    (hmore : done ⊆ more) : EnteredIn candles more s where
  position symbol pos hpos :=
    let ⟨i, m, hm, htime, hcan, hmem⟩ := h.position symbol pos hpos
    ⟨i, m, hm, htime, hcan, hmore hmem⟩
  trade := h.trade

/-- **One step** keeps this. -/
theorem enteredIn_perform (h : EnteredIn candles done s) (hbefore : done ++ [x] <+: steps candles)
    (hstep : perform signalFn universeFn costs maxPositions candles s x = .ok s') :
    EnteredIn candles (done ++ [x]) s' := by
  have hmono := h.mono (List.subset_append_left done [x])
  cases x with
  | mark ts =>
    cases hstep
    exact ⟨hmono.position, hmono.trade⟩
  | exit ts p =>
    rcases exitOne_cases (Except.ok.inj hstep) with rfl | ⟨pos, m', exit, hpos, hm', -, rfl⟩
    · exact hmono
    · obtain ⟨i, m, hm, htime, hcan, hmem⟩ := h.position _ _ hpos
      refine ⟨fun symbol' pos' hpos' => ?_, fun trade htrade => ?_⟩
      · exact hmono.position symbol' pos' (lookup_of_closed hpos')
      · rcases List.mem_append.mp htrade with htrade | htrade
        · exact h.trade trade htrade
        · obtain rfl := List.mem_singleton.mp htrade
          have hdue : p ∈ due candles ts := exit_mem_steps_iff.mp (hbefore.subset (by simp))
          refine ⟨i, m, (ofLex p).2, m', hm, htime, hcan, hm', ?_⟩
          rw [openTime_of_due hdue hm']
          exact lt_of_enter_before hbefore hmem
  | enter ts p =>
    rcases enterOne_cases hstep with rfl | ⟨pos, m, -, -, -, hm, -, henter, rfl⟩
    · exact hmono
    · obtain ⟨hcan, htime⟩ := canEnter_of_enter henter
      have hdue : p ∈ due candles ts := enter_mem_steps_iff.mp (hbefore.subset (by simp))
      refine ⟨fun symbol' pos' hpos' => ?_, hmono.trade⟩
      by_cases hsymbol : symbol' = (ofLex p).1
      · subst hsymbol
        rw [AList.lookup_insert] at hpos'
        obtain rfl := Option.some.inj hpos'
        rw [htime, openTime_of_due hdue hm]
        exact ⟨(ofLex p).2, m, hm, openTime_of_due hdue hm, hcan, by simp⟩
      · rw [AList.lookup_insert_ne hsymbol] at hpos'
        exact hmono.position symbol' pos' hpos'

/-- **A loop that returned** has entered its trades where that can be done. -/
theorem canTrade_of_loop (h : (steps candles).foldlM
    (perform signalFn universeFn costs maxPositions candles) (.start initialEquity) = .ok s) :
    ∀ trade ∈ s.account.trades, CanTrade candles trade.symbol trade.entryTime := by
  refine (foldlM_keeps (I := fun done s => done <+: steps candles → EnteredIn candles done s)
    ?_ ?_ h (List.prefix_refl _)).trade
  · intro _
    exact ⟨fun symbol pos hpos => absurd hpos lookup_start, List.forall_mem_nil _⟩
  · intro done x s s' hs hstep hbefore
    exact enteredIn_perform (hs ((List.prefix_append done [x]).trans hbefore)) hbefore hstep

theorem canTrade_of_run {r : PortfolioBacktestResult T}
    (h : runMultiAsset signalFn universeFn costs initialEquity maxPositions candles = .ok r) :
    ∀ trade ∈ r.trades, CanTrade candles trade.symbol trade.entryTime := by
  obtain ⟨s, hs, htrades, -⟩ := trades_of_runMultiAsset h
  rw [loop_eq] at hs
  rw [htrades]
  exact canTrade_of_loop hs

theorem symbolsTraded_of_run {r : PortfolioBacktestResult T}
    (h : runMultiAsset signalFn universeFn costs initialEquity maxPositions candles = .ok r) :
    r.symbolsTraded = symbolsTraded candles r.trades := by
  obtain ⟨s, -, hsummary⟩ := bind_eq_ok_iff.mp h
  obtain ⟨total, -, hr⟩ := bind_eq_ok_iff.mp hsummary
  cases hr
  rfl

end Run

/-! ## 4. A strategy that enters once -/

/-- It buys the symbol at the bar of index `i`, and sells it at every other one. -/
def buyOnce (symbol : String) (i : ℕ) (symbol' : String) (history : List (Candle T X)) : Signal :=
  if symbol' = symbol then if history.length = i then .BUY else .SELL else .HOLD

section BuyOnce

variable [LinearOrder T] {candles : CandlesBySymbol T X} {symbol : String} {i j : ℕ}
  {m m' : Moment T X} {s s' : Portfolio T} {done : List (Step T)} {ts : T} {p : String ×ₗ ℕ}

omit [LinearOrder T] in
theorem length_history {rows : List (Candle T X)} (h : moment? rows i = some m) :
    m.history.length = i := by
  rw [(moment?_eq_some_iff.mp h).2.2.2, List.length_take]
  exact min_eq_left (lt_of_moment? h).le

omit [LinearOrder T] in
/-- At another bar it sells what it holds. -/
theorem notMem_exitOne (costs : Costs) (hm' : moment? (rowsOf candles symbol) j = some m')
    (hij : j ≠ i) : symbol ∉
      (exitOne (buyOnce symbol i) none costs candles ts s (toLex (symbol, j))).positions := by
  cases hpos : s.positions.lookup symbol with
  | none =>
    rw [exitOne]
    simp only [ofLex_toLex, hpos]
    exact AList.lookup_eq_none.mp hpos
  | some pos =>
    have hsell : buyOnce symbol i symbol m'.history = .SELL := by
      rw [buyOnce, if_pos rfl, length_history hm', if_neg hij]
    obtain ⟨exit, hexit⟩ : ∃ exit, portfolioExit (buyOnce symbol i) none costs candles ts symbol pos
        m' = some exit := by
      rw [portfolioExit, hsell, exitOf, if_pos (rfl : Signal.SELL = .SELL)]
      split_ifs <;> exact ⟨_, rfl⟩
    rw [exitOne_eq (p := toLex (symbol, j)) hpos hm', ofLex_toLex, hexit]
    exact fun hheld => (AList.mem_erase.mp hheld).1 rfl

/-- What it has done after the steps of `done`: it holds or has sold the symbol once it could buy
it at `i`, and has sold it once it could sell it at `j`. -/
structure BoughtOnce (symbol : String) (i j : ℕ) (m m' : Moment T X) (done : List (Step T))
    (s : Portfolio T) : Prop where
  position : ∀ symbol' pos, s.positions.lookup symbol' = some pos →
    symbol' = symbol ∧ pos.time = m.bar.openTime
  trade : ∀ trade ∈ s.account.trades,
    trade.symbol = symbol ∧ trade.entryTime = m.bar.openTime
  bought : .enter m.bar.openTime (toLex (symbol, i)) ∈ done →
    symbol ∈ s.positions ∨ s.account.trades ≠ []
  sold : .exit m'.bar.openTime (toLex (symbol, j)) ∈ done → symbol ∉ s.positions

omit [LinearOrder T] in
theorem boughtOnce_exit (hm' : moment? (rowsOf candles symbol) j = some m') (hij : j ≠ i)
    (h : BoughtOnce symbol i j m m' done s) :
    BoughtOnce symbol i j m m' (done ++ [.exit ts p])
      (exitOne (buyOnce symbol i) none (costsFor m.prev) candles ts s p) := by
  have hbought : .enter m.bar.openTime (toLex (symbol, i)) ∈ done ++ [.exit ts p] →
      symbol ∈ s.positions ∨ s.account.trades ≠ [] := fun hmem =>
    h.bought ((List.mem_append.mp hmem).resolve_right (by simp))
  have hat : .exit m'.bar.openTime (toLex (symbol, j)) ∈ [Step.exit ts p] → symbol ∉
      (exitOne (buyOnce symbol i) none (costsFor m.prev) candles ts s p).positions := by
    intro hmem
    obtain ⟨rfl, rfl⟩ := Step.exit.inj (List.mem_singleton.mp hmem)
    exact notMem_exitOne _ hm' hij
  generalize hone : exitOne (buyOnce symbol i) none (costsFor m.prev) candles ts s p = s' at hat ⊢
  rcases exitOne_cases hone with rfl | ⟨pos, n, exit, hpos, -, -, rfl⟩
  · refine ⟨h.position, h.trade, hbought, fun hmem => ?_⟩
    exact (List.mem_append.mp hmem).elim h.sold hat
  · obtain ⟨hsymbol, htime⟩ := h.position _ _ hpos
    refine ⟨fun symbol' pos' hpos' => ?_, fun trade htrade => ?_, fun _ => ?_, fun hmem => ?_⟩
    · exact h.position symbol' pos' (lookup_of_closed hpos')
    · rcases List.mem_append.mp htrade with htrade | htrade
      · exact h.trade trade htrade
      · obtain rfl := List.mem_singleton.mp htrade
        exact ⟨hsymbol, htime⟩
    · exact .inr (List.append_ne_nil_of_right_ne_nil _ (List.cons_ne_nil _ _))
    · rcases List.mem_append.mp hmem with hmem | hmem
      · exact fun hheld => h.sold hmem (AList.mem_erase.mp hheld).2
      · exact hat hmem

omit [LinearOrder T] in
theorem eq_of_buyOnce {n : Moment T X}
    (hn : moment? (rowsOf candles (ofLex p).1) (ofLex p).2 = some n)
    (hbuy : buyOnce symbol i (ofLex p).1 n.history = .BUY) : p = toLex (symbol, i) := by
  rw [buyOnce, length_history hn] at hbuy
  split_ifs at hbuy with hsymbol hi
  rw [← hsymbol, ← hi]
  rfl

omit [LinearOrder T] in
/-- It buys nothing else. -/
theorem enterOne_of_ne (costs : Costs) (hp : p ≠ toLex (symbol, i)) :
    enterOne (buyOnce symbol i) none costs 1 candles ts s p = .ok s := by
  rw [enterOne]
  dsimp only
  split
  · rfl
  · cases hn : moment? (rowsOf candles (ofLex p).1) (ofLex p).2 with
    | none => rfl
    | some n => exact if_pos fun hbuy => hp (eq_of_buyOnce hn hbuy)

/-- At `i` it buys, if it holds nothing. -/
theorem enterOne_of_empty (hm : moment? (rowsOf candles symbol) i = some m) (hcan : m.CanEnter)
    (hdue : toLex (symbol, i) ∈ due candles ts) (hempty : s.positions.entries = []) :
    ∃ pos, pos.time = m.bar.openTime ∧
      enterOne (buyOnce symbol i) none (costsFor m.prev) 1 candles ts s (toLex (symbol, i)) =
        .ok { s with positions := s.positions.insert symbol pos } := by
  obtain ⟨pos, hpos⟩ := exists_enter hcan s.account.equity
  refine ⟨pos, (canEnter_of_enter hpos).2, ?_⟩
  have hguard : ¬ (symbol ∈ s.positions ∨ symbol ∉ active none candles ts ∨
      (1 : ℤ) ≤ s.positions.entries.length) := by
    rw [not_or, not_or, not_not, hempty]
    refine ⟨?_, mem_keys_of_due hdue, by simp⟩
    rw [AList.mem_keys, AList.keys, hempty]
    exact List.not_mem_nil
  have hbuy : buyOnce symbol i symbol m.history = .BUY := by
    rw [buyOnce, if_pos rfl, length_history hm, if_pos rfl]
  rw [enterOne]
  simp only [ofLex_toLex, if_neg hguard, hm, hbuy, ne_eq, not_true_eq_false, if_false, hpos]
  rfl

theorem boughtOnce_enter (hm : moment? (rowsOf candles symbol) i = some m) (hcan : m.CanEnter)
    (hlater : m.bar.openTime < m'.bar.openTime)
    (hbefore : done ++ [.enter ts p] <+: steps candles)
    (h : BoughtOnce symbol i j m m' done s) :
    ∃ s', enterOne (buyOnce symbol i) none (costsFor m.prev) 1 candles ts s p = .ok s' ∧
      BoughtOnce symbol i j m m' (done ++ [.enter ts p]) s' := by
  have hdue : p ∈ due candles ts := enter_mem_steps_iff.mp (hbefore.subset (by simp))
  have hsold : .exit m'.bar.openTime (toLex (symbol, j)) ∈ done ++ [.enter ts p] →
      .exit m'.bar.openTime (toLex (symbol, j)) ∈ done := fun hmem =>
    (List.mem_append.mp hmem).resolve_right (by simp)
  by_cases hp : p = toLex (symbol, i)
  · subst hp
    cases hentries : s.positions.entries with
    | nil =>
      obtain ⟨pos, htime, henter⟩ := enterOne_of_empty hm hcan hdue hentries
      refine ⟨_, henter, fun symbol' pos' hpos' => ?_, h.trade, fun _ => .inl ?_, fun hmem => ?_⟩
      · by_cases hsymbol : symbol' = symbol
        · rw [hsymbol, AList.lookup_insert] at hpos'
          exact ⟨hsymbol, Option.some.inj hpos' ▸ htime⟩
        · rw [AList.lookup_insert_ne hsymbol] at hpos'
          exact h.position symbol' pos' hpos'
      · exact (AList.mem_insert _).mpr (.inl rfl)
      -- the bar at `j` is later than this one
      · have hle := le_of_exit_before hbefore (hsold hmem)
        rw [← openTime_of_due hdue hm] at hle
        exact absurd hlater (not_lt.mpr hle)
    | cons e rest =>
      have hheld : s.positions.lookup e.1 = some e.2 :=
        AList.mem_lookup_iff.mpr (hentries ▸ List.mem_cons_self)
      obtain ⟨hsymbol, -⟩ := h.position e.1 e.2 hheld
      have hmem : symbol ∈ s.positions := by
        rw [← hsymbol, ← AList.lookup_isSome, hheld]
        rfl
      refine ⟨s, ?_, h.position, h.trade, fun _ => .inl hmem, fun hmem => h.sold (hsold hmem)⟩
      exact if_pos (.inl hmem)
  · refine ⟨s, enterOne_of_ne _ hp, h.position, h.trade, fun hmem => ?_,
      fun hmem => h.sold (hsold hmem)⟩
    rcases List.mem_append.mp hmem with hmem | hmem
    · exact h.bought hmem
    · exact absurd (Step.enter.inj (List.mem_singleton.mp hmem)).2.symm hp

/-- **Wherever a trade can be entered**, the strategy enters one there, and no other. -/
theorem trades_buyOnce (hcan : CanTrade candles symbol ts) :
    ∃ (signalFn : String → List (Candle T X) → Signal) (costs : Costs)
      (r : PortfolioBacktestResult T),
      runMultiAsset signalFn none costs 10000 1 candles = .ok r ∧ r.trades ≠ [] ∧
        ∀ trade ∈ r.trades, trade.symbol = symbol ∧ trade.entryTime = ts := by
  obtain ⟨i, m, j, m', hm, rfl, hcan, hm', hlater⟩ := hcan
  have hij : j ≠ i := by
    rintro rfl
    obtain rfl := Option.some.inj (hm.symm.trans hm')
    exact lt_irrefl _ hlater
  have hstart : BoughtOnce symbol i j m m' [] (.start 10000) := by
    refine ⟨fun symbol' pos hpos => ?_, List.forall_mem_nil _, fun hmem => ?_, fun hmem => ?_⟩
    · exact absurd hpos lookup_start
    · cases hmem
    · cases hmem
  have hrun : ∃ s, (steps candles).foldlM
      (perform (buyOnce symbol i) none (costsFor m.prev) 1 candles) (.start 10000) = .ok s ∧
      BoughtOnce symbol i j m m' (steps candles) s := by
    refine foldlM_returns hstart fun done x s hbefore h => ?_
    cases x with
    | exit ts p => exact ⟨_, rfl, boughtOnce_exit hm' hij h⟩
    | enter ts p => exact boughtOnce_enter hm hcan hlater hbefore h
    | mark ts =>
      refine ⟨_, rfl, h.position, h.trade, fun hmem => ?_, fun hmem => ?_⟩
      · exact h.bought ((List.mem_append.mp hmem).resolve_right (by simp))
      · exact h.sold ((List.mem_append.mp hmem).resolve_right (by simp))
  obtain ⟨s, hs, hbought⟩ := hrun
  have hentered : .enter m.bar.openTime (toLex (symbol, i)) ∈ steps candles :=
    enter_mem_steps_iff.mpr (mem_due.mpr ⟨m, hm, rfl⟩)
  have hexited : .exit m'.bar.openTime (toLex (symbol, j)) ∈ steps candles :=
    exit_mem_steps_iff.mpr (mem_due.mpr ⟨m', hm', rfl⟩)
  have htrades := (hbought.bought hentered).resolve_left (hbought.sold hexited)
  obtain ⟨r, hr, heq⟩ : ∃ r, portfolioSummary 10000 candles s = .ok r ∧
      r.trades = s.account.trades := by
    rw [portfolioSummary, divide, if_neg (by norm_num)]
    exact ⟨_, rfl, rfl⟩
  refine ⟨buyOnce symbol i, costsFor m.prev, r, ?_, heq ▸ htrades, heq ▸ hbought.trade⟩
  rw [runMultiAsset, loop_eq, hs, ok_bind, hr]

end BuyOnce

/-! ## 5. When the field is exact -/

section Exact

variable [LinearOrder T] {signalFn : String → List (Candle T X) → Signal}
  {universeFn : Option (T → Finset String)} {costs : Costs} {initialEquity : ℚ} {maxPositions : ℤ}
  {candles : CandlesBySymbol T X} {symbol : String} {ts : T} {trades : List (Trade T)}
  {r : PortfolioBacktestResult T}

theorem CanTrade.hasCandle (h : CanTrade candles symbol ts) :
    HasCandle candles symbol ts := by
  obtain ⟨i, m, j, m', hm, htime, -⟩ := h
  exact ⟨m.bar, List.mem_of_getElem? (bar_of_moment? hm), htime⟩

theorem mem_symbolsTraded : symbol ∈ symbolsTraded candles trades ↔
    ∃ trade ∈ trades, HasCandle candles symbol trade.entryTime := by
  simp only [symbolsTraded, mem_sorted, List.mem_filter, List.any_eq_true, decide_eq_true_eq,
    HasCandle]
  constructor
  · exact fun h => h.2
  · rintro ⟨trade, htrade, row, hrow, htime⟩
    refine ⟨?_, trade, htrade, row, hrow, htime⟩
    rw [← AList.mem_keys]
    by_contra hnone
    rw [rowsOf, AList.lookup_eq_none.mpr hnone] at hrow
    cases hrow

omit [LinearOrder T] in
theorem mem_tradedSymbols : symbol ∈ tradedSymbols trades ↔
    ∃ trade ∈ trades, trade.symbol = symbol := by
  rw [tradedSymbols, mem_sorted, List.mem_dedup, List.mem_map]

/-- Both are sorted and without repetitions, and so the members decide. -/
theorem symbolsTraded_eq_iff (h : ∀ trade ∈ trades, CanTrade candles trade.symbol trade.entryTime) :
    symbolsTraded candles trades = tradedSymbols trades ↔
      ∀ trade ∈ trades, ∀ symbol, HasCandle candles symbol trade.entryTime →
        ∃ trade' ∈ trades, trade'.symbol = symbol := by
  constructor
  · intro heq trade htrade symbol hcandle
    rw [← mem_tradedSymbols, ← heq]
    exact mem_symbolsTraded.mpr ⟨trade, htrade, hcandle⟩
  · intro hall
    refine eq_of_sorted (pairwise_sorted _) (pairwise_sorted _)
      ((perm_sorted _).nodup_iff.mpr (candles.keys_nodup.filter _))
      ((perm_sorted _).nodup_iff.mpr (List.nodup_dedup _)) fun symbol => ?_
    rw [mem_symbolsTraded, mem_tradedSymbols]
    constructor
    · rintro ⟨trade, htrade, hcandle⟩
      exact hall trade htrade symbol hcandle
    · rintro ⟨trade, htrade, rfl⟩
      exact ⟨trade, htrade, (h trade htrade).hasCandle⟩

/-- **The field is exact** for every run with given candles if and only if no symbol has a candle of
a time at which a trade of another symbol can be entered.  In one run it is exact if and only if no
symbol that is not traded has a candle of the time of an entry. -/
theorem symbolsTraded_exact_iff (candles : CandlesBySymbol T X) :
    ((∀ signalFn universeFn costs initialEquity maxPositions r,
        runMultiAsset signalFn universeFn costs initialEquity maxPositions candles = .ok r →
        r.symbolsTraded = tradedSymbols r.trades) ↔
      ∀ symbol ts, CanTrade candles symbol ts →
        ∀ symbol', HasCandle candles symbol' ts → symbol' = symbol) ∧
    ∀ signalFn universeFn costs initialEquity maxPositions r,
      runMultiAsset signalFn universeFn costs initialEquity maxPositions candles = .ok r →
      (r.symbolsTraded = tradedSymbols r.trades ↔
        ∀ trade ∈ r.trades, ∀ symbol, HasCandle candles symbol trade.entryTime →
          ∃ trade' ∈ r.trades, trade'.symbol = symbol) := by
  have hone : ∀ signalFn universeFn costs initialEquity maxPositions r,
      runMultiAsset signalFn universeFn costs initialEquity maxPositions candles = .ok r →
      (r.symbolsTraded = tradedSymbols r.trades ↔
        ∀ trade ∈ r.trades, ∀ symbol, HasCandle candles symbol trade.entryTime →
          ∃ trade' ∈ r.trades, trade'.symbol = symbol) := by
    intro signalFn universeFn costs initialEquity maxPositions r hr
    rw [symbolsTraded_of_run hr]
    exact symbolsTraded_eq_iff (canTrade_of_run hr)
  refine ⟨⟨fun h symbol ts hcan symbol' hcandle => ?_, fun h _ _ _ _ _ r hr => ?_⟩, hone⟩
  · obtain ⟨signalFn, costs, r, hr, htrades, hall⟩ := trades_buyOnce hcan
    obtain ⟨trade, htrade⟩ := List.exists_mem_of_ne_nil _ htrades
    rw [← (hall trade htrade).2] at hcandle
    obtain ⟨trade', htrade', rfl⟩ :=
      (hone _ _ _ _ _ r hr).mp (h _ _ _ _ _ r hr) trade htrade symbol' hcandle
    exact (hall trade' htrade').1
  · refine (hone _ _ _ _ _ r hr).mpr fun trade htrade symbol hcandle => ?_
    exact ⟨trade, htrade, (h _ _ (canTrade_of_run hr trade htrade) symbol hcandle).symm⟩

end Exact

/-- Two symbols with bars of the same times. -/
def sameTimes : CandlesBySymbol ℕ Unit :=
  (AList.insert "ETH" [⟨0, 100, 101, 99, none, ()⟩, ⟨1, 100, 101, 99, none, ()⟩,
    ⟨2, 100, 101, 99, none, ()⟩] ∅).insert "BTC" [⟨0, 100, 101, 99, none, ()⟩,
    ⟨1, 100, 101, 99, none, ()⟩, ⟨2, 90, 92, 88, none, ()⟩]

/-- **A symbol that is never traded** is named. -/
theorem untraded_symbol_named :
    (runMultiAsset (buyOnce "BTC" 1) none {} 10000 5 sameTimes).map
      (fun r => (r.symbolsTraded, r.trades.map fun trade => trade.symbol)) =
      .ok (["BTC", "ETH"], ["BTC"]) := by
  decide +kernel

end Kripto.Backtest
