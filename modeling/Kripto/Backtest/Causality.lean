/-
# Nothing is known before its time

What a backtest has done at a time `t` depends on the bars up to `t` and on no later ones, whether
it goes on to return or raises; so two collections of candles with the same bars up to `t` have
the same trades and the same equity curve up to `t`.  The equity is the initial one and the profit
of the closed trades at every point, and no more positions are open than are allowed.

* `causal_and_accounted` says so of `run` and of `run_multi_asset`.

With a negative `max_positions` no position is ever opened (`none_below_zero`).
-/
import Kripto.Backtest.Steps

namespace Kripto.Backtest

open Effect

variable {T X : Type} [LinearOrder T]

/-! ## 1. The statement -/

def Increasing (rows : List (Candle T X)) : Prop :=
  rows.Pairwise fun a b => a.openTime < b.openTime

/-- The same bars up to `t`. -/
def AgreeUpTo (t : T) (rows rows' : List (Candle T X)) : Prop :=
  rows.filter (fun row => row.openTime ≤ t) = rows'.filter fun row => row.openTime ≤ t

def tradesUpTo (t : T) (trades : List (Trade T)) : List (Trade T) :=
  trades.filter fun trade => trade.exitTime ≤ t

def curveUpTo (t : T) (curve : List (T × ℚ)) : List (T × ℚ) := curve.filter fun e => e.1 ≤ t

/-- The equity is the initial one and the profits of the closed trades. -/
def Accounted (initialEquity : ℚ) (a : Account T) : Prop :=
  a.equity = initialEquity + (a.trades.map (·.pnl)).sum

section Run

variable (signalFn : List (Candle T X) → Signal) (costs : Costs) (initialEquity : ℚ)

/-- What `run` has done with the bars up to `t`. -/
def runUntil (t : T) (candles : List (Candle T X)) : Except String (RunState T) :=
  (cutAt (fun m => m.bar.openTime) t (moments candles)).foldlM (turn signalFn costs)
    (.start initialEquity)

/-- A state the loop of `run` passes through. -/
def RunPoint (candles : List (Candle T X)) (s : RunState T) : Prop :=
  ∃ done, done <+: moments candles ∧
    done.foldlM (turn signalFn costs) (.start initialEquity) = .ok s

def RunCausal : Prop :=
  ∀ (candles candles' : List (Candle T X)) (t : T), Increasing candles → Increasing candles' →
    AgreeUpTo t candles candles' →
    runUntil signalFn costs initialEquity t candles =
      runUntil signalFn costs initialEquity t candles' ∧
    ∀ r r', run signalFn costs initialEquity candles = .ok r →
      run signalFn costs initialEquity candles' = .ok r' →
      tradesUpTo t r.trades = tradesUpTo t r'.trades

end Run

section MultiAsset

variable (signalFn : String → List (Candle T X) → Signal) (universeFn : Option (T → Finset String))
  (costs : Costs) (initialEquity : ℚ) (maxPositions : ℤ)

/-- What `run_multi_asset` has done with the times up to `t`. -/
def portfolioUntil (t : T) (candles : CandlesBySymbol T X) : Except String (Portfolio T) :=
  (cutAt id t (times candles)).foldlM (turnAt signalFn universeFn costs maxPositions candles)
    (.start initialEquity)

/-- A state the loops of `run_multi_asset` pass through. -/
def PortfolioPoint (candles : CandlesBySymbol T X) (s : Portfolio T) : Prop :=
  ∃ done, done <+: steps candles ∧
    done.foldlM (perform signalFn universeFn costs maxPositions candles) (.start initialEquity) =
      .ok s

def PortfolioCausal : Prop :=
  ∀ (candles candles' : CandlesBySymbol T X) (t : T),
    (∀ symbol, Increasing (rowsOf candles symbol)) →
    (∀ symbol, Increasing (rowsOf candles' symbol)) →
    (∀ symbol, AgreeUpTo t (rowsOf candles symbol) (rowsOf candles' symbol)) →
    portfolioUntil signalFn universeFn costs initialEquity maxPositions t candles =
      portfolioUntil signalFn universeFn costs initialEquity maxPositions t candles' ∧
    ∀ r r', runMultiAsset signalFn universeFn costs initialEquity maxPositions candles = .ok r →
      runMultiAsset signalFn universeFn costs initialEquity maxPositions candles' = .ok r' →
      tradesUpTo t r.trades = tradesUpTo t r'.trades ∧
        curveUpTo t r.equityCurve = curveUpTo t r'.equityCurve

end MultiAsset

/-! ## 2. The bars up to a time -/

section Agree

variable {rows rows' : List (Candle T X)} {t : T} {m : Moment T X} {i : ℕ}

theorem Increasing.inOrder (h : Increasing rows) : InOrder (fun row => row.openTime) rows :=
  h.imp fun hlt => hlt.le

/-- Both lists begin with the bars up to `t`. -/
theorem AgreeUpTo.exists_common (hrows : Increasing rows) (hrows' : Increasing rows')
    (h : AgreeUpTo t rows rows') : ∃ pre rest rest', rows = pre ++ rest ∧ rows' = pre ++ rest' ∧
      (∀ row ∈ pre, row.openTime ≤ t) ∧ (∀ row ∈ rest, t < row.openTime) ∧
      ∀ row ∈ rest', t < row.openTime := by
  obtain ⟨rest, heq, hrest⟩ := exists_cutAt_append hrows.inOrder t
  obtain ⟨rest', heq', hrest'⟩ := exists_cutAt_append hrows'.inOrder t
  have hsame : cutAt (fun row => row.openTime) t rows = cutAt (fun row => row.openTime) t rows' := by
    rw [cutAt_eq_filter hrows.inOrder, cutAt_eq_filter hrows'.inOrder]
    exact h
  exact ⟨_, rest, rest', heq, hsame ▸ heq', fun row => key_le_of_mem_cutAt, hrest, hrest'⟩

/-- What is read at a bar up to `t` is the same. -/
theorem AgreeUpTo.moment? (hrows : Increasing rows) (hrows' : Increasing rows')
    (h : AgreeUpTo t rows rows') (hm : moment? rows i = some m) (ht : m.bar.openTime ≤ t) :
    Backtest.moment? rows' i = some m := by
  obtain ⟨pre, rest, rest', rfl, rfl, -, hrest, -⟩ := h.exists_common hrows hrows'
  have hi : i < pre.length := by
    by_contra hge
    have hbar := bar_of_moment? hm
    rw [List.getElem?_append_right (by omega)] at hbar
    exact absurd ht (not_le.mpr (hrest _ (List.mem_of_getElem? hbar)))
  rw [moment?_append hi] at hm ⊢
  exact hm

/-- Of two moments, the one with the smaller index is earlier. -/
theorem Increasing.openTime_lt {j : ℕ} {m' : Moment T X} (h : Increasing rows)
    (hm : moment? rows i = some m) (hm' : moment? rows j = some m') (hij : i < j) :
    m.bar.openTime < m'.bar.openTime := by
  obtain ⟨hi, hbar⟩ := List.getElem?_eq_some_iff.mp (bar_of_moment? hm)
  obtain ⟨hj, hbar'⟩ := List.getElem?_eq_some_iff.mp (bar_of_moment? hm')
  rw [← hbar, ← hbar']
  exact List.pairwise_iff_getElem.mp h i j hi hj hij

theorem Increasing.moments (h : Increasing rows) :
    (moments rows).Pairwise fun m m' => m.bar.openTime < m'.bar.openTime :=
  List.Pairwise.filterMap (S := fun m m' => m.bar.openTime < m'.bar.openTime) (moment? rows)
    (fun _ _ hij _ hm _ hm' => h.openTime_lt hm hm' hij) List.pairwise_lt_range

theorem inOrder_moments (h : Increasing rows) :
    InOrder (fun m => m.bar.openTime) (moments rows) := h.moments.imp fun hlt => hlt.le

/-- The moments up to `t` are those of the bars up to `t`. -/
theorem AgreeUpTo.cutAt_moments (hrows : Increasing rows) (hrows' : Increasing rows')
    (h : AgreeUpTo t rows rows') : cutAt (fun m => m.bar.openTime) t (moments rows) =
      cutAt (fun m => m.bar.openTime) t (moments rows') := by
  obtain ⟨pre, rest, rest', rfl, rfl, hpre, hrest, hrest'⟩ := h.exists_common hrows hrows'
  obtain ⟨later, heq, hlater⟩ := exists_moments_append pre rest
  obtain ⟨later', heq', hlater'⟩ := exists_moments_append pre rest'
  have hmoments : ∀ m ∈ moments pre, m.bar.openTime ≤ t := fun m hm =>
    hpre _ (bar_mem_of_moments hm)
  rw [heq, heq', cutAt_append hmoments fun m hm => hrest _ (hlater m hm),
    cutAt_append hmoments fun m hm => hrest' _ (hlater' m hm)]

end Agree

/-! ## 3. `run` -/

section Run

variable {signalFn : List (Candle T X) → Signal} {costs : Costs} {initialEquity : ℚ}
  {candles : List (Candle T X)}

omit [LinearOrder T] in
/-- A turn closes at most one trade, at its bar. -/
theorem appends_turn : Appends (fun s => s.account.trades) (fun trade => trade.exitTime)
    (fun m => m.bar.openTime) (turn signalFn costs) (moments candles) := by
  intro s m _ s' h
  obtain ⟨mid, hact, rfl⟩ := turn_eq_ok_iff.mp h
  rcases act_cases hact with rfl | ⟨pos, -, -, -, rfl⟩ | ⟨pos, exit, -, -, -, rfl⟩
  · exact ⟨[], by simp, fun o ho => by cases ho⟩
  · exact ⟨[], by simp, fun o ho => by cases ho⟩
  · exact ⟨[closedTrade costs pos m.bar exit ""], by simp, by simp [closedTrade]⟩

omit [LinearOrder T] in
theorem trades_of_run {r : BacktestResult T} (h : run signalFn costs initialEquity candles = .ok r) :
    ∃ s, (moments candles).foldlM (turn signalFn costs) (.start initialEquity) = .ok s ∧
      r.trades = s.account.trades := by
  obtain ⟨s, hs, hsummary⟩ := bind_eq_ok_iff.mp h
  obtain ⟨total, -, hr⟩ := bind_eq_ok_iff.mp hsummary
  cases hr
  exact ⟨s, hs, rfl⟩

theorem run_causal : RunCausal signalFn costs initialEquity := by
  intro candles candles' t hrows hrows' hagree
  have hsame : runUntil signalFn costs initialEquity t candles =
      runUntil signalFn costs initialEquity t candles' := by
    rw [runUntil, runUntil, hagree.cutAt_moments hrows hrows']
  refine ⟨hsame, fun r r' hr hr' => ?_⟩
  obtain ⟨s, hs, htrades⟩ := trades_of_run hr
  obtain ⟨s', hs', htrades'⟩ := trades_of_run hr'
  have hout := out_cutAt_eq appends_turn appends_turn (inOrder_moments hrows)
    (inOrder_moments hrows') hsame hs hs'
  rw [htrades, htrades']
  exact hout

omit [LinearOrder T] in
theorem Accounted.book {a : Account T} (h : Accounted initialEquity a) (trade : Trade T) :
    Accounted initialEquity (a.book trade) := by
  simp only [Accounted, Account.book_equity, Account.book_trades, List.map_append, List.map_cons,
    List.map_nil, List.sum_append, List.sum_cons, List.sum_nil, add_zero] at h ⊢
  rw [h, add_assoc]

omit [LinearOrder T] in
theorem run_accounted {s : RunState T} (h : RunPoint signalFn costs initialEquity candles s) :
    Accounted initialEquity s.account := by
  obtain ⟨done, -, hdone⟩ := h
  refine foldlM_keeps (I := fun _ s => Accounted initialEquity s.account) ?_ ?_ hdone
  · simp [Accounted, RunState.start, Account.start]
  · intro _ m s s' hs hturn
    obtain ⟨mid, hact, rfl⟩ := turn_eq_ok_iff.mp hturn
    rcases act_cases hact with rfl | ⟨pos, -, -, -, rfl⟩ | ⟨pos, exit, -, -, -, rfl⟩
    · exact hs
    · exact hs
    · exact hs.book _

end Run

/-! ## 4. `run_multi_asset` -/

section MultiAsset

variable {signalFn : String → List (Candle T X) → Signal} {universeFn : Option (T → Finset String)}
  {costs : Costs} {initialEquity : ℚ} {maxPositions : ℤ} {candles candles' : CandlesBySymbol T X}
  {t ts : T}

/-- The same is due at a time. -/
structure SameAt (candles candles' : CandlesBySymbol T X) (ts : T) : Prop where
  due : due candles ts = due candles' ts
  moment : ∀ p ∈ Backtest.due candles ts, moment? (rowsOf candles (ofLex p).1) (ofLex p).2 =
    moment? (rowsOf candles' (ofLex p).1) (ofLex p).2

section Agreeing

variable (hrows : ∀ symbol, Increasing (rowsOf candles symbol))
  (hrows' : ∀ symbol, Increasing (rowsOf candles' symbol))
  (hagree : ∀ symbol, AgreeUpTo t (rowsOf candles symbol) (rowsOf candles' symbol))

include hrows hrows' hagree

theorem mem_due_of_agree (hts : ts ≤ t) {p : String ×ₗ ℕ} (hp : p ∈ due candles ts) :
    p ∈ due candles' ts := by
  obtain ⟨m, hm, rfl⟩ := mem_due.mp hp
  exact mem_due.mpr ⟨m, (hagree _).moment? (hrows _) (hrows' _) hm hts, rfl⟩

theorem sameAt_of_agree (hts : ts ≤ t) : SameAt candles candles' ts := by
  refine ⟨?_, fun p hp => ?_⟩
  · refine eq_of_sorted (pairwise_sorted _) (pairwise_sorted _) nodup_due nodup_due fun p => ?_
    exact ⟨mem_due_of_agree hrows hrows' hagree hts,
      mem_due_of_agree hrows' hrows (fun symbol => (hagree symbol).symm) hts⟩
  · obtain ⟨m, hm, rfl⟩ := mem_due.mp hp
    rw [hm, (hagree _).moment? (hrows _) (hrows' _) hm hts]

theorem mem_times_of_agree (hts : ts ≤ t) (h : ts ∈ times candles) : ts ∈ times candles' := by
  obtain ⟨p, hp⟩ := mem_times.mp h
  exact mem_times.mpr ⟨p, mem_due_of_agree hrows hrows' hagree hts hp⟩

theorem cutAt_times : cutAt id t (times candles) = cutAt id t (times candles') := by
  rw [cutAt_eq_filter inOrder_times, cutAt_eq_filter inOrder_times]
  refine eq_of_sorted ((pairwise_sorted _).filter _) ((pairwise_sorted _).filter _)
    (nodup_times.filter _) (nodup_times.filter _) fun ts => ?_
  rw [List.mem_filter, List.mem_filter]
  constructor
  · rintro ⟨hmem, hts⟩
    exact ⟨mem_times_of_agree hrows hrows' hagree (of_decide_eq_true hts) hmem, hts⟩
  · rintro ⟨hmem, hts⟩
    exact ⟨mem_times_of_agree hrows' hrows (fun symbol => (hagree symbol).symm)
      (of_decide_eq_true hts) hmem, hts⟩

end Agreeing

/-- The universe says the same of a symbol that is due. -/
theorem SameAt.active (h : SameAt candles candles' ts) {p : String ×ₗ ℕ}
    (hp : p ∈ Backtest.due candles ts) : (ofLex p).1 ∈ active universeFn candles ts ↔
      (ofLex p).1 ∈ Backtest.active universeFn candles' ts := by
  cases universeFn with
  | none => exact iff_of_true (mem_keys_of_due hp) (mem_keys_of_due (h.due ▸ hp))
  | some members => exact Iff.rfl

theorem SameAt.exitOne (h : SameAt candles candles' ts) {p : String ×ₗ ℕ}
    (hp : p ∈ Backtest.due candles ts) (s : Portfolio T) :
    exitOne signalFn universeFn costs candles ts s p =
      Backtest.exitOne signalFn universeFn costs candles' ts s p := by
  simp only [Backtest.exitOne, h.moment p hp, h.active hp]

theorem SameAt.enterOne (h : SameAt candles candles' ts) {p : String ×ₗ ℕ}
    (hp : p ∈ Backtest.due candles ts) (s : Portfolio T) :
    enterOne signalFn universeFn costs maxPositions candles ts s p =
      Backtest.enterOne signalFn universeFn costs maxPositions candles' ts s p := by
  simp only [Backtest.enterOne, h.moment p hp, h.active hp]

/-- The same is done at a time at which the same is due. -/
theorem SameAt.turnAt (h : SameAt candles candles' ts) (s : Portfolio T) :
    turnAt signalFn universeFn costs maxPositions candles s ts =
      Backtest.turnAt signalFn universeFn costs maxPositions candles' s ts := by
  have hexits := List.foldl_ext (Backtest.exitOne signalFn universeFn costs candles ts)
    (Backtest.exitOne signalFn universeFn costs candles' ts) s
    fun s p hp => h.exitOne hp s
  have henters := fun s => foldlM_congr (s := s)
    (f := Backtest.enterOne signalFn universeFn costs maxPositions candles ts)
    (g := Backtest.enterOne signalFn universeFn costs maxPositions candles' ts)
    fun s p hp => h.enterOne hp s
  rw [Backtest.turnAt, Backtest.turnAt, ← h.due, hexits]
  simp only [henters]

/-- The time of a step. -/
def Step.time : Step T → T
  | .exit ts _ => ts
  | .enter ts _ => ts
  | .mark ts => ts

omit [LinearOrder T] in
/-- Nothing is put out. -/
theorem exists_append_nil {O : Type} {P : O → Prop} (xs : List O) :
    ∃ new, xs = xs ++ new ∧ ∀ o ∈ new, P o :=
  ⟨[], by simp, fun o ho => by cases ho⟩

theorem appends_perform_trades : Appends (fun s => s.account.trades) (fun trade => trade.exitTime)
    Step.time (perform signalFn universeFn costs maxPositions candles) (stepsAt candles ts) := by
  intro s x hx s' h
  simp only [stepsAt, List.mem_append, List.mem_map, List.mem_singleton] at hx
  rcases hx with (⟨p, hp, rfl⟩ | ⟨p, hp, rfl⟩) | rfl
  · rcases exitOne_cases (Except.ok.inj h) with rfl | ⟨pos, m, exit, -, hm, -, rfl⟩
    · exact exists_append_nil _
    · have htime : m.bar.openTime = ts := openTime_of_due hp hm
      exact ⟨[closedTrade costs pos m.bar exit (ofLex p).1], rfl, by
        simp [closedTrade, htime, Step.time]⟩
  · rcases enterOne_cases h with rfl | ⟨pos, m, -, -, -, -, -, -, rfl⟩ <;>
      exact exists_append_nil _
  · cases h
    exact exists_append_nil _

theorem appends_perform_curve : Appends (fun s => s.curve) (fun e => e.1) Step.time
    (perform signalFn universeFn costs maxPositions candles) (stepsAt candles ts) := by
  intro s x hx s' h
  simp only [stepsAt, List.mem_append, List.mem_map, List.mem_singleton] at hx
  rcases hx with (⟨p, hp, rfl⟩ | ⟨p, hp, rfl⟩) | rfl
  · rcases exitOne_cases (Except.ok.inj h) with rfl | ⟨pos, m, exit, -, -, -, rfl⟩ <;>
      exact exists_append_nil _
  · rcases enterOne_cases h with rfl | ⟨pos, m, -, -, -, -, -, -, rfl⟩ <;>
      exact exists_append_nil _
  · cases h
    exact ⟨[(ts, s.account.equity)], rfl, by simp [Step.time]⟩

/-- What the steps at a time append, its turn appends. -/
theorem appends_turnAt {O : Type} {out : Portfolio T → List O} {time : O → T}
    (h : ∀ ts, Appends out time Step.time (perform signalFn universeFn costs maxPositions candles)
      (stepsAt candles ts)) :
    Appends out time id (turnAt signalFn universeFn costs maxPositions candles) (times candles) := by
  intro s ts _ s' hs
  rw [turnAt_eq] at hs
  obtain ⟨new, hnew, htimes⟩ := (h ts).foldlM hs
  refine ⟨new, hnew, fun o ho => ?_⟩
  obtain ⟨x, hx, htime⟩ := htimes o ho
  rw [htime]
  simp only [stepsAt, List.mem_append, List.mem_map, List.mem_singleton] at hx
  rcases hx with (⟨p, -, rfl⟩ | ⟨p, -, rfl⟩) | rfl <;> rfl

theorem trades_of_runMultiAsset {r : PortfolioBacktestResult T}
    (h : runMultiAsset signalFn universeFn costs initialEquity maxPositions candles = .ok r) :
    ∃ s, (times candles).foldlM (turnAt signalFn universeFn costs maxPositions candles)
      (.start initialEquity) = .ok s ∧ r.trades = s.account.trades ∧ r.equityCurve = s.curve := by
  obtain ⟨s, hs, hsummary⟩ := bind_eq_ok_iff.mp h
  obtain ⟨total, -, hr⟩ := bind_eq_ok_iff.mp hsummary
  cases hr
  exact ⟨s, hs, rfl, rfl⟩

theorem portfolio_causal :
    PortfolioCausal (X := X) signalFn universeFn costs initialEquity maxPositions := by
  intro candles candles' t hrows hrows' hagree
  have hsame : portfolioUntil signalFn universeFn costs initialEquity maxPositions t candles =
      portfolioUntil signalFn universeFn costs initialEquity maxPositions t candles' := by
    rw [portfolioUntil, portfolioUntil, ← cutAt_times hrows hrows' hagree]
    refine foldlM_congr fun s ts hts => ?_
    exact (sameAt_of_agree hrows hrows' hagree (key_le_of_mem_cutAt hts)).turnAt s
  refine ⟨hsame, fun r r' hr hr' => ?_⟩
  obtain ⟨s, hs, htrades, hcurve⟩ := trades_of_runMultiAsset hr
  obtain ⟨s', hs', htrades', hcurve'⟩ := trades_of_runMultiAsset hr'
  have hout := out_cutAt_eq (appends_turnAt fun ts => appends_perform_trades)
    (appends_turnAt fun ts => appends_perform_trades) inOrder_times inOrder_times hsame hs hs'
  have hpoints := out_cutAt_eq (appends_turnAt fun ts => appends_perform_curve)
    (appends_turnAt fun ts => appends_perform_curve) inOrder_times inOrder_times hsame hs hs'
  rw [htrades, htrades', hcurve, hcurve']
  exact ⟨hout, hpoints⟩

/-- No more positions are open than are allowed. -/
def Bounded (maxPositions : ℤ) (s : Portfolio T) : Prop :=
  (s.positions.entries.length : ℤ) ≤ max maxPositions 0

omit [LinearOrder T] in
/-- **One step** keeps the account and the bound. -/
theorem perform_keeps {s s' : Portfolio T} {x : Step T}
    (hs : Accounted initialEquity s.account ∧ Bounded maxPositions s)
    (h : perform signalFn universeFn costs maxPositions candles s x = .ok s') :
    Accounted initialEquity s'.account ∧ Bounded maxPositions s' := by
  obtain ⟨haccount, hbound⟩ := hs
  cases x with
  | exit ts p =>
    rcases exitOne_cases (Except.ok.inj h) with rfl | ⟨pos, m, exit, -, -, -, rfl⟩
    · exact ⟨haccount, hbound⟩
    · refine ⟨haccount.book _, le_trans ?_ hbound⟩
      exact_mod_cast (List.kerase_sublist _ s.positions.entries).length_le
  | enter ts p =>
    rcases enterOne_cases h with rfl | ⟨pos, m, hnew, -, hroom, -, -, -, rfl⟩
    · exact ⟨haccount, hbound⟩
    · refine ⟨haccount, ?_⟩
      simp only [Bounded, AList.entries_insert_of_notMem hnew, List.length_cons, Nat.cast_add,
        Nat.cast_one]
      omega
  | mark ts =>
    cases h
    exact ⟨haccount, hbound⟩

/-- **At every point** the equity is accounted for and the bound is kept. -/
theorem portfolio_accounted {s : Portfolio T}
    (h : PortfolioPoint signalFn universeFn costs initialEquity maxPositions candles s) :
    Accounted initialEquity s.account ∧ Bounded maxPositions s := by
  obtain ⟨done, -, hdone⟩ := h
  refine foldlM_keeps
    (I := fun _ s => Accounted initialEquity s.account ∧ Bounded maxPositions s) ?_ ?_ hdone
  · exact ⟨by simp [Accounted, Portfolio.start, Account.start], le_max_right _ _⟩
  · exact fun _ x s s' hs hx => perform_keeps hs hx

end MultiAsset

/-! ## 5. The result -/

/-- **Backtests are causal**, and their accounts are in order. -/
theorem causal_and_accounted (costs : Costs) (initialEquity : ℚ) :
    (∀ signalFn : List (Candle T X) → Signal, RunCausal signalFn costs initialEquity) ∧
    (∀ (signalFn : String → List (Candle T X) → Signal) universeFn maxPositions,
      PortfolioCausal signalFn universeFn costs initialEquity maxPositions) ∧
    (∀ (signalFn : List (Candle T X) → Signal) candles s,
      RunPoint signalFn costs initialEquity candles s → Accounted initialEquity s.account) ∧
    ∀ (signalFn : String → List (Candle T X) → Signal) universeFn maxPositions candles s,
      PortfolioPoint signalFn universeFn costs initialEquity maxPositions candles s →
      Accounted initialEquity s.account ∧ Bounded maxPositions s :=
  ⟨fun _ => run_causal, fun _ _ _ => portfolio_causal, fun _ _ _ => run_accounted,
    fun _ _ _ _ _ => portfolio_accounted⟩

/-- A strategy that buys at 100 is stopped by the third bar and buys again; the last bar falls to
`low`. -/
def stoppedBars (low : ℚ) : List (Candle ℕ Unit) :=
  [⟨0, 100, 101, 99, none, ()⟩, ⟨1, 100, 101, 99, none, ()⟩, ⟨2, 100, 101, 90, none, ()⟩,
    ⟨3, 100, 101, 99, none, ()⟩, ⟨4, 100, 101, low, none, ()⟩]

def stoppedBySymbol (low : ℚ) : CandlesBySymbol ℕ Unit :=
  AList.insert "BTC" (stoppedBars low) (AList.insert "ETH" (stoppedBars 99) ∅)

theorem causal_and_accounted_stopped :
    (∃ r r', run (fun _ => .BUY) {} 10000 (stoppedBars 99) = .ok r ∧
      run (fun _ => .BUY) {} 10000 (stoppedBars 70) = .ok r' ∧ r.trades.length = 1 ∧
      r'.trades.length = 2 ∧ tradesUpTo 3 r.trades = tradesUpTo 3 r'.trades) ∧
    (∃ r r', runMultiAsset (fun _ _ => .BUY) none {} 10000 1 (stoppedBySymbol 99) = .ok r ∧
      runMultiAsset (fun _ _ => .BUY) none {} 10000 1 (stoppedBySymbol 70) = .ok r' ∧
      r.trades.length = 1 ∧ r'.trades.length = 2 ∧
      tradesUpTo 3 r.trades = tradesUpTo 3 r'.trades) ∧
    (∃ s : RunState ℕ, s.account.trades.length = 2 ∧ Accounted 10000 s.account) ∧
    ∃ s : Portfolio ℕ, s.positions.keys = ["BTC"] ∧ s.account.trades.length = 1 ∧
      Accounted 10000 s.account ∧ Bounded 1 s := by
  obtain ⟨hrun, hportfolio, hpoint, hportfolioPoint⟩ :=
    causal_and_accounted (T := ℕ) (X := Unit) {} 10000
  have hrows : ∀ low, Increasing (stoppedBars low) := fun low => by
    simp [Increasing, stoppedBars]
  have hrowsOf : ∀ low symbol, Increasing (rowsOf (stoppedBySymbol low) symbol) := by
    intro low symbol
    rw [rowsOf, stoppedBySymbol]
    by_cases hbtc : symbol = "BTC"
    · rw [hbtc, AList.lookup_insert]
      exact hrows low
    rw [AList.lookup_insert_ne hbtc]
    by_cases heth : symbol = "ETH"
    · rw [heth, AList.lookup_insert]
      exact hrows 99
    rw [AList.lookup_insert_ne heth]
    exact List.Pairwise.nil
  have hagree : AgreeUpTo 3 (stoppedBars 99) (stoppedBars 70) := by
    simp [AgreeUpTo, stoppedBars]
  have hagreeOf : ∀ symbol,
      AgreeUpTo 3 (rowsOf (stoppedBySymbol 99) symbol) (rowsOf (stoppedBySymbol 70) symbol) := by
    intro symbol
    by_cases hbtc : symbol = "BTC"
    · rw [hbtc, rowsOf, rowsOf, stoppedBySymbol, stoppedBySymbol, AList.lookup_insert,
        AList.lookup_insert]
      exact hagree
    · rw [rowsOf, rowsOf, stoppedBySymbol, stoppedBySymbol, AList.lookup_insert_ne hbtc,
        AList.lookup_insert_ne hbtc]
      rfl
  refine ⟨?_, ?_, ?_, ?_⟩
  · obtain ⟨r, hr, hlength⟩ := map_eq_ok_iff.mp (show (run (fun _ => .BUY) {} 10000
      (stoppedBars 99)).map (fun r => r.trades.length) = .ok 1 by decide +kernel)
    obtain ⟨r', hr', hlength'⟩ := map_eq_ok_iff.mp (show (run (fun _ => .BUY) {} 10000
      (stoppedBars 70)).map (fun r => r.trades.length) = .ok 2 by decide +kernel)
    exact ⟨r, r', hr, hr', hlength, hlength',
      (hrun _ _ _ 3 (hrows 99) (hrows 70) hagree).2 r r' hr hr'⟩
  · obtain ⟨r, hr, hlength⟩ := map_eq_ok_iff.mp (show (runMultiAsset (fun _ _ => .BUY) none {} 10000
      1 (stoppedBySymbol 99)).map (fun r => r.trades.length) = .ok 1 by decide +kernel)
    obtain ⟨r', hr', hlength'⟩ := map_eq_ok_iff.mp (show (runMultiAsset (fun _ _ => .BUY) none {}
      10000 1 (stoppedBySymbol 70)).map (fun r => r.trades.length) = .ok 2 by decide +kernel)
    exact ⟨r, r', hr, hr', hlength, hlength',
      ((hportfolio _ _ _ _ _ 3 (hrowsOf 99) (hrowsOf 70) hagreeOf).2 r r' hr hr').1⟩
  · obtain ⟨s, hs, hlength⟩ := map_eq_ok_iff.mp (show ((moments (stoppedBars 70)).foldlM
      (turn (fun _ => .BUY) {}) (.start 10000)).map (fun s => s.account.trades.length) = .ok 2 by
        decide +kernel)
    exact ⟨s, hlength, hpoint _ _ s ⟨_, List.prefix_refl _, hs⟩⟩
  · obtain ⟨s, hs, hs'⟩ := map_eq_ok_iff.mp (show ((steps (stoppedBySymbol 99)).foldlM
      (perform (fun _ _ => .BUY) none {} 1 (stoppedBySymbol 99)) (.start 10000)).map
        (fun s => (s.positions.keys, s.account.trades.length)) = .ok (["BTC"], 1) by
          decide +kernel)
    obtain ⟨hkeys, hlength⟩ := Prod.mk.inj hs'
    obtain ⟨haccounted, hbounded⟩ := hportfolioPoint _ _ _ _ s ⟨_, List.prefix_refl _, hs⟩
    exact ⟨s, hkeys, hlength, haccounted, hbounded⟩

/-- With `max_positions = -1` there are more positions open: none. -/
theorem none_below_zero : ¬ ∀ (maxPositions : ℤ) (s : Portfolio ℕ),
    PortfolioPoint (fun _ (_ : List (Candle ℕ Unit)) => .HOLD) none {} 10000 maxPositions ∅ s →
      (s.positions.entries.length : ℤ) ≤ maxPositions := by
  intro h
  have hstart := h (-1) (.start 10000) ⟨[], List.nil_prefix, rfl⟩
  exact absurd hstart (by decide)

end Kripto.Backtest
