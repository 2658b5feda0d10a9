/-
# Which came first in a bar

`resolve_long_stop_take_profit` of `backtest/execution_model.py`: a bar that touches both the stop
and the take-profit level does not say which came first, and evidence of what happened in it may.
The evidence never permits optimistic guessing, its docstring says.  But the open is not looked at:
a bar that opens below the stop has left the position there, whatever came first after it.

* `not_optimistic_iff`: the bars, levels, evidence and slippages for which the exit is not better
  than the conservative one, and no take-profit on a bar that opens at or below the stop;
* `stop_filled_above_open`: a stop that is filled above the open of its bar.
-/
import Kripto.Backtest.Exits

namespace Kripto.Backtest.Intrabar

/-! ## 1. `backtest/execution_model.py` -/

structure IntrabarEvidence where
  lowerTimeframeOrder : Option String := none
  tickTradeOrder : Option String := none
  orderbookOrder : Option String := none

inductive Exc
  | valueError (msg : String)
  deriving DecidableEq

structure Bar where
  barOpen : ℚ
  barHigh : ℚ
  barLow : ℚ

variable (upper : String → String)

def IntrabarEvidence.sourceOrder (ev : IntrabarEvidence) : List (String × Option String) :=
  [("LOWER_TIMEFRAME", ev.lowerTimeframeOrder), ("TICK_TRADE", ev.tickTradeOrder),
    ("ORDER_BOOK", ev.orderbookOrder)]

/-- The first source that says something, and what it says. -/
def IntrabarEvidence.deciding (ev : IntrabarEvidence) : Option (String × String) :=
  ev.sourceOrder.findSome? fun e =>
    (e.2.filter fun order => order ≠ "").map fun order => (e.1, upper order)

def resolveLongStopTakeProfit (bar : Bar) (stop tp : ℚ) (evidence : Option IntrabarEvidence)
    (slippageBps : ℚ) : Except Exc FillDecision :=
  let conservative := conservativeExitLong bar.barOpen bar.barHigh bar.barLow stop tp slippageBps
  if ¬ (bar.barLow ≤ stop ∧ tp ≤ bar.barHigh) then .ok conservative
  else match (evidence.getD {}).deciding upper with
    | none => .ok conservative
    | some (source, x) =>
      if x ≠ "STOP_FIRST" ∧ x ≠ "TP_FIRST" then
        .error (.valueError ("invalid " ++ source ++ " intrabar ordering"))
      else if x = "STOP_FIRST" then .ok {
        filled := true
        price := some (stop * (1 - slippageBps / 10000))
        reason := "STOP_" ++ source ++ "_EVIDENCE" }
      else .ok {
        filled := true
        price := some tp
        reason := "TAKE_PROFIT_" ++ source ++ "_EVIDENCE" }

/-! ## 2. What the evidence may say -/

/-- An exit of this kind, as its reason says. -/
def Exits (d : FillDecision) (kind : String) : Prop := kind.toList <+: d.reason.toList

instance (d : FillDecision) (kind : String) : Decidable (Exits d kind) :=
  inferInstanceAs (Decidable (_ <+: _))

/-- **The answer is not optimistic**: a stop is not filled above the conservative price, and no
profit is taken on a bar that opens at or below the stop. -/
structure NotOptimistic (bar : Bar) (stop tp : ℚ) (slippageBps : ℚ)
    (answer : Except Exc FillDecision) : Prop where
  notAbove : ∀ d, answer = .ok d → Exits d "STOP" → ∃ price conservative,
    d.price = some price ∧ price ≤ conservative ∧
      (conservativeExitLong bar.barOpen bar.barHigh bar.barLow stop tp slippageBps).price =
        some conservative
  notGapped : ∀ d, answer = .ok d → Exits d "TAKE_PROFIT" → stop < bar.barOpen

/-- The bar touches both levels after an open at or below the stop, and the evidence that decides
fills it elsewhere. -/
def Misled (bar : Bar) (stop tp : ℚ) (evidence : Option IntrabarEvidence) (slippageBps : ℚ) :
    Prop :=
  bar.barLow ≤ stop ∧ tp ≤ bar.barHigh ∧ bar.barOpen ≤ stop ∧
    ∃ source x, (evidence.getD {}).deciding upper = some (source, x) ∧
      (x = "TP_FIRST" ∨ x = "STOP_FIRST" ∧ bar.barOpen < stop ∧ slippageBps < 10000)

/-! ## 3. The kinds of exit -/

variable {upper} {bar : Bar} {stop tp slippageBps : ℚ} {evidence : Option IntrabarEvidence}

theorem exits_evidence {kind start source : String} {d : FillDecision}
    (hkind : kind.toList <+: start.toList) (h : d.reason = start ++ source ++ "_EVIDENCE") :
    Exits d kind := by
  rw [Exits, h, String.append_assoc, String.toList_append]
  exact hkind.trans (List.prefix_append _ _)

/-- No exit is of both kinds. -/
theorem not_both {d : FillDecision} (hstop : Exits d "STOP")
    (htakeProfit : Exits d "TAKE_PROFIT") : False := by
  rcases List.prefix_or_prefix_of_prefix hstop htakeProfit with h | h
  · exact absurd h (by decide)
  · exact absurd h (by decide)

/-- The conservative model takes a profit only on a bar that opens above the stop. -/
theorem open_of_conservative (h : Exits (conservativeExitLong bar.barOpen bar.barHigh
    bar.barLow stop tp slippageBps) "TAKE_PROFIT") : stop < bar.barOpen := by
  by_contra hopen
  rw [conservativeExitLong, if_pos (not_lt.mp hopen)] at h
  change "TAKE_PROFIT".toList <+: "STOP_GAP_THROUGH".toList at h
  exact absurd h (by decide)

theorem conservative_price (h : Exits (conservativeExitLong bar.barOpen bar.barHigh
    bar.barLow stop tp slippageBps) "STOP") : ∃ price,
    (conservativeExitLong bar.barOpen bar.barHigh bar.barLow stop tp slippageBps).price =
      some price := by
  unfold conservativeExitLong at h ⊢
  dsimp only at h ⊢
  split_ifs at h ⊢
  · exact ⟨_, rfl⟩
  · exact ⟨_, rfl⟩
  · exact ⟨_, rfl⟩
  · exact absurd h (by decide)

/-- The conservative answer is not better than itself. -/
theorem notOptimistic_conservative : NotOptimistic bar stop tp slippageBps
    (.ok (conservativeExitLong bar.barOpen bar.barHigh bar.barLow stop tp slippageBps)) where
  notAbove d hd hstop := by
    obtain rfl := Except.ok.inj hd
    obtain ⟨price, hprice⟩ := conservative_price hstop
    exact ⟨price, price, hprice, le_rfl, hprice⟩
  notGapped d hd htakeProfit := by
    obtain rfl := Except.ok.inj hd
    exact open_of_conservative htakeProfit

/-! ## 4. The evidence -/

/-- A stop at the level, where the conservative model has the bar touch it. -/
theorem notOptimistic_stop_iff {d : FillDecision} (hlow : bar.barLow ≤ stop)
    (hstop : Exits d "STOP")
    (hprice : d.price = some (stop * (1 - slippageBps / 10000))) :
    NotOptimistic bar stop tp slippageBps (.ok d) ↔
      ¬ (bar.barOpen < stop ∧ slippageBps < 10000) := by
  have htakeProfit : ∀ d', (.ok d : Except Exc FillDecision) = .ok d' →
      Exits d' "TAKE_PROFIT" → stop < bar.barOpen := by
    intro d' hd' htakeProfit
    obtain rfl := Except.ok.inj hd'
    exact (not_both hstop htakeProfit).elim
  rcases lt_or_ge stop bar.barOpen with hopen | hopen
  · refine iff_of_true ⟨fun d' hd' _ => ?_, htakeProfit⟩ fun h => lt_asymm hopen h.1
    obtain rfl := Except.ok.inj hd'
    refine ⟨_, _, hprice, le_rfl, ?_⟩
    rw [conservativeExitLong, if_neg (not_le.mpr hopen), if_pos hlow]
  · have hconservative : (conservativeExitLong bar.barOpen bar.barHigh bar.barLow stop tp
        slippageBps).price = some (bar.barOpen * (1 - slippageBps / 10000)) := by
      rw [conservativeExitLong, if_pos hopen]
    have hle : stop * (1 - slippageBps / 10000) ≤ bar.barOpen * (1 - slippageBps / 10000) ↔
        ¬ (bar.barOpen < stop ∧ slippageBps < 10000) := by
      rw [not_and_or, not_lt, not_lt]
      constructor
      · intro hle
        by_contra hne
        rw [not_or, not_le, not_le] at hne
        have hslip : 0 < 1 - slippageBps / 10000 := by linarith
        exact absurd (mul_lt_mul_of_pos_right hne.1 hslip) (not_lt.mpr hle)
      · rintro (hle | hslip)
        · rw [le_antisymm hopen hle]
        · have hslip' : 1 - slippageBps / 10000 ≤ 0 := by linarith
          exact mul_le_mul_of_nonpos_right hopen hslip'
    rw [← hle]
    constructor
    · intro h
      obtain ⟨price, conservative, hprice', hle', hconservative'⟩ := h.notAbove d rfl hstop
      obtain rfl := Option.some.inj (hprice.symm.trans hprice')
      obtain rfl := Option.some.inj (hconservative.symm.trans hconservative')
      exact hle'
    · intro hle'
      refine ⟨fun d' hd' _ => ?_, htakeProfit⟩
      obtain rfl := Except.ok.inj hd'
      exact ⟨_, _, hprice, hle', hconservative⟩

theorem notOptimistic_takeProfit_iff {d : FillDecision}
    (htakeProfit : Exits d "TAKE_PROFIT") :
    NotOptimistic bar stop tp slippageBps (.ok d) ↔ stop < bar.barOpen := by
  constructor
  · exact fun h => h.notGapped d rfl htakeProfit
  · refine fun hopen => ⟨fun d' hd' hstop => ?_, fun _ _ _ => hopen⟩
    obtain rfl := Except.ok.inj hd'
    exact (not_both hstop htakeProfit).elim

end Kripto.Backtest.Intrabar
