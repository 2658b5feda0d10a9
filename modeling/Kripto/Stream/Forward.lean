/-
# Orders only move forward

What a sequence of events can do to the orders a projector has recorded.

* `orders_move_forward`: an order's quantity and time never decrease and a terminal status stays;
  `order_states` says what `order_progress` says; a trade id that is not empty is applied at most
  once; and an event that is not applied changes nothing.

An empty trade id counts as none (`empty_trade_repeated`).
-/
import Kripto.Effect.Object
import Kripto.Stream.Projector
import Mathlib.Algebra.Order.Ring.Rat

namespace Kripto.Stream

open Effect PrivateStreamProjector

variable {s t u : PrivateStreamProjector} {event : ExecutionReport} {p q r : Progress}

/-! ## 1. Entries -/

/-- The entry a report makes. -/
def entryOf (event : ExecutionReport) : Progress :=
  ⟨event.orderStatus, event.cumulativeQty, event.eventTimeMs⟩

/-- An order may go from `p` to `q`. -/
structure Progress.Onward (p q : Progress) : Prop where
  qty : p.qty ≤ q.qty
  time : p.time ≤ q.time
  terminal : p.status ∈ TERMINAL → q.status = p.status
  rank : q.qty = p.qty → rank p.status ≤ rank q.status

namespace Progress.Onward

theorem refl (p : Progress) : p.Onward p := ⟨le_rfl, le_rfl, fun _ => rfl, fun _ => le_rfl⟩

theorem trans (h : p.Onward q) (h' : q.Onward r) : p.Onward r where
  qty := h.qty.trans h'.qty
  time := h.time.trans h'.time
  terminal hp := by
    have hq := h.terminal hp
    rw [← hq]
    exact h'.terminal (hq ▸ hp)
  rank heq := by
    have hpq : q.qty = p.qty := le_antisymm (heq ▸ h'.qty) h.qty
    exact (h.rank hpq).trans (h'.rank (heq.trans hpq.symm))

end Progress.Onward

/-- A report that nothing is objected to moves its order onward. -/
theorem onward_of_unobjected (h : objection p event = none) : p.Onward (entryOf event) := by
  unfold objection at h
  split_ifs at h with hstale hterminal hrank hsame
  obtain ⟨htime, hqty⟩ := not_or.mp hstale
  refine ⟨not_lt.mp hqty, not_lt.mp htime, fun hp => ?_, fun heq => ?_⟩
  · exact not_not.mp fun hne => hterminal ⟨hp, hne⟩
  · exact not_lt.mp fun hlt => hrank ⟨hlt, heq.le⟩

/-! ## 2. Steps -/

/-- Every order `s` has an entry of has one in `t`, and has moved onward. -/
def Advances (s t : PrivateStreamProjector) : Prop :=
  ∀ a p, s.orderProgress.lookup a = some p →
    ∃ q, t.orderProgress.lookup a = some q ∧ p.Onward q

theorem Advances.refl (s : PrivateStreamProjector) : Advances s s :=
  fun _ p hp => ⟨p, hp, .refl p⟩

theorem Advances.trans (h : Advances s t) (h' : Advances t u) : Advances s u := by
  intro a p hp
  obtain ⟨q, hq, hpq⟩ := h a p hp
  obtain ⟨r, hr, hqr⟩ := h' a q hq
  exact ⟨r, hr, hpq.trans hqr⟩

@[simp] theorem lookup_applied_self : (s.applied event).orderProgress.lookup event.clientOrderId =
    some (entryOf event) := AList.lookup_insert _

theorem lookup_applied_ne {a : String} (h : a ≠ event.clientOrderId) :
    (s.applied event).orderProgress.lookup a = s.orderProgress.lookup a :=
  AList.lookup_insert_ne h

theorem advances_applied (h : s.Accepts event) : Advances s (s.applied event) := by
  intro a p hp
  by_cases ha : a = event.clientOrderId
  · subst ha
    exact ⟨entryOf event, lookup_applied_self, onward_of_unobjected (h.unobjected p hp)⟩
  · exact ⟨p, by rwa [lookup_applied_ne ha], .refl p⟩

theorem advances_project (s : PrivateStreamProjector) (k : UserEvent) :
    Advances s (s.project k).2 := by
  rcases project_cases s k with ⟨heq, -⟩ | ⟨event, -, haccepts, heq⟩ | ⟨-, -, hsame⟩
  · rw [heq]
    exact .refl s
  · rw [heq]
    exact advances_applied haccepts
  · intro a p hp
    exact ⟨p, by rwa [hsame.orderProgress], .refl p⟩

/-- `order_states` is the statuses of `order_progress`. -/
def StatesAgree (s : PrivateStreamProjector) : Prop :=
  ∀ a, s.orderStates.lookup a = (s.orderProgress.lookup a).map (·.status)

theorem statesAgree_project (h : StatesAgree s) (k : UserEvent) : StatesAgree (s.project k).2 := by
  rcases project_cases s k with ⟨heq, -⟩ | ⟨event, -, -, heq⟩ | ⟨-, -, hsame⟩
  · rwa [heq]
  · rw [heq]
    intro a
    by_cases ha : a = event.clientOrderId
    · subst ha
      simp [applied]
    · simp only [applied, AList.lookup_insert_ne ha]
      exact h a
  · intro a
    rw [hsame.orderStates, hsame.orderProgress]
    exact h a

/-- An event that is not applied changes nothing. -/
theorem project_eq_self (s : PrivateStreamProjector) {k : UserEvent}
    (h : (s.project k).1.action.changes = false) : (s.project k).2 = s := by
  rcases project_cases s k with ⟨heq, -⟩ | ⟨event, -, -, heq⟩ | ⟨-, hchanges, -⟩
  · exact heq
  · rw [heq] at h
    cases h
  · rw [hchanges] at h
    cases h

/-! ## 3. Runs -/

/-- A projector with the events it was fed and the results. -/
abbrev Projection : Type := Log PrivateStreamProjector UserEvent ProjectionResult

/-- A new projector is fed these events. -/
def projection (clientOrderPrefix : String) (events : List UserEvent) : Projection :=
  (Log.start (fresh clientOrderPrefix)).calls project events

/-- Was this the application of a report with this trade id? -/
def appliesTrade (trade : String) : UserEvent × ProjectionResult → Bool
  | (.executionReport event, result) =>
    result.action = .APPLY_ORDER_EVENT ∧ event.tradeId = some trade
  | _ => false

/-- How often the trade has been applied. -/
def timesApplied (past : List (UserEvent × ProjectionResult)) (trade : String) : ℕ :=
  past.countP (appliesTrade trade)

theorem advances_calls (l : Projection) (events : List UserEvent) :
    Advances l.now (l.calls project events).now :=
  Log.now_keeps (fun s k h => h.trans (advances_project s k)) (.refl l.now) events

/-- A trade has been applied once, and is remembered, or not at all. -/
def TradesOnce (l : Projection) : Prop :=
  ∀ trade ≠ "", timesApplied l.past trade = 0 ∨
    timesApplied l.past trade = 1 ∧ trade ∈ l.now.seenTrades

theorem mem_addTrade {seenTrades : Finset String} {trade : String} (h : trade ≠ "") :
    trade ∈ addTrade seenTrades (some trade) := by
  simp [addTrade, h]

theorem tradesOnce_call {l : Projection} (h : TradesOnce l) (k : UserEvent) :
    TradesOnce (l.call project k) := by
  intro trade hne
  have hcount : timesApplied (l.call project k).past trade = timesApplied l.past trade +
      if appliesTrade trade (k, (l.now.project k).1) then 1 else 0 := by
    simp [timesApplied, List.countP_append, List.countP_singleton]
  rw [hcount]
  rcases project_cases l.now k with ⟨heq, hchanges⟩ | ⟨event, rfl, haccepts, heq⟩ | ⟨hact, -, hsame⟩
  · have hnot : appliesTrade trade (k, (l.now.project k).1) = false := by
      unfold appliesTrade
      split
      · rename_i event result hpair
        cases hpair
        refine decide_eq_false fun happly => ?_
        rw [happly.1] at hchanges
        cases hchanges
      · rfl
    simpa [hnot, heq] using h trade hne
  · have happly : appliesTrade trade (.executionReport event, appliedResult event) =
        decide (event.tradeId = some trade) := by simp [appliesTrade, appliedResult]
    rw [heq, happly, Log.call_now, heq]
    by_cases hid : event.tradeId = some trade
    · have hunseen : trade ∉ l.now.seenTrades := fun hmem => by
        have hseen : l.now.hasSeen event = true := hasSeen_iff.mpr ⟨trade, hid, hne, hmem⟩
        rw [haccepts.unseen] at hseen
        cases hseen
      have hzero : timesApplied l.past trade = 0 :=
        (h trade hne).resolve_right fun hone => hunseen hone.2
      refine .inr ⟨by simp [hid, hzero], ?_⟩
      rw [applied, hid]
      exact mem_addTrade hne
    · rcases h trade hne with hzero | ⟨hone, hmem⟩
      · exact .inl (by simp [hid, hzero])
      · exact .inr ⟨by simp [hid, hone], subset_addTrade _ _ hmem⟩
  · have hnot : appliesTrade trade (k, (l.now.project k).1) = false := by
      unfold appliesTrade
      split
      · rename_i event result hpair
        cases hpair
        exact decide_eq_false fun happly => hact happly.1
      · rfl
    rw [hnot, Log.call_now, hsame.seenTrades]
    simpa using h trade hne

/-- **Orders only move forward**, whatever the events and their order. -/
theorem orders_move_forward (clientOrderPrefix : String) (events : List UserEvent) :
    (∀ earlier later, events = earlier ++ later →
      Advances (projection clientOrderPrefix earlier).now
        (projection clientOrderPrefix events).now) ∧
    StatesAgree (projection clientOrderPrefix events).now ∧
    (∀ trade ≠ "", timesApplied (projection clientOrderPrefix events).past trade ≤ 1) ∧
    ∀ k, ((projection clientOrderPrefix events).now.project k).1.action.changes = false →
      ((projection clientOrderPrefix events).now.project k).2 =
        (projection clientOrderPrefix events).now := by
  refine ⟨?_, ?_, ?_, fun k => project_eq_self _⟩
  · rintro earlier later rfl
    rw [projection, projection, Log.calls_append]
    exact advances_calls _ later
  · have hstart : StatesAgree (fresh clientOrderPrefix) := fun _ => rfl
    exact Log.now_keeps (P := StatesAgree) (fun _ k h => statesAgree_project h k) hstart events
  · intro trade hne
    have hstart : TradesOnce (Log.start (fresh clientOrderPrefix)) := fun _ _ => .inl rfl
    have honce : TradesOnce (projection clientOrderPrefix events) :=
      Log.run_keeps (I := TradesOnce) (fun _ k h => tradesOnce_call h k) hstart events
    rcases honce trade hne with hzero | ⟨hone, -⟩
    · omega
    · omega

/-! ## 4. The empty trade id -/

/-- A report about the order ctp-1. -/
def reportOf (orderStatus : String) (cumulativeQty : ℚ) (tradeId : Option String)
    (eventTimeMs : ℤ) : ExecutionReport :=
  { symbol := "BTCUSDT", clientOrderId := "ctp-1", side := "BUY", orderType := "LIMIT"
    executionType := "TRADE", orderStatus, exchangeOrderId := "1", lastQty := 1, cumulativeQty
    lastPrice := 1, fee := 0, feeAsset := none, tradeId, eventTimeMs }

/-- Two fills whose trade id is the empty text. -/
def emptyTrades : List UserEvent :=
  [.executionReport (reportOf "PARTIALLY_FILLED" 1 (some "") 1000),
    .executionReport (reportOf "FILLED" 2 (some "") 2000)]

/-- **The empty trade id is applied twice.** -/
theorem empty_trade_repeated :
    ¬ ∀ (clientOrderPrefix : String) (events : List UserEvent) (trade : String),
      timesApplied (projection clientOrderPrefix events).past trade ≤ 1 := by
  intro h
  have htwice := h defaultPrefix emptyTrades ""
  revert htwice
  decide

end Kripto.Stream
