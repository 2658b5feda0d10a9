/-
# A report delivered again

The stream delivers at least once, and the projector answers a repetition with
`IGNORE_IDEMPOTENT`.  A trade id is remembered for good.  A report without one is compared with
the latest entry of its order alone, and that has moved on.

* `redelivery_unchanged_iff`: after any events, a report that was applied earlier changes nothing
  when it is delivered again, exactly if it is not overtaken: it has a trade id, or the latest
  entry of its order is not one of the same time, quantity and rank with another status.

`redelivery_reverts` is an order that was pending and is new, and is pending again.
-/
import Kripto.Stream.Forward

namespace Kripto.Stream

open Effect PrivateStreamProjector

variable {s : PrivateStreamProjector} {event event' : ExecutionReport} {q : Progress}

/-! ## 1. What is left of an applied report -/

/-- `not event.trade_id`. -/
def ExecutionReport.withoutTrade (event : ExecutionReport) : Prop :=
  event.tradeId = none ∨ event.tradeId = some ""

/-- The latest entry of the order has the report's time, quantity and rank, another status, and
is not terminal; and the report has no trade id. -/
def Overtaken (s : PrivateStreamProjector) (event : ExecutionReport) : Prop :=
  event.withoutTrade ∧ ∃ q, s.orderProgress.lookup event.clientOrderId = some q ∧
    q.time = event.eventTimeMs ∧ q.qty = event.cumulativeQty ∧
    rank q.status = rank event.orderStatus ∧ q.status ≠ event.orderStatus ∧
    q.status ∉ TERMINAL

/-- What stays true once the report has been applied. -/
structure Covered (s : PrivateStreamProjector) (event : ExecutionReport) : Prop where
  platform : s.platform event.clientOrderId = true
  trade : ∀ trade, event.tradeId = some trade → trade ≠ "" → trade ∈ s.seenTrades
  entry : ∃ q, s.orderProgress.lookup event.clientOrderId = some q ∧ (entryOf event).Onward q

theorem covered_applied (h : s.Accepts event) : Covered (s.applied event) event where
  platform := h.platform
  trade trade htrade hne := by
    rw [applied, htrade]
    exact mem_addTrade hne
  entry := ⟨entryOf event, lookup_applied_self, .refl _⟩

theorem seenTrades_project (s : PrivateStreamProjector) (k : UserEvent) :
    s.seenTrades ⊆ (s.project k).2.seenTrades := by
  rcases project_cases s k with ⟨heq, -⟩ | ⟨event, -, -, heq⟩ | ⟨-, -, hsame⟩
  · rw [heq]
  · rw [heq]
    exact subset_addTrade _ _
  · rw [hsame.seenTrades]

theorem covered_project (h : Covered s event) (k : UserEvent) :
    Covered (s.project k).2 event := by
  refine ⟨?_, fun trade htrade hne => seenTrades_project s k (h.trade trade htrade hne), ?_⟩
  · have hplatform := h.platform
    unfold platform at hplatform ⊢
    rwa [clientOrderPrefix_project]
  · obtain ⟨p, hp, honward⟩ := h.entry
    obtain ⟨q, hq, hpq⟩ := advances_project s k _ p hp
    exact ⟨q, hq, honward.trans hpq⟩

/-- The reports applied so far are covered. -/
def PastCovered (l : Projection) : Prop :=
  ∀ event result, (.executionReport event, result) ∈ l.past →
    result.action = .APPLY_ORDER_EVENT → Covered l.now event

theorem pastCovered_call {l : Projection} (h : PastCovered l) (k : UserEvent) :
    PastCovered (l.call project k) := by
  intro event result hmem happlied
  rw [Log.call_past, List.mem_append, List.mem_singleton] at hmem
  rcases hmem with hold | hnew
  · exact covered_project (h event result hold happlied) k
  · obtain ⟨rfl, rfl⟩ := Prod.mk.inj hnew
    rcases project_cases l.now (.executionReport event) with
      ⟨-, hchanges⟩ | ⟨event', hevent, haccepts, heq⟩ | ⟨hnot, -, -⟩
    · rw [happlied] at hchanges
      cases hchanges
    · cases hevent
      rw [Log.call_now, heq]
      exact covered_applied haccepts
    · exact absurd happlied hnot

/-! ## 2. Delivered again -/

theorem hasSeen_of_covered (h : Covered s event) :
    s.hasSeen event = true ↔ ¬ event.withoutTrade := by
  rw [hasSeen_iff, ExecutionReport.withoutTrade]
  constructor
  · rintro ⟨trade, htrade, hne, -⟩ hwithout
    simp [htrade, hne] at hwithout
  · intro hwith
    obtain ⟨hsome, hnonempty⟩ := not_or.mp hwith
    obtain ⟨trade, htrade⟩ := Option.ne_none_iff_exists'.mp hsome
    have hne : trade ≠ "" := fun hempty => hnonempty (by rw [htrade, hempty])
    exact ⟨trade, htrade, hne, h.trade trade htrade hne⟩

/-- Something is objected to an overtaken report only if it is not overtaken. -/
theorem overtaken_iff_unobjected (hq : s.orderProgress.lookup event.clientOrderId = some q)
    (honward : (entryOf event).Onward q) (hwithout : event.withoutTrade) :
    Overtaken s event ↔ objection q event = none := by
  have hentry : (∃ q', s.orderProgress.lookup event.clientOrderId = some q' ∧
      q'.time = event.eventTimeMs ∧ q'.qty = event.cumulativeQty ∧
      rank q'.status = rank event.orderStatus ∧ q'.status ≠ event.orderStatus ∧
      q'.status ∉ TERMINAL) ↔ q.time = event.eventTimeMs ∧ q.qty = event.cumulativeQty ∧
      rank q.status = rank event.orderStatus ∧ q.status ≠ event.orderStatus ∧
      q.status ∉ TERMINAL := by
    simp [hq]
  rw [Overtaken, hentry]
  constructor
  · rintro ⟨-, htime, hqty, hrank, hstatus, hopen⟩
    simp [objection, htime, hqty, hrank, hopen, hstatus.symm]
  · intro hnone
    unfold objection at hnone
    split_ifs at hnone with hstale hterminal hrank hsame
    obtain ⟨htime, hqty⟩ := not_or.mp hstale
    have htime' : q.time = event.eventTimeMs := le_antisymm (not_lt.mp htime) honward.time
    have hqty' : q.qty = event.cumulativeQty := le_antisymm (not_lt.mp hqty) honward.qty
    have hstatus : q.status ≠ event.orderStatus :=
      fun heq => hsame ⟨htime'.symm, heq.symm, hqty'.symm⟩
    refine ⟨hwithout, htime', hqty', ?_, hstatus, fun hmem => ?_⟩
    · exact le_antisymm (not_lt.mp fun hlt => hrank ⟨hlt, hqty'.ge⟩) (honward.rank hqty')
    · exact hterminal ⟨hmem, hstatus.symm⟩

theorem applied_ne_self (h : Overtaken s event) : s.applied event ≠ s := by
  intro heq
  obtain ⟨-, q, hq, -, -, -, hstatus, -⟩ := h
  have hentry : (s.applied event).orderProgress.lookup event.clientOrderId =
      some (entryOf event) := lookup_applied_self
  rw [heq, hq, Option.some.injEq] at hentry
  exact hstatus (congrArg Progress.status hentry)

theorem project_covered_iff (h : Covered s event) :
    (s.project (.executionReport event)).2 = s ↔ ¬ Overtaken s event := by
  obtain ⟨q, hq, honward⟩ := h.entry
  by_cases hwithout : event.withoutTrade
  · have hunseen : s.hasSeen event = false := by
      rw [← Bool.not_eq_true, hasSeen_of_covered h, not_not]
      exact hwithout
    rw [overtaken_iff_unobjected hq honward hwithout]
    cases hobjection : objection q event with
    | none =>
      have hover : Overtaken s event :=
        (overtaken_iff_unobjected hq honward hwithout).mpr hobjection
      have heq : (s.project (.executionReport event)).2 = s.applied event := by
        simp [project, projectReport, h.platform, hunseen, hq, hobjection]
      simp [heq, applied_ne_self hover]
    | some result => simp [project, projectReport, h.platform, hunseen, hq, hobjection]
  · have hseen := (hasSeen_of_covered h).mpr hwithout
    have hnot : ¬ Overtaken s event := fun hover => hwithout hover.1
    simp [project, projectReport, h.platform, hseen, hnot]

/-- **When a report delivered again changes nothing.** -/
theorem redelivery_unchanged_iff (clientOrderPrefix : String) (events : List UserEvent)
    {result : ProjectionResult}
    (hpast : (.executionReport event, result) ∈ (projection clientOrderPrefix events).past)
    (happlied : result.action = .APPLY_ORDER_EVENT) :
    ((projection clientOrderPrefix events).now.project (.executionReport event)).2 =
        (projection clientOrderPrefix events).now ↔
      ¬ Overtaken (projection clientOrderPrefix events).now event := by
  have hcovered : PastCovered (projection clientOrderPrefix events) :=
    Log.run_keeps (I := PastCovered) (fun _ k h => pastCovered_call h k) (by simp [PastCovered])
      events
  exact project_covered_iff (hcovered event result hpast happlied)

/-! ## 3. An order of two statuses -/

def pending : ExecutionReport := reportOf "PENDING_NEW" 0 none 1000

/-- The order is pending, and new within the same millisecond. -/
def pendingThenNew : List UserEvent :=
  [.executionReport pending, .executionReport (reportOf "NEW" 0 none 1000)]

theorem redelivery_unchanged_iff_pending :
    ((projection defaultPrefix [.executionReport pending]).now.project
        (.executionReport pending)).2 =
      (projection defaultPrefix [.executionReport pending]).now := by
  refine (redelivery_unchanged_iff defaultPrefix [.executionReport pending]
    (.head _) rfl).mpr ?_
  rintro ⟨-, q, hq, -, -, -, hstatus, -⟩
  have hentry : (projection defaultPrefix [.executionReport pending]).now.orderProgress.lookup
      pending.clientOrderId = some (entryOf pending) := rfl
  rw [hentry, Option.some.injEq] at hq
  exact hstatus (by rw [← hq]; rfl)

/-- **The order is pending again**, when its first report comes a second time. -/
theorem redelivery_reverts :
    (.executionReport pending, appliedResult pending) ∈
        (projection defaultPrefix pendingThenNew).past ∧
      ((projection defaultPrefix pendingThenNew).now.project (.executionReport pending)).2 ≠
        (projection defaultPrefix pendingThenNew).now := by
  refine ⟨.head _, fun heq => ?_⟩
  have hnew : (projection defaultPrefix pendingThenNew).now.orderStates.lookup "ctp-1" =
      some "NEW" := by decide
  have hpending : ((projection defaultPrefix pendingThenNew).now.project
      (.executionReport pending)).2.orderStates.lookup "ctp-1" = some "PENDING_NEW" := by
    decide
  rw [heq, hnew] at hpending
  simp at hpending

end Kripto.Stream
