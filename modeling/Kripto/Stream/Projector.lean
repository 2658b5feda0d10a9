/-
# The private stream projector

`exchange/private_stream.py`: the events of a user data stream, and the projector that decides
for each of them whether it is the platform's own activity, a repetition, or something nobody
asked for.

`projectReport_cases` says everything an execution report can do to the projector;
`project_cases` says it for all events.
-/
import Kripto.Effect.Totals
import Mathlib.Data.Rat.Defs

namespace Kripto.Stream

open Effect

/-! ## 1. Events -/

structure ExecutionReport where
  symbol : String
  clientOrderId : String
  side : String
  orderType : String
  executionType : String
  orderStatus : String
  exchangeOrderId : String
  lastQty : ℚ
  cumulativeQty : ℚ
  lastPrice : ℚ
  fee : ℚ
  feeAsset : Option String
  tradeId : Option String
  eventTimeMs : ℤ
  stpPreventedMatchId : Option String := none
  deriving DecidableEq

/-- What `parse_user_event` makes of a message.  `project` reads nothing but the type of an
unknown event. -/
inductive UserEvent
  | executionReport (event : ExecutionReport)
  | balancePosition (balances : Table String (ℚ × ℚ)) (eventTimeMs : ℤ)
  | balanceUpdate (asset : String) (delta : ℚ) (clearTimeMs eventTimeMs : ℤ)
  | futuresPositionUpdate (positions : Table String ℚ) (balances : Table String ℚ)
      (eventTimeMs : ℤ)
  | streamTerminated (eventTimeMs : ℤ)
  | unknownUserEvent (eventType : String)

/-! ## 2. Results -/

inductive Classification
  | UNKNOWN_ORDER | DUPLICATE_FILL | STALE_ORDER_EVENT | TERMINAL_ORDER_REGRESSION
  | OUT_OF_ORDER_ORDER_EVENT | DUPLICATE_ORDER_EVENT | KNOWN_PLATFORM_ACTIVITY
  | KNOWN_ACCOUNT_SNAPSHOT | KNOWN_POSITION_SNAPSHOT | UNKNOWN_BALANCE_CHANGE
  | PRIVATE_STREAM_TERMINATED | UNKNOWN_EVENT
  deriving DecidableEq, Repr

inductive Action
  | MANUAL_REVIEW_REQUIRED | IGNORE_IDEMPOTENT | IGNORE_AND_RECONCILE | APPLY_ORDER_EVENT
  | APPLY_BALANCE_SNAPSHOT | APPLY_POSITION_AND_BALANCE_SNAPSHOT | HALT_NEW_RISK | QUARANTINE
  deriving DecidableEq, Repr

/-- Does the action say that something was applied, or that the stream has ended? -/
def Action.changes : Action → Bool
  | .APPLY_ORDER_EVENT | .APPLY_BALANCE_SNAPSHOT | .APPLY_POSITION_AND_BALANCE_SNAPSHOT
  | .HALT_NEW_RISK => true
  | .MANUAL_REVIEW_REQUIRED | .IGNORE_IDEMPOTENT | .IGNORE_AND_RECONCILE | .QUARANTINE => false

/-- The values of a result's payload.  A `decimal` stands for the text of that number. -/
inductive PayloadValue
  | text (s : Option String)
  | decimal (q : ℚ)
  | count (n : ℕ)
  deriving DecidableEq

structure ProjectionResult where
  classification : Classification
  action : Action
  payload : List (String × PayloadValue)
  deriving DecidableEq

/-! ## 3. The projector -/

/-- The entry of an order in `order_progress`. -/
structure Progress where
  status : String
  qty : ℚ
  time : ℤ
  deriving DecidableEq

structure PrivateStreamProjector where
  clientOrderPrefix : String
  seenTrades : Finset String := ∅
  orderStates : Table String String := ∅
  orderProgress : Table String Progress := ∅
  balances : Table String (ℚ × ℚ) := ∅
  positions : Table String ℚ := ∅
  terminated : Bool := false

namespace PrivateStreamProjector

def TERMINAL : List String :=
  ["FILLED", "CANCELED", "CANCELLED", "REJECTED", "EXPIRED", "EXPIRED_IN_MATCH"]

def RANK : List (String × ℕ) :=
  [("NEW", 1), ("PENDING_NEW", 1), ("PARTIALLY_FILLED", 2), ("PENDING_CANCEL", 3), ("FILLED", 4),
    ("CANCELED", 4), ("CANCELLED", 4), ("REJECTED", 4), ("EXPIRED", 4), ("EXPIRED_IN_MATCH", 4)]

/-- `RANK.get(status, 0)`. -/
def rank (status : String) : ℕ := (RANK.lookup status).getD 0

/-- The constructor's default for `client_order_prefix`. -/
def defaultPrefix : String := "ctp-"

/-- `client_order_id.startswith(self.prefix)`. -/
def platform (self : PrivateStreamProjector) (clientOrderId : String) : Bool :=
  self.clientOrderPrefix.toList.isPrefixOf clientOrderId.toList

/-- `event.trade_id and event.trade_id in self.seen_trades`. -/
def hasSeen (self : PrivateStreamProjector) (event : ExecutionReport) : Bool :=
  match event.tradeId with
  | some t => t ≠ "" && decide (t ∈ self.seenTrades)
  | none => false

/-- `if event.trade_id: self.seen_trades.add(event.trade_id)`. -/
def addTrade (seenTrades : Finset String) : Option String → Finset String
  | some t => if t ≠ "" then insert t seenTrades else seenTrades
  | none => seenTrades

/-- The payload of a report compared with an earlier one. -/
def statusPayload (event : ExecutionReport) (previous : Progress) :
    List (String × PayloadValue) :=
  [("status", .text (some event.orderStatus)), ("previous_status", .text (some previous.status))]

/-- A report against the last one applied to its order: the first objection, if any. -/
def objection (previous : Progress) (event : ExecutionReport) : Option ProjectionResult :=
  if event.eventTimeMs < previous.time ∨ event.cumulativeQty < previous.qty then
    some ⟨.STALE_ORDER_EVENT, .IGNORE_AND_RECONCILE, statusPayload event previous⟩
  else if previous.status ∈ TERMINAL ∧ event.orderStatus ≠ previous.status then
    some ⟨.TERMINAL_ORDER_REGRESSION, .MANUAL_REVIEW_REQUIRED, statusPayload event previous⟩
  else if rank event.orderStatus < rank previous.status ∧ event.cumulativeQty ≤ previous.qty then
    some ⟨.OUT_OF_ORDER_ORDER_EVENT, .IGNORE_AND_RECONCILE, statusPayload event previous⟩
  else if event.eventTimeMs = previous.time ∧ event.orderStatus = previous.status ∧
      event.cumulativeQty = previous.qty then
    some ⟨.DUPLICATE_ORDER_EVENT, .IGNORE_IDEMPOTENT,
      [("status", .text (some event.orderStatus))]⟩
  else none

/-- What an accepted report leaves. -/
def applied (self : PrivateStreamProjector) (event : ExecutionReport) : PrivateStreamProjector :=
  { self with
    seenTrades := addTrade self.seenTrades event.tradeId
    orderStates := self.orderStates.insert event.clientOrderId event.orderStatus
    orderProgress := self.orderProgress.insert event.clientOrderId
      ⟨event.orderStatus, event.cumulativeQty, event.eventTimeMs⟩ }

/-- The result of an accepted report. -/
def appliedResult (event : ExecutionReport) : ProjectionResult :=
  ⟨.KNOWN_PLATFORM_ACTIVITY, .APPLY_ORDER_EVENT,
    [("status", .text (some event.orderStatus)), ("last_qty", .decimal event.lastQty),
      ("trade_id", .text event.tradeId)]⟩

/-- `project` on an execution report. -/
def projectReport (self : PrivateStreamProjector) (event : ExecutionReport) :
    ProjectionResult × PrivateStreamProjector :=
  if ¬ self.platform event.clientOrderId then
    (⟨.UNKNOWN_ORDER, .MANUAL_REVIEW_REQUIRED,
      [("client_order_id", .text (some event.clientOrderId)),
        ("symbol", .text (some event.symbol))]⟩, self)
  else if self.hasSeen event then
    (⟨.DUPLICATE_FILL, .IGNORE_IDEMPOTENT, [("trade_id", .text event.tradeId)]⟩, self)
  else match (self.orderProgress.lookup event.clientOrderId).bind (objection · event) with
    | some result => (result, self)
    | none => (appliedResult event, self.applied event)

def project (self : PrivateStreamProjector) : UserEvent → ProjectionResult × PrivateStreamProjector
  | .executionReport event => self.projectReport event
  | .balancePosition balances _ =>
    (⟨.KNOWN_ACCOUNT_SNAPSHOT, .APPLY_BALANCE_SNAPSHOT,
        [("assets", .count balances.keys.length)]⟩,
      { self with balances := balances ∪ self.balances })
  | .futuresPositionUpdate positions balances _ =>
    (⟨.KNOWN_POSITION_SNAPSHOT, .APPLY_POSITION_AND_BALANCE_SNAPSHOT,
        [("positions", .count positions.keys.length), ("balances", .count balances.keys.length)]⟩,
      { self with positions := positions ∪ self.positions })
  | .balanceUpdate asset delta _ _ =>
    (⟨.UNKNOWN_BALANCE_CHANGE, .MANUAL_REVIEW_REQUIRED,
      [("asset", .text (some asset)), ("delta", .decimal delta)]⟩, self)
  | .streamTerminated _ =>
    (⟨.PRIVATE_STREAM_TERMINATED, .HALT_NEW_RISK, []⟩, { self with terminated := true })
  | .unknownUserEvent eventType =>
    (⟨.UNKNOWN_EVENT, .QUARANTINE, [("event_type", .text (some eventType))]⟩, self)

/-! ## 4. What a step does -/

variable {self : PrivateStreamProjector} {event : ExecutionReport}

theorem hasSeen_iff :
    self.hasSeen event = true ↔ ∃ t, event.tradeId = some t ∧ t ≠ "" ∧ t ∈ self.seenTrades := by
  unfold hasSeen
  cases event.tradeId <;> simp

theorem subset_addTrade (seenTrades : Finset String) (t : Option String) :
    seenTrades ⊆ addTrade seenTrades t := by
  unfold addTrade
  split
  · split
    · exact Finset.subset_insert _ _
    · exact Finset.Subset.refl _
  · exact Finset.Subset.refl _

theorem addTrade_mono {seenTrades seenTrades' : Finset String} (h : seenTrades ⊆ seenTrades')
    (t : Option String) : addTrade seenTrades t ⊆ addTrade seenTrades' t := by
  unfold addTrade
  split
  · split
    · exact Finset.insert_subset_insert _ h
    · exact h
  · exact h

/-- An objection is never one of the answers the other branches give. -/
theorem classification_of_objection {previous : Progress} {result : ProjectionResult}
    (h : objection previous event = some result) :
    result.classification ≠ .UNKNOWN_ORDER ∧ result.classification ≠ .DUPLICATE_FILL ∧
      result.classification ≠ .KNOWN_PLATFORM_ACTIVITY := by
  unfold objection at h
  split_ifs at h <;> cases h <;> simp

/-- **What a report can do**: be foreign, repeat a trade, be objected to, or be applied. -/
theorem projectReport_cases (self : PrivateStreamProjector) (event : ExecutionReport) :
    (self.platform event.clientOrderId = false ∧
      (self.projectReport event).1.classification = .UNKNOWN_ORDER ∧
      (self.projectReport event).2 = self) ∨
    (self.platform event.clientOrderId = true ∧ self.hasSeen event = true ∧
      (self.projectReport event).1.classification = .DUPLICATE_FILL ∧
      (self.projectReport event).2 = self) ∨
    (self.platform event.clientOrderId = true ∧ self.hasSeen event = false ∧
      (∃ previous result, self.orderProgress.lookup event.clientOrderId = some previous ∧
        objection previous event = some result ∧ self.projectReport event = (result, self))) ∨
    (self.platform event.clientOrderId = true ∧ self.hasSeen event = false ∧
      (∀ previous, self.orderProgress.lookup event.clientOrderId = some previous →
        objection previous event = none) ∧
      self.projectReport event = (appliedResult event, self.applied event)) := by
  cases hplatform : self.platform event.clientOrderId with
  | false => simp [projectReport, hplatform]
  | true =>
    cases hseen : self.hasSeen event with
    | true => simp [projectReport, hplatform, hseen]
    | false =>
      cases hprevious : self.orderProgress.lookup event.clientOrderId with
      | none => simp [projectReport, hplatform, hseen, hprevious]
      | some previous =>
        cases hobjection : objection previous event with
        | none => simp [projectReport, hplatform, hseen, hprevious, hobjection]
        | some result => simp [projectReport, hplatform, hseen, hprevious, hobjection]

theorem action_of_objection {previous : Progress} {result : ProjectionResult}
    (h : objection previous event = some result) : result.action.changes = false := by
  unfold objection at h
  split_ifs at h <;> cases h <;> rfl

/-- The report is the platform's own, of no trade seen before, and nothing is objected to it. -/
structure Accepts (s : PrivateStreamProjector) (event : ExecutionReport) : Prop where
  platform : s.platform event.clientOrderId = true
  unseen : s.hasSeen event = false
  unobjected : ∀ previous, s.orderProgress.lookup event.clientOrderId = some previous →
    objection previous event = none

/-- The projector has the orders of another. -/
structure SameOrders (s t : PrivateStreamProjector) : Prop where
  clientOrderPrefix : t.clientOrderPrefix = s.clientOrderPrefix
  seenTrades : t.seenTrades = s.seenTrades
  orderStates : t.orderStates = s.orderStates
  orderProgress : t.orderProgress = s.orderProgress

/-- **What an event can do**: nothing, apply a report, or change something else than the
orders. -/
theorem project_cases (self : PrivateStreamProjector) (k : UserEvent) :
    ((self.project k).2 = self ∧ (self.project k).1.action.changes = false) ∨
    (∃ event, k = .executionReport event ∧ self.Accepts event ∧
      self.project k = (appliedResult event, self.applied event)) ∨
    ((self.project k).1.action ≠ .APPLY_ORDER_EVENT ∧
      (self.project k).1.action.changes = true ∧
      self.SameOrders (self.project k).2) := by
  cases k with
  | executionReport event =>
    rcases projectReport_cases self event with
      ⟨hplatform, -, heq⟩ | ⟨hplatform, hseen, -, heq⟩ |
      ⟨-, -, previous, result, -, hobjection, heq⟩ | ⟨hplatform, hseen, hprevious, heq⟩
    · exact .inl ⟨heq, by simp [project, projectReport, hplatform, Action.changes]⟩
    · exact .inl ⟨heq, by simp [project, projectReport, hplatform, hseen, Action.changes]⟩
    · refine .inl ⟨by rw [project, heq], ?_⟩
      rw [project, heq]
      exact action_of_objection hobjection
    · exact .inr (.inl ⟨event, rfl, ⟨hplatform, hseen, hprevious⟩, heq⟩)
  | balancePosition | futuresPositionUpdate | streamTerminated =>
    exact .inr (.inr ⟨by simp [project], rfl, ⟨rfl, rfl, rfl, rfl⟩⟩)
  | balanceUpdate | unknownUserEvent => exact .inl ⟨rfl, rfl⟩

/-- A report is of an unknown order exactly when its client id is not one of the platform's. -/
theorem unknown_order_iff : (self.projectReport event).1.classification = .UNKNOWN_ORDER ↔
    self.platform event.clientOrderId = false := by
  rcases projectReport_cases self event with
    ⟨hp, hc, -⟩ | ⟨hp, -, hc, -⟩ | ⟨hp, -, previous, result, -, hobjection, heq⟩ | ⟨hp, -, -, heq⟩
  · simp [hp, hc]
  · simp [hp, hc]
  · simp [hp, heq, (classification_of_objection hobjection).1]
  · simp [hp, heq, appliedResult]

/-- No event changes the prefix. -/
theorem clientOrderPrefix_project (k : UserEvent) :
    (self.project k).2.clientOrderPrefix = self.clientOrderPrefix := by
  rcases project_cases self k with ⟨heq, -⟩ | ⟨event, -, -, heq⟩ | ⟨-, -, hsame⟩
  · rw [heq]
  · rw [heq]
    rfl
  · exact hsame.clientOrderPrefix

end PrivateStreamProjector

/-- A new projector. -/
def fresh (clientOrderPrefix : String) : PrivateStreamProjector :=
  { clientOrderPrefix := clientOrderPrefix }

end Kripto.Stream
