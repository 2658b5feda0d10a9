/-
# A cooperative surrounding for the execution path

The script under which every collaborator of the service answers favourably: locks are granted
when free, guards pass, the database commits, the metadata is stable.  Only the exchange is
left to choose.  Concrete histories of the execution path are played with it.

Sequential histories are calls of `submit` one after the other, by any services over one ledger.  A
call may be cut short by a crash of its process; then the service comes back with an empty cache and
free locks, and the table, the exchange and the isolation object are as the crash left them.
Between calls a service may be restarted, an isolation cleared, and the exchange moves by itself.
-/
import Kripto.Effect.Play
import Kripto.Execution.Rule

namespace Kripto.Execution

open Effect

variable {ε : Type}

/-! ## 1. The script -/

/-- A column that keeps what it is given. -/
abbrev exactColumn : NumericColumn := ⟨id⟩

/-- The instrument metadata a script serves. -/
structure Instrument where
  filters : SymbolFilters
  capabilities : Capabilities

/-- One decimal of price and quantity, no bounds that matter. -/
def Instrument.plain : Instrument where
  filters := ⟨1/10, 1/10, 0, 1000000, 0, none, none⟩
  capabilities := {}

/-- A deterministic exchange: the answer to a call and the state it leaves. -/
structure Venue (ε : Type) where
  submit : OrderIntent → ε → Except Exc OrderRecord × ε
  get : String → OrderQuery → ε → Except Exc (Option OrderRecord) × ε

/-- The venue is one way the exchange can behave. -/
structure Venue.Picks (v : Venue ε) (Ex : Exchange ε) : Prop where
  submit : ∀ n e, Ex.submit n e (v.submit n e).1 (v.submit n e).2
  get : ∀ id q e, Ex.get id q e (v.get id q e).1 (v.get id q e).2

section Cooperation

variable [PyStr] [NumericColumn]

/-- **Everybody cooperates**, the exchange as `v` says. -/
def cooperate (m : Instrument) (v : Venue ε) : Script execSig (World ε)
  | .acquire locks account, w =>
      if w.held locks account then (.error (.other "deadlock"), w)
      else (.ok (), w.setHeld locks account true)
  | .release locks account, w => (.ok (), w.setHeld locks account false)
  | .isBlocked iso account symbol, w =>
      (.ok (w.blocked iso (account, PyStr.upper symbol)).isSome, w)
  | .block iso account symbol reason, w =>
      (.ok (), w.setBlocked iso (account, PyStr.upper symbol) (some reason))
  | .allowNewRisk, w => (.ok true, w)
  | .restrict _, w => (.ok (), w)
  | .manualReview _, w => (.ok (), w)
  | .leaderValidate .., w => (.ok true, w)
  | .reservationItems _, w => (.ok true, w)
  | .getBalance, w => (.ok [], w)
  | .validateLiveBalance .., w => (.ok (), w)
  | .requireCurrent .., w => (.ok (), w)
  | .utcnow, w => (.ok 0, w)
  | .getSymbolFilters _, w => (.ok m.filters, w)
  | .getCapabilities _, w => (.ok m.capabilities, w)
  | .getRecord svc id, w => (.ok (w.records svc id), w)
  | .setRecord svc id record, w => (.ok (), w.setCache svc id record)
  | .selectOrder id, w => (.ok (w.orders id), w)
  | .refreshOrder id, w => (.ok (w.orders id), w)
  | .insertOrder row, w =>
      if w.orders row.intentId = none then (.ok (), w.setOrder row.intentId row.stored)
      else (.error .integrityError, w)
  | .updateOrder id record, w =>
      match w.orders id with
      | some row => (.ok true, w.setOrder id (row.marked record))
      | none => (.ok false, w)
  | .submitOrder n, w =>
      ((v.submit n w.venue).1, w.sent n (v.submit n w.venue).2 (v.submit n w.venue).1)
  | .getOrder id q, w =>
      ((v.get id q w.venue).1, w.asked id (v.get id q w.venue).2 (v.get id q w.venue).1)

theorem cooperate_picks {Ex : Exchange ε} {v : Venue ε} (hv : v.Picks Ex) (m : Instrument) :
    (cooperate m v).Picks (handler Ex) := by
  intro o w
  cases o with
  | acquire locks account =>
    simp only [cooperate, handler]
    cases h : w.held locks account
    · exact Or.inl ⟨rfl, rfl, rfl⟩
    · exact Or.inr ⟨.other "deadlock", rfl, rfl⟩
  | insertOrder row =>
    simp only [cooperate, handler]
    by_cases h : w.orders row.intentId = none
    · rw [if_pos h]
      exact Or.inl ⟨h, rfl, rfl⟩
    · rw [if_neg h]
      exact Or.inr ⟨Or.inl rfl, rfl⟩
  | updateOrder id record =>
    simp only [cooperate, handler]
    cases h : w.orders id with
    | some row => exact Or.inl ⟨row, rfl, rfl, rfl⟩
    | none => exact Or.inr (Or.inl ⟨rfl, rfl, rfl⟩)
  | submitOrder n => exact ⟨_, hv.submit n w.venue, rfl⟩
  | getOrder id q => exact ⟨_, hv.get id q w.venue, rfl⟩
  | selectOrder id => exact ⟨Or.inl rfl, rfl⟩
  | refreshOrder id => exact ⟨Or.inl rfl, rfl⟩
  | release locks account => exact ⟨rfl, rfl⟩
  | isBlocked iso account symbol => exact ⟨rfl, rfl⟩
  | block iso account symbol reason => exact ⟨rfl, rfl⟩
  | getRecord svc id => exact ⟨rfl, rfl⟩
  | setRecord svc id record => exact ⟨rfl, rfl⟩
  | _ => rfl

/-! ## 2. Orders and answers -/

/-- The record an exchange returns for an order it took, in a given state. -/
def OrderIntent.taken (n : OrderIntent) (st : OrderState) (exchangeOrderId : String) :
    OrderRecord where
  intentId := n.intentId
  accountId := n.accountId
  symbol := n.symbol
  side := n.side
  orderType := n.orderType
  quantity := n.quantity
  state := st
  price := n.price
  stopPrice := n.stopPrice
  exchangeOrderId := some exchangeOrderId
  clientOrderId := n.clientOrderId

/-- An exchange that takes every order and cannot find any. -/
def Venue.acknowledging : Venue Unit where
  submit := fun n e => (.ok (n.taken .ACKNOWLEDGED "x-1"), e)
  get := fun _ _ e => (.ok none, e)

omit [PyStr] [NumericColumn] in
/-- The venue is one of those that may do anything. -/
theorem Venue.picks_any (v : Venue ε) : v.Picks (Exchange.any ε) :=
  ⟨fun _ _ => trivial, fun _ _ _ => trivial⟩

/-- The state of the record a call returned, if it returned one. -/
def returnedState (r : Except Exc OrderRecord) : Option OrderState := r.toOption.map (·.state)

omit [PyStr] [NumericColumn] in
theorem returnedState_eq_some {r : Except Exc OrderRecord} {st : OrderState}
    (h : returnedState r = some st) : ∃ record, r = .ok record ∧ record.state = st := by
  cases r with
  | ok record => exact ⟨record, rfl, Option.some.inj h⟩
  | error e => cases h

/-- The order a program is about to send. -/
def sending {α : Type} : Program α → Option OrderIntent
  | .op (.submitOrder n) _ => some n
  | _ => none

omit [PyStr] [NumericColumn] in
theorem eq_op_of_sending {α : Type} {p : Program α} {n : OrderIntent} (h : sending p = some n) :
    ∃ k, p = .op (.submitOrder n) k := by
  unfold sending at h
  split at h
  · obtain rfl := Option.some.inj h
    exact ⟨_, rfl⟩
  · cases h

/-- A limit order for one unit at the reference price. -/
def SubmitArgs.limitBuy (id : String) : SubmitArgs where
  intent := {
    intentId := id, accountId := "acct", symbol := "BTCUSDT", side := "BUY"
    orderType := "LIMIT", quantity := 1, price := some 100 }
  referencePrice := 100
  maxDeviationBps := 50

/-- A process of its own over a ledger: its own cache, its own locks. -/
def ExecutionService.process (i : Bool) : ExecutionService where
  id := i.toNat
  accountLocks := i.toNat
  persistentIntents := true

end Cooperation

/-! ## 3. Sequential histories -/

/-- A call of `submit`. -/
structure Call where
  service : ExecutionService
  args : SubmitArgs

/-- What happens between calls. -/
inductive Between
  | restart (service : ExecutionService)
  | clear (isolation : ℕ) (account symbol : String)
  | exchange

/-- What a process takes with it: its cache and its locks. -/
def World.restarted (w : World ε) (service : ExecutionService) : World ε :=
  { w with
    records := Function.update w.records service.id fun _ => none
    held := Function.update w.held service.accountLocks fun _ => false }

variable [PyStr]

/-- The changes between calls. -/
inductive Happens : Between → World ε → World ε → Prop
  | restart (service : ExecutionService) (w : World ε) :
      Happens (.restart service) w (w.restarted service)
  | clear (isolation : ℕ) (account symbol : String) (w : World ε) :
      Happens (.clear isolation account symbol) w
        (w.setBlocked isolation (account, PyStr.upper symbol) none)
  | exchange (w : World ε) (venue : ε) : Happens .exchange w { w with venue := venue }

variable [NumericColumn]

/-- **Sequential histories** against an exchange. -/
def sequential (Ex : Exchange ε) :
    Session.System execSig (World ε) OrderRecord Call Between where
  body := fun k => k.service.submit k.args
  handler := fun _ => handler Ex
  lose := fun k w => w.restarted k.service
  idle := Happens

/-! ### What histories keep -/

/-- A property of the world that no operation, no restart and no change between calls affects
holds on. -/
theorem sequential_keeps {Ex : Exchange ε} {P : World ε → Prop}
    (hchange : ∀ o w w', Change Ex o w w' → P w → P w')
    (hrestart : ∀ w service, P w → P (w.restarted service))
    {w w' : World ε} {tr : List (Event execSig OrderRecord Call Between)}
    (h : Session (sequential Ex) w tr w')
    (hidle : ∀ l, .idle l ∈ tr → ∀ w w', P w → Happens l w w' → P w') (hP : P w) : P w' :=
  h.keeps (fun _ o w _ w' hw hop => hchange o w w' (handler_change hop) hw)
    (fun k w hw => hrestart w k.service hw) hidle hP

end Kripto.Execution
