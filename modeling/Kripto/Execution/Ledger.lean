/-
# The operations of the execution path, and the durable intent ledger

`ExecutionService.submit` is sequential code over things it shares with others: the `orders`
table, the exchange, the isolation object, its own `records` cache, its account locks.  Every
access to one of them is an operation of `execSig`, so a submit is a program over that
signature and what several of them do together is decided by `handler`, below.

What the components around the service answer (risk machine, leader registry, reservations,
fence, clock, instrument metadata) is left open: any value, or any exception.  The four things
the results depend on are modelled:

* the `orders` table.  `intent_id` is unique, so the table is a partial map; a transaction
  either commits or raises a database error and changes nothing;
* the exchange, an arbitrary state machine (`Exchange`), together with a record of the orders
  sent to it and of the records it reported;
* the cache and the locks of each service, and the isolation objects.

`PersistentIntentLedger` (`execution/persistent.py`) follows as programs over these operations.
-/
import Kripto.Effect.Prog
import Kripto.Execution.PreTrade
import Mathlib.Logic.Function.Basic

namespace Kripto.Execution

open Effect

variable [PyStr]

/-! ## 1. Rows and queries -/

/-- A row of the `orders` table.  Its primary key is a fresh `uuid4` nothing looks up. -/
structure OrderRow where
  intentId : String
  accountId : String
  symbol : String
  side : String
  orderType : String
  quantity : ℚ
  price : Option ℚ
  stopPrice : Option ℚ
  status : OrderState
  exchangeOrderId : Option String
  clientOrderId : String
  deriving DecidableEq

/-- What a `Numeric(38,18)` column gives back for a value written to it. -/
class NumericColumn where
  numeric : ℚ → ℚ

open NumericColumn

/-- A row as the database holds it. -/
def OrderRow.stored [NumericColumn] (row : OrderRow) : OrderRow :=
  { row with
    quantity := numeric row.quantity
    price := row.price.map numeric
    stopPrice := row.stopPrice.map numeric }

/-- The arguments of `exchange.get_order`. -/
structure OrderQuery where
  symbol : String
  orderId : Option String
  clientOrderId : Option String
  deriving DecidableEq

/-! ## 2. The signature -/

/-- The operations.  Services, lock tables and isolation objects are numbered, since several
services may share one.  `getOrder` also names the intent it is asked for; the exchange sees
the query only. -/
inductive Op
  | acquire (locks : ℕ) (account : String)
  | release (locks : ℕ) (account : String)
  | isBlocked (isolation : ℕ) (account symbol : String)
  | block (isolation : ℕ) (account symbol reason : String)
  | allowNewRisk
  | restrict (reason : String)
  | manualReview (reason : String)
  | leaderValidate (account : String) (instanceId : Option String) (token : Option ℤ)
  | reservationItems (intentId : String)
  | getBalance
  | validateLiveBalance (intentId : String) (balances : List (String × ℚ))
  | requireCurrent (account : String) (instanceId : Option String) (token : Option ℤ)
  | utcnow
  | getSymbolFilters (symbol : String)
  | getCapabilities (symbol : String)
  | getRecord (service : ℕ) (intentId : String)
  | setRecord (service : ℕ) (intentId : String) (record : OrderRecord)
  | selectOrder (intentId : String)
  | insertOrder (row : OrderRow)
  | refreshOrder (intentId : String)
  | updateOrder (intentId : String) (record : OrderRecord)
  | submitOrder (intent : OrderIntent)
  | getOrder (intentId : String) (query : OrderQuery)

/-- What each operation returns. -/
abbrev Op.Val : Op → Type
  | isBlocked .. => Bool
  | allowNewRisk => Bool
  | leaderValidate .. => Bool
  | reservationItems _ => Bool
  | getBalance => List (String × ℚ)
  | utcnow => ℤ
  | getSymbolFilters _ => SymbolFilters
  | getCapabilities _ => Capabilities
  | getRecord .. => Option OrderRecord
  | selectOrder _ => Option OrderRow
  | refreshOrder _ => Option OrderRow
  | updateOrder .. => Bool
  | submitOrder _ => OrderRecord
  | getOrder .. => Option OrderRecord
  | _ => Unit

abbrev execSig : Sig := ⟨Op, Op.Val, Exc⟩

/-- Programs of the execution path. -/
abbrev Program (α : Type) : Type := Prog execSig α

/-- An operation of the execution path. -/
def perform (o : Op) : Program o.Val := @Prog.perform execSig o

/-! ## 3. The world and what the operations do in it -/

/-- An exchange: its own state, and which answers `submit_order` and `get_order` can have. -/
structure Exchange (ε : Type) where
  submit : OrderIntent → ε → Except Exc OrderRecord → ε → Prop
  get : String → OrderQuery → ε → Except Exc (Option OrderRecord) → ε → Prop

/-- The exchange that may answer anything at any time. -/
def Exchange.any (ε : Type) : Exchange ε := ⟨fun _ _ _ _ => True, fun _ _ _ _ _ => True⟩

/-- The shared state.  `submitted` lists the `submit_order` calls and `reported` the records
the exchange returned, each with the intent it was asked for; latest first in both. -/
structure World (ε : Type) where
  orders : String → Option OrderRow
  venue : ε
  submitted : List OrderIntent
  reported : List (String × OrderRecord)
  records : ℕ → String → Option OrderRecord
  blocked : ℕ → String × String → Option String
  held : ℕ → String → Bool

variable [NumericColumn] {ε : Type}

/-- Nothing yet: an empty table, empty caches, nothing sent. -/
def World.empty (venue : ε) : World ε :=
  ⟨fun _ => none, venue, [], [], fun _ _ => none, fun _ _ => none, fun _ _ => false⟩

/-- The row after a `mark`: status and exchange id are overwritten, the client id only by a
non-empty one. -/
def OrderRow.marked (row : OrderRow) (record : OrderRecord) : OrderRow :=
  { row with
    status := record.state
    exchangeOrderId := record.exchangeOrderId
    clientOrderId := orText record.clientOrderId row.clientOrderId }

def World.setOrder (w : World ε) (id : String) (row : OrderRow) : World ε :=
  { w with orders := Function.update w.orders id (some row) }

omit [PyStr] [NumericColumn] in
@[simp] theorem World.setOrder_self (w : World ε) (id : String) (row : OrderRow) :
    (w.setOrder id row).orders id = some row :=
  Function.update_self ..

omit [PyStr] [NumericColumn] in
theorem World.setOrder_of_ne (w : World ε) {id id' : String} (row : OrderRow) (h : id' ≠ id) :
    (w.setOrder id row).orders id' = w.orders id' :=
  Function.update_of_ne h ..

def World.setCache (w : World ε) (svc : ℕ) (id : String) (record : OrderRecord) : World ε :=
  { w with
    records := Function.update w.records svc (Function.update (w.records svc) id (some record)) }

omit [PyStr] [NumericColumn] in
theorem World.setCache_of_ne (w : World ε) {svc svc' : ℕ} {id id' : String}
    (record : OrderRecord) (h : ¬(svc' = svc ∧ id' = id)) :
    (w.setCache svc id record).records svc' id' = w.records svc' id' := by
  unfold setCache
  by_cases hsvc : svc' = svc
  · subst hsvc
    have hid : id' ≠ id := fun hid => h ⟨rfl, hid⟩
    simp [hid]
  · simp [hsvc]

def World.setHeld (w : World ε) (locks : ℕ) (account : String) (b : Bool) : World ε :=
  { w with held := Function.update w.held locks (Function.update (w.held locks) account b) }

def World.setBlocked (w : World ε) (iso : ℕ) (key : String × String) (reason : Option String) :
    World ε :=
  { w with
    blocked := Function.update w.blocked iso (Function.update (w.blocked iso) key reason) }

omit [PyStr] [NumericColumn] in
theorem World.setBlocked_blocked (w : World ε) (iso iso' : ℕ) (key key' : String × String)
    (reason : Option String) : (w.setBlocked iso key reason).blocked iso' key' =
      if iso' = iso ∧ key' = key then reason else w.blocked iso' key' := by
  unfold setBlocked
  by_cases hiso : iso' = iso
  · subst hiso
    by_cases hkey : key' = key
    · subst hkey
      simp
    · simp [hkey]
  · simp [hiso]

/-- The world after the exchange was asked to submit `n`. -/
def World.sent (w : World ε) (n : OrderIntent) (venue : ε) (r : Except Exc OrderRecord) :
    World ε :=
  { w with
    venue := venue
    submitted := n :: w.submitted
    reported := match r with
      | .ok record => (n.intentId, record) :: w.reported
      | .error _ => w.reported }

/-- The world after the exchange was asked for the order of `id`. -/
def World.asked (w : World ε) (id : String) (venue : ε)
    (r : Except Exc (Option OrderRecord)) : World ε :=
  { w with
    venue := venue
    reported := match r with
      | .ok (some record) => (id, record) :: w.reported
      | _ => w.reported }

/-- **The semantics of the operations.**  A transaction on `orders` may also fail as a whole,
with SQLAlchemy's own exceptions; an insert may be refused for another constraint. -/
def handler (Ex : Exchange ε) : Handler execSig (World ε)
  | .acquire locks account, w, r, w' =>
      (w.held locks account = false ∧ r = .ok () ∧ w' = w.setHeld locks account true) ∨
        ∃ e, r = .error e ∧ w' = w
  | .release locks account, w, r, w' => r = .ok () ∧ w' = w.setHeld locks account false
  | .isBlocked iso account symbol, w, r, w' =>
      r = .ok (w.blocked iso (account, PyStr.upper symbol)).isSome ∧ w' = w
  | .block iso account symbol reason, w, r, w' =>
      r = .ok () ∧ w' = w.setBlocked iso (account, PyStr.upper symbol) (some reason)
  | .getRecord svc id, w, r, w' => r = .ok (w.records svc id) ∧ w' = w
  | .setRecord svc id record, w, r, w' => r = .ok () ∧ w' = w.setCache svc id record
  | .selectOrder id, w, r, w' =>
      (r = .ok (w.orders id) ∨ r = .error .databaseError) ∧ w' = w
  | .refreshOrder id, w, r, w' =>
      (r = .ok (w.orders id) ∨ r = .error .databaseError) ∧ w' = w
  | .insertOrder row, w, r, w' =>
      (w.orders row.intentId = none ∧ r = .ok () ∧ w' = w.setOrder row.intentId row.stored) ∨
        ((r = .error .integrityError ∨ r = .error .databaseError) ∧ w' = w)
  | .updateOrder id record, w, r, w' =>
      (∃ row, w.orders id = some row ∧ r = .ok true ∧ w' = w.setOrder id (row.marked record)) ∨
        (w.orders id = none ∧ r = .ok false ∧ w' = w) ∨
        (r = .error .databaseError ∧ w' = w)
  | .submitOrder n, w, r, w' => ∃ v, Ex.submit n w.venue r v ∧ w' = w.sent n v r
  | .getOrder id query, w, r, w' => ∃ v, Ex.get id query w.venue r v ∧ w' = w.asked id v r
  | _, w, _, w' => w' = w

/-- What one operation can do to the world, answers aside.  Every invariant of the world is
checked against these eight cases. -/
inductive Change (Ex : Exchange ε) : Op → World ε → World ε → Prop
  | same (o : Op) (w : World ε) : Change Ex o w w
  | held (o : Op) (w : World ε) (locks : ℕ) (account : String) (b : Bool) :
      Change Ex o w (w.setHeld locks account b)
  | blocked (w : World ε) (iso : ℕ) (account symbol reason : String) :
      Change Ex (.block iso account symbol reason) w
        (w.setBlocked iso (account, PyStr.upper symbol) (some reason))
  | cached (w : World ε) (svc : ℕ) (id : String) (record : OrderRecord) :
      Change Ex (.setRecord svc id record) w (w.setCache svc id record)
  | inserted (w : World ε) (row : OrderRow) (free : w.orders row.intentId = none) :
      Change Ex (.insertOrder row) w (w.setOrder row.intentId row.stored)
  | marked (w : World ε) (id : String) (record : OrderRecord) (row : OrderRow)
      (found : w.orders id = some row) :
      Change Ex (.updateOrder id record) w (w.setOrder id (row.marked record))
  | sent (w : World ε) (n : OrderIntent) (r : Except Exc OrderRecord) (v : ε)
      (h : Ex.submit n w.venue r v) : Change Ex (.submitOrder n) w (w.sent n v r)
  | asked (w : World ε) (id : String) (q : OrderQuery) (r : Except Exc (Option OrderRecord))
      (v : ε) (h : Ex.get id q w.venue r v) : Change Ex (.getOrder id q) w (w.asked id v r)

theorem handler_change {Ex : Exchange ε} {o : Op} {w w' : World ε} {r : execSig.Ans o}
    (h : handler Ex o w r w') : Change Ex o w w' := by
  cases o with
  | acquire locks account =>
    rcases h with ⟨_, _, rfl⟩ | ⟨_, _, rfl⟩
    · exact .held _ w locks account true
    · exact .same _ _
  | release locks account => rw [h.2]; exact .held _ w locks account false
  | block iso account symbol reason => rw [h.2]; exact .blocked w iso account symbol reason
  | setRecord svc id record => rw [h.2]; exact .cached w svc id record
  | insertOrder row =>
    rcases h with ⟨free, _, rfl⟩ | ⟨_, rfl⟩
    · exact .inserted w row free
    · exact .same _ _
  | updateOrder id record =>
    rcases h with ⟨row, found, _, rfl⟩ | ⟨_, _, rfl⟩ | ⟨_, rfl⟩
    · exact .marked w id record row found
    · exact .same _ _
    · exact .same _ _
  | submitOrder n => obtain ⟨v, hv, rfl⟩ := h; exact .sent w n r v hv
  | getOrder id q => obtain ⟨v, hv, rfl⟩ := h; exact .asked w id q r v hv
  | isBlocked | selectOrder | refreshOrder | getRecord => rw [h.2]; exact .same _ _
  | _ => obtain rfl := h; exact .same _ _

/-- The operations that change nothing. -/
def Op.Reads : Op → Prop
  | isBlocked .. | allowNewRisk | restrict _ | manualReview _ | leaderValidate ..
  | reservationItems _ | getBalance | validateLiveBalance .. | requireCurrent .. | utcnow
  | getSymbolFilters _ | getCapabilities _ | getRecord .. | selectOrder _
  | refreshOrder _ => True
  | _ => False

/-- What the guards ask for. -/
def Op.Asks : Op → Prop
  | isBlocked .. | allowNewRisk | restrict _ | leaderValidate .. | reservationItems _ | getBalance
  | validateLiveBalance .. | utcnow => True
  | _ => False

omit [PyStr] [NumericColumn] in
theorem Op.Asks.reads {o : Op} (h : o.Asks) : o.Reads := by
  cases o <;> first | exact h.elim | trivial

/-- What a submission does besides sending the order.  Balances are asked for by a guard only. -/
def Op.Completes : Op → Prop
  | getBalance | submitOrder _ => False
  | _ => True

theorem handler_reads {Ex : Exchange ε} {o : Op} (ho : o.Reads) {w w' : World ε}
    {r : execSig.Ans o} (h : handler Ex o w r w') : w' = w := by
  cases o <;> first | exact ho.elim | exact h | exact h.2

/-! ## 4. `PersistentIntentLedger` -/

namespace PersistentIntentLedger

def assertSameIntent (record : OrderRecord) (intent : OrderIntent) : Except Exc Unit :=
  let expected :=
    (intent.accountId, intent.symbol, intent.side, intent.orderType, intent.quantity)
  let actual :=
    (record.accountId, record.symbol, record.side, record.orderType, record.quantity)
  if actual ≠ expected then
    .error (.valueError "intent_id collision with different economic order")
  else .ok ()

def toRecord (row : OrderRow) : OrderRecord where
  intentId := row.intentId
  accountId := row.accountId
  symbol := row.symbol
  side := row.side
  orderType := row.orderType
  quantity := row.quantity
  state := row.status
  price := row.price
  stopPrice := row.stopPrice
  exchangeOrderId := row.exchangeOrderId
  clientOrderId := some row.clientOrderId

/-- The row `reserve_before_side_effect` inserts. -/
def newRow (intent : OrderIntent) : OrderRow where
  intentId := intent.intentId
  accountId := intent.accountId
  symbol := intent.symbol
  side := intent.side
  orderType := intent.orderType
  quantity := intent.quantity
  price := intent.price
  stopPrice := intent.stopPrice
  status := .SUBMITTED
  exchangeOrderId := none
  clientOrderId := orText intent.clientOrderId ("ctp-" ++ intent.intentId)

def get (intentId : String) : Program (Option OrderRecord) := do
  let row ← perform (.selectOrder intentId)
  return row.map toRecord

/-- A row that was there first: the caller did not create it. -/
def existingRecord (row : OrderRow) (intent : OrderIntent) : Program (OrderRecord × Bool) := do
  Prog.ofExcept (assertSameIntent (toRecord row) intent)
  return (toRecord row, false)

/-- The record and whether this call created it.  Three transactions: the look-up, the insert,
and a re-read -- of the new row, or of the row that won the race for the `intent_id`. -/
def reserveBeforeSideEffect (intent : OrderIntent) : Program (OrderRecord × Bool) := do
  let existing ← perform (.selectOrder intent.intentId)
  match existing with
  | some row => existingRecord row intent
  | none => do
    let inserted ← (perform (.insertOrder (newRow intent))).attempt
    match inserted with
    | .ok _ => do
      let row ← perform (.refreshOrder intent.intentId)
      match row with
      | some row => return (toRecord row, true)
      | none => .raise (.other "InvalidRequestError")
    | .error .integrityError => do
      let existing ← perform (.selectOrder intent.intentId)
      match existing with
      | some row => existingRecord row intent
      | none => .raise .integrityError
    | .error e => .raise e

def mark (intentId : String) (record : OrderRecord) : Program Unit := do
  let found ← perform (.updateOrder intentId record)
  if found then return () else .raise (.lookupError ("unknown durable intent " ++ intentId))

/-- What `reconcile_existing` does with a record in an unsettled state. -/
def resolve (intentId : String) (current : OrderRecord) : Program OrderRecord := do
  let remote ← perform
    (.getOrder intentId ⟨current.symbol, current.exchangeOrderId, current.clientOrderId⟩)
  match remote with
  | some remote => do mark intentId remote; return remote
  | none => do
    let current := { current with state := .UNKNOWN }
    mark intentId current
    return current

/-- `if expected_intent is not None: self._assert_same_intent(current, expected_intent)`. -/
def assertExpected (current : OrderRecord) : Option OrderIntent → Except Exc Unit
  | some intent => assertSameIntent current intent
  | none => .ok ()

def reconcileExisting (intentId : String) (expectedIntent : Option OrderIntent) :
    Program (Option OrderRecord) := do
  let current ← get intentId
  match current with
  | none => return none
  | some current => do
    Prog.ofExcept (assertExpected current expectedIntent)
    if current.state ≠ .SUBMITTED ∧ current.state ≠ .UNKNOWN then return some current
    else do
      let resolved ← resolve intentId current
      return some resolved

omit [PyStr] [NumericColumn] in
/-- The operations of a reconciliation: a look-up, a query, an update. -/
theorem within_reconcileExisting {A : Op → Prop} {id : String} {expected : Option OrderIntent}
    (hselect : A (.selectOrder id)) (hget : ∀ query, A (.getOrder id query))
    (hupdate : ∀ record, A (.updateOrder id record)) :
    (reconcileExisting id expected).Within A := by
  have hmark : ∀ record, (mark id record).Within A := fun record =>
    Prog.Within.bind (Prog.within_perform.mpr (hupdate record)) fun found => by
      split <;> trivial
  have hresolve : ∀ current, (resolve id current).Within A := by
    intro current
    refine Prog.Within.bind (Prog.within_perform.mpr (hget _)) fun remote => ?_
    cases remote with
    | some remote => exact (hmark remote).bind fun _ => Prog.within_pure _
    | none => exact (hmark _).bind fun _ => Prog.within_pure _
  refine Prog.Within.bind (Prog.Within.bind (Prog.within_perform.mpr hselect)
    fun _ => Prog.within_pure _) fun current => ?_
  cases current with
  | none => exact Prog.within_pure _
  | some current =>
    refine Prog.Within.bind (Prog.within_ofExcept _) fun _ => ?_
    split
    · exact Prog.within_pure _
    · exact (hresolve current).bind fun _ => Prog.within_pure _

end PersistentIntentLedger

end Kripto.Execution
