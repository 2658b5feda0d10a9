/-
# `ExecutionService.submit`

The program of `execution/service.py`, in the order of the source: the account lock, the
guards, the in-memory cache, the durable look-up, normalization with revalidation of the
instrument metadata, the durable reservation, and the side effect with its handler.
-/
import Kripto.Execution.Ledger

namespace Kripto.Execution

open Effect PersistentIntentLedger

variable [PyStr]

/-! ## 1. The service and its arguments -/

/-- An `ExecutionService`: its identity (its `records` dict) and the collaborators it was
constructed with.  `reservations` says, when there is one, whether it has
`validate_live_balance`. -/
structure ExecutionService where
  id : ℕ
  accountLocks : ℕ
  leader : Bool := false
  reservations : Option Bool := none
  symbolIsolation : Option ℕ := none
  persistentIntents : Bool := false
  sideEffectFence : Bool := false

/-- The arguments of `submit`. -/
structure SubmitArgs where
  intent : OrderIntent
  referencePrice : ℚ
  maxDeviationBps : ℚ
  mode : TradingMode := .PAPER
  instanceId : Option String := none
  fencingToken : Option ℤ := none
  currentPositionQty : Option ℚ := none
  currentAvailableBaseQty : Option ℚ := none
  pretradeLimits : Option PreTradeLimits := none
  pretradeContext : Option PreTradeContext := none

namespace ExecutionService

variable (self : ExecutionService) (a : SubmitArgs)

/-! ## 2. The guards -/

def checkIsolation : Program Unit :=
  match self.symbolIsolation with
  | none => pure ()
  | some iso => do
    let blocked ← perform (.isBlocked iso a.intent.accountId a.intent.symbol)
    if blocked && !a.intent.reduceOnly then
      .raise (.permissionError "symbol isolated due to unresolved execution state")
    else pure ()

def checkRisk : Program Unit := do
  let allowed ← perform .allowNewRisk
  if !allowed && !a.intent.reduceOnly then
    .raise (.permissionError "risk state blocks new exposure")
  else pure ()

def checkPretrade : Program Unit :=
  match a.pretradeLimits, a.pretradeContext with
  | none, none => pure ()
  | some limits, some ctx => do
    let now ← perform .utcnow
    let _ ← Prog.ofExcept (requirePretrade a.intent limits ctx now)
    pure ()
  | _, _ =>
    .raise (.valueError "pretrade_limits and pretrade_context must be supplied together")

def checkSpotSell : Program Unit :=
  if !a.intent.reduceOnly && PyStr.upper a.intent.side = "SELL" then
    Prog.ofExcept (validateSpotSellBalance a.intent a.currentAvailableBaseQty)
  else pure ()

def checkLeader : Program Unit := do
  if !self.leader then .raise (.permissionError "invalid LIVE leader fencing token")
  else do
    let valid ← perform (.leaderValidate a.intent.accountId a.instanceId a.fencingToken)
    if !valid then .raise (.permissionError "invalid LIVE leader fencing token")
    else pure ()

def checkReserved : Program Unit := do
  let reserved ← perform (.reservationItems a.intent.intentId)
  if !reserved && !a.intent.reduceOnly then
    .raise (.permissionError "missing capital reservation")
  else pure ()

/-- `validate_live_balance` against a fresh balance; a refusal also restricts the risk state. -/
def checkLiveBalance : Program Unit :=
  (do
    let balances ← perform .getBalance
    perform (.validateLiveBalance a.intent.intentId balances)).tryCatch fun
    | .permissionError msg => do
      perform (.restrict "SHARED_BALANCE_CHANGED_BEFORE_SUBMIT")
      .raise (.permissionError msg)
    | e => .raise e

def checkReservations : Program Unit :=
  match self.reservations with
  | none => pure ()
  | some hasValidateLiveBalance => do
    checkReserved a
    if !a.intent.reduceOnly && hasValidateLiveBalance then checkLiveBalance a else pure ()

def checkLive : Program Unit :=
  if a.mode = .LIVE then do
    checkLeader self a
    checkReservations self a
  else pure ()

def guards : Program Unit := do
  checkIsolation self a
  checkRisk a
  Prog.ofExcept (validateReduceOnly a.intent a.currentPositionQty)
  checkPretrade a
  checkSpotSell a
  checkLive self a

/-! ## 3. Normalization -/

/-- The order as the exchange would take it.  The metadata is read again afterwards; a change
in between refuses the order. -/
def normalizeRevalidated : Program OrderIntent := do
  let filters ← perform (.getSymbolFilters a.intent.symbol)
  let capabilities ← perform (.getCapabilities a.intent.symbol)
  let normalized ← Prog.ofExcept
    (normalizeAndValidate a.intent filters capabilities a.referencePrice a.maxDeviationBps)
  let currentFilters ← perform (.getSymbolFilters a.intent.symbol)
  let currentCapabilities ← perform (.getCapabilities a.intent.symbol)
  if currentFilters ≠ filters ∨ currentCapabilities ≠ capabilities then do
    perform (.manualReview "SYMBOL_METADATA_CHANGED_BEFORE_SUBMIT")
    .raise (.permissionError "symbol metadata changed before submit; revalidation required")
  else return normalized

/-- The record of an order nothing has happened to yet. -/
def recordOf (normalized : OrderIntent) : OrderRecord where
  intentId := normalized.intentId
  accountId := normalized.accountId
  symbol := normalized.symbol
  side := normalized.side
  orderType := normalized.orderType
  quantity := normalized.quantity
  state := .SUBMITTED
  price := normalized.price
  stopPrice := normalized.stopPrice
  clientOrderId := normalized.clientOrderId

/-! ## 4. The side effect -/

def markDurable (record : OrderRecord) : Program Unit :=
  if self.persistentIntents then mark a.intent.intentId record else pure ()

def checkFence : Program Unit :=
  if a.mode = .LIVE ∧ self.sideEffectFence = true then
    perform (.requireCurrent a.intent.accountId a.instanceId a.fencingToken)
  else pure ()

/-- The body of the `try`. -/
def send (normalized : OrderIntent) : Program OrderRecord := do
  checkFence self a
  let actual ← perform (.submitOrder normalized)
  perform (.setRecord self.id a.intent.intentId actual)
  markDurable self a actual
  return actual

def isolate : Program Unit :=
  match self.symbolIsolation with
  | some iso => perform (.block iso a.intent.accountId a.intent.symbol "UNKNOWN_ORDER")
  | none => perform (.manualReview "UNKNOWN_ORDER")

/-- The body of the `except`.  `rec` is the object the cache holds, so its change of state
shows there too. -/
def handleAmbiguous (record : OrderRecord) : Program OrderRecord := do
  let record := { record with state := .UNKNOWN }
  perform (.setRecord self.id a.intent.intentId record)
  markDurable self a record
  isolate self a
  return record

/-- `except (AmbiguousExecution, TimeoutError)`. -/
def onAmbiguous (record : OrderRecord) : Exc → Program OrderRecord
  | .ambiguousExecution | .timeoutError => handleAmbiguous self a record
  | e => .raise e

def sideEffect (normalized : OrderIntent) (record : OrderRecord) : Program OrderRecord := do
  perform (.setRecord self.id a.intent.intentId record)
  (send self a normalized).tryCatch (onAmbiguous self a record)

/-! ## 5. `submit` -/

/-- Cache a record found in the ledger and return it. -/
def adopt (record : OrderRecord) : Program OrderRecord := do
  perform (.setRecord self.id a.intent.intentId record)
  return record

/-- The insert was not this call's.  Nothing deletes orders, so the row is there. -/
def lostInsert (normalized : OrderIntent) : Program OrderRecord := do
  let resolved ← reconcileExisting a.intent.intentId (some normalized)
  match resolved with
  | some resolved => adopt self a resolved
  | none => .raise (.lookupError "order row vanished")

def reserveAndSend (normalized : OrderIntent) : Program OrderRecord := do
  let (durable, created) ← reserveBeforeSideEffect normalized
  if created then sideEffect self a normalized durable else lostInsert self a normalized

/-- No record anywhere: a new order. -/
def submitFresh : Program OrderRecord := do
  let normalized ← normalizeRevalidated a
  if self.persistentIntents then reserveAndSend self a normalized
  else sideEffect self a normalized (recordOf normalized)

/-- The cache had nothing: ask the ledger, if there is one. -/
def submitUncached : Program OrderRecord :=
  if self.persistentIntents then do
    let existing ← reconcileExisting a.intent.intentId (some a.intent)
    match existing with
    | some existing => adopt self a existing
    | none => submitFresh self a
  else submitFresh self a

/-- Everything behind the guards. -/
def submitAdmitted : Program OrderRecord := do
  let cached ← perform (.getRecord self.id a.intent.intentId)
  match cached with
  | some record => return record
  | none => submitUncached self a

def submit : Program OrderRecord := do
  perform (.acquire self.accountLocks a.intent.accountId)
  (do guards self a; submitAdmitted self a).finally_
    (perform (.release self.accountLocks a.intent.accountId))

/-! ## 6. The exceptions the side effect handles -/

/-- The exceptions after which it is not known whether the order exists. -/
def Ambiguous (e : Exc) : Prop := e = .ambiguousExecution ∨ e = .timeoutError

instance (e : Exc) : Decidable (Ambiguous e) := inferInstanceAs (Decidable (_ ∨ _))

/-- An outcome the handler has no part in. -/
def Unambiguous {α : Type} : Except Exc α → Prop
  | .ok _ => True
  | .error e => ¬Ambiguous e

omit [PyStr] in
theorem onAmbiguous_of_ambiguous {record : OrderRecord} {e : Exc} (h : Ambiguous e) :
    onAmbiguous self a record e = handleAmbiguous self a record := by
  rcases h with rfl | rfl <;> rfl

omit [PyStr] in
theorem onAmbiguous_of_not_ambiguous {record : OrderRecord} {e : Exc} (h : ¬Ambiguous e) :
    onAmbiguous self a record e = .raise e := by
  cases e with
  | ambiguousExecution => exact absurd (Or.inl rfl) h
  | timeoutError => exact absurd (Or.inr rfl) h
  | _ => rfl

/-! ## 7. Which operations the parts use -/

omit [PyStr] in
theorem within_checkIsolation : (checkIsolation self a).Within Op.Asks := by
  unfold checkIsolation
  split
  · exact Prog.within_pure _
  · refine Prog.Within.bind (Prog.within_perform.mpr trivial) fun b => ?_
    split <;> trivial

omit [PyStr] in
theorem within_checkRisk : (checkRisk a).Within Op.Asks :=
  Prog.Within.bind (Prog.within_perform.mpr trivial) fun b => by split <;> trivial

theorem within_checkPretrade : (checkPretrade a).Within Op.Asks := by
  unfold checkPretrade
  split
  · exact Prog.within_pure _
  · exact Prog.Within.bind (Prog.within_perform.mpr trivial) fun now =>
      Prog.Within.bind (Prog.within_ofExcept _) fun _ => Prog.within_pure _
  · exact Prog.within_raise _

theorem within_checkSpotSell : (checkSpotSell a).Within Op.Asks := by
  unfold checkSpotSell
  split
  · exact Prog.within_ofExcept _
  · exact Prog.within_pure _

omit [PyStr] in
theorem within_checkLeader : (checkLeader self a).Within Op.Asks := by
  unfold checkLeader
  split
  · exact Prog.within_raise _
  · refine Prog.Within.bind (Prog.within_perform.mpr trivial) fun b => ?_
    split <;> trivial

omit [PyStr] in
theorem within_checkReserved : (checkReserved a).Within Op.Asks :=
  Prog.Within.bind (Prog.within_perform.mpr trivial) fun b => by split <;> trivial

omit [PyStr] in
theorem within_checkLiveBalance : (checkLiveBalance a).Within Op.Asks := by
  refine Prog.Within.bind (Prog.Within.attempt
    (Prog.Within.bind (Prog.within_perform.mpr trivial)
      fun _ => Prog.within_perform.mpr trivial)) fun r => ?_
  rcases r with e | u
  · cases e <;> first
      | exact Prog.within_raise _
      | exact Prog.Within.bind (Prog.within_perform.mpr trivial) fun _ => Prog.within_raise _
  · exact Prog.within_ret _

omit [PyStr] in
theorem within_checkReservations : (checkReservations self a).Within Op.Asks := by
  unfold checkReservations
  split
  · exact Prog.within_pure _
  · refine (within_checkReserved a).bind fun _ => ?_
    split
    · exact within_checkLiveBalance a
    · exact Prog.within_pure _

omit [PyStr] in
theorem within_checkLive : (checkLive self a).Within Op.Asks := by
  unfold checkLive
  split
  · exact (within_checkLeader self a).bind fun _ => within_checkReservations self a
  · exact Prog.within_pure _

theorem within_guards : (guards self a).Within Op.Asks :=
  (within_checkIsolation self a).bind fun _ => (within_checkRisk a).bind fun _ =>
    (Prog.within_ofExcept _).bind fun _ => (within_checkPretrade a).bind fun _ =>
      (within_checkSpotSell a).bind fun _ => within_checkLive self a

theorem within_normalizeRevalidated {A : Op → Prop}
    (hfilters : A (.getSymbolFilters a.intent.symbol))
    (hcap : A (.getCapabilities a.intent.symbol))
    (hreview : A (.manualReview "SYMBOL_METADATA_CHANGED_BEFORE_SUBMIT")) :
    (normalizeRevalidated a).Within A := by
  refine Prog.Within.bind (Prog.within_perform.mpr hfilters) fun filters =>
    Prog.Within.bind (Prog.within_perform.mpr hcap) fun cap =>
    Prog.Within.bind (Prog.within_ofExcept _) fun n =>
    Prog.Within.bind (Prog.within_perform.mpr hfilters) fun filters' =>
    Prog.Within.bind (Prog.within_perform.mpr hcap) fun cap' => ?_
  split
  · exact Prog.Within.bind (Prog.within_perform.mpr hreview) fun _ => Prog.within_raise _
  · exact Prog.within_pure _

/-- What leaves normalization was accepted by it, under some metadata. -/
theorem returns_normalizeRevalidated : (normalizeRevalidated a).Returns fun n =>
    ∃ filters cap, normalizeAndValidate a.intent filters cap a.referencePrice
      a.maxDeviationBps = .ok n := by
  unfold normalizeRevalidated
  refine Prog.Returns.bind Prog.returns_perform fun filters _ => ?_
  refine Prog.Returns.bind Prog.returns_perform fun cap _ => ?_
  refine Prog.Returns.bind (Prog.returns_ofExcept fun n hn => hn) fun n hn => ?_
  refine Prog.Returns.bind Prog.returns_perform fun filters' _ => ?_
  refine Prog.Returns.bind Prog.returns_perform fun cap' _ => ?_
  split
  · exact Prog.Returns.bind Prog.returns_perform fun _ _ => trivial
  · exact ⟨filters, cap, hn⟩

section Within

omit [PyStr]

variable {self a} {A : Op → Prop} {record : OrderRecord} {e : Exc}

theorem within_adopt (hset : A (.setRecord self.id a.intent.intentId record)) :
    (adopt self a record).Within A :=
  Prog.Within.bind (Prog.within_perform.mpr hset) fun _ => Prog.within_pure _

theorem within_checkFence
    (hfence : A (.requireCurrent a.intent.accountId a.instanceId a.fencingToken)) :
    (checkFence self a).Within A := by
  unfold checkFence
  split
  · exact Prog.within_perform.mpr hfence
  · exact Prog.within_pure _

theorem within_markDurable (hupdate : A (.updateOrder a.intent.intentId record)) :
    (markDurable self a record).Within A := by
  unfold markDurable
  split
  · exact Prog.Within.bind (Prog.within_perform.mpr hupdate) fun found => by split <;> trivial
  · exact Prog.within_pure _

theorem within_isolate
    (hblock : ∀ iso, A (.block iso a.intent.accountId a.intent.symbol "UNKNOWN_ORDER"))
    (hreview : A (.manualReview "UNKNOWN_ORDER")) : (isolate self a).Within A := by
  unfold isolate
  split
  · exact Prog.within_perform.mpr (hblock _)
  · exact Prog.within_perform.mpr hreview

theorem within_onAmbiguous
    (hset : A (.setRecord self.id a.intent.intentId { record with state := .UNKNOWN }))
    (hupdate : A (.updateOrder a.intent.intentId { record with state := .UNKNOWN }))
    (hblock : ∀ iso, A (.block iso a.intent.accountId a.intent.symbol "UNKNOWN_ORDER"))
    (hreview : A (.manualReview "UNKNOWN_ORDER")) :
    (onAmbiguous self a record e).Within A := by
  have hisolate : (isolate self a).Within A := within_isolate hblock hreview
  have hhandled : (handleAmbiguous self a record).Within A :=
    Prog.Within.bind (Prog.within_perform.mpr hset) fun _ =>
      (within_markDurable hupdate).bind fun _ => hisolate.bind fun _ => Prog.within_pure _
  cases e with
  | ambiguousExecution => exact hhandled
  | timeoutError => exact hhandled
  | _ => exact Prog.within_raise _

variable {n : OrderIntent}

theorem within_sideEffect (hA : ∀ o : Op, o.Completes → A o) (hn : A (.submitOrder n)) :
    (sideEffect self a n record).Within A := by
  have hfence : (checkFence self a).Within A := within_checkFence (hA _ trivial)
  have hset : ∀ actual, A (.setRecord self.id a.intent.intentId actual) := fun _ => hA _ trivial
  have hsend : (send self a n).Within A :=
    hfence.bind fun _ => (Prog.within_perform.mpr hn).bind fun actual =>
      (Prog.within_perform.mpr (hset actual)).bind fun _ =>
        (within_markDurable (hA _ trivial)).bind fun _ => Prog.within_pure _
  refine Prog.Within.bind (Prog.within_perform.mpr (hA _ trivial)) fun _ => ?_
  refine hsend.attempt.bind fun r => ?_
  cases r with
  | ok actual => exact Prog.within_ret _
  | error e =>
    exact within_onAmbiguous (hA _ trivial) (hA _ trivial) (fun _ => hA _ trivial) (hA _ trivial)

theorem within_reserveBeforeSideEffect (hA : ∀ o : Op, o.Completes → A o) :
    (reserveBeforeSideEffect n).Within A := by
  have hexisting : ∀ row, (existingRecord row n).Within A := fun row =>
    (Prog.within_ofExcept _).bind fun _ => Prog.within_pure _
  have hinsert : ∀ row, A (.insertOrder row) := fun row => hA _ trivial
  refine Prog.Within.bind (Prog.within_perform.mpr (hA _ trivial)) fun existing => ?_
  cases existing with
  | some row => exact hexisting row
  | none =>
    refine Prog.Within.bind (Prog.within_perform.mpr (hinsert _)).attempt fun inserted => ?_
    cases inserted with
    | ok u =>
      refine Prog.Within.bind (Prog.within_perform.mpr (hA _ trivial)) fun row => ?_
      cases row <;> trivial
    | error e =>
      cases e with
      | integrityError =>
        refine Prog.Within.bind (Prog.within_perform.mpr (hA _ trivial)) fun existing => ?_
        cases existing with
        | some row => exact hexisting row
        | none => trivial
      | _ => trivial

theorem within_reconciled (hA : ∀ o : Op, o.Completes → A o) {id : String}
    {expected : Option OrderIntent} : (reconcileExisting id expected).Within A :=
  within_reconcileExisting (hA _ trivial) (fun _ => hA _ trivial) fun _ => hA _ trivial

/-- **A new order**: nothing is sent but what was normalized. -/
theorem within_fresh (hA : ∀ o : Op, o.Completes → A o) (hn : A (.submitOrder n)) :
    (if self.persistentIntents then reserveAndSend self a n
      else sideEffect self a n (recordOf n)).Within A := by
  split
  · refine (within_reserveBeforeSideEffect hA).bind fun ⟨durable, created⟩ => ?_
    cases created with
    | true => exact within_sideEffect hA hn
    | false =>
      refine (within_reconciled hA).bind fun resolved => ?_
      cases resolved with
      | some resolved => exact within_adopt (hA _ trivial)
      | none => trivial
  · exact within_sideEffect hA hn

end Within

variable {self a} {A : Op → Prop}

/-- **Behind the guards** an order is sent only if normalization has returned it. -/
theorem within_submitAdmitted (hA : ∀ o : Op, o.Completes → A o)
    (hsend : ∀ n filters cap, normalizeAndValidate a.intent filters cap a.referencePrice
      a.maxDeviationBps = .ok n → A (.submitOrder n)) :
    (submitAdmitted self a).Within A := by
  have hfresh : (submitFresh self a).Within A := by
    refine Prog.Within.bind_returns
      (within_normalizeRevalidated a (hA _ trivial) (hA _ trivial) (hA _ trivial))
      (returns_normalizeRevalidated a) ?_
    rintro n ⟨filters, cap, hnorm⟩
    exact within_fresh hA (hsend n filters cap hnorm)
  refine Prog.Within.bind (Prog.within_perform.mpr (hA _ trivial)) fun cached => ?_
  cases cached with
  | some record => exact Prog.within_pure _
  | none =>
    change (submitUncached self a).Within A
    unfold submitUncached
    split
    · refine (within_reconciled hA).bind fun existing => ?_
      cases existing with
      | some existing => exact within_adopt (hA _ trivial)
      | none => exact hfresh
    · exact hfresh

/-- What the guards have checked of a call they pass. -/
structure Admitted (a : SubmitArgs) : Prop where
  reduceOnly : validateReduceOnly a.intent a.currentPositionQty = .ok ()
  pretrade : ∀ limits ctx, a.pretradeLimits = some limits → a.pretradeContext = some ctx →
    ∃ now d, requirePretrade a.intent limits ctx now = .ok d

theorem returns_checkPretrade : (checkPretrade a).Returns fun _ =>
    ∀ limits ctx, a.pretradeLimits = some limits → a.pretradeContext = some ctx →
      ∃ now d, requirePretrade a.intent limits ctx now = .ok d := by
  unfold checkPretrade
  cases hlimits : a.pretradeLimits with
  | none => exact (Prog.returns_any _).mono fun _ _ limits ctx hsome => by cases hsome
  | some limits =>
    cases hctx : a.pretradeContext with
    | none => exact (Prog.returns_any _).mono fun _ _ limits ctx _ hsome => by cases hsome
    | some ctx =>
      refine Prog.Returns.bind (Prog.returns_any _) fun now _ => ?_
      refine Prog.Returns.bind (Prog.returns_ofExcept fun _ h => h) fun d hd => ?_
      refine (Prog.returns_any _).mono ?_
      rintro _ _ limits' ctx' ⟨⟩ ⟨⟩
      exact ⟨now, d, hd⟩

/-- The guards return only for a call they pass. -/
theorem returns_guards : (guards self a).Returns fun _ => Admitted a := by
  refine Prog.Returns.bind (Prog.returns_any _) fun _ _ => ?_
  refine Prog.Returns.bind (Prog.returns_any _) fun _ _ => ?_
  refine Prog.Returns.bind (Prog.returns_ofExcept fun _ h => h) fun _ hreduce => ?_
  refine Prog.Returns.bind returns_checkPretrade fun _ hpretrade => ?_
  exact (Prog.returns_any _).mono fun _ _ => ⟨hreduce, hpretrade⟩

/-- **A submission** sends an order only if the guards pass the call and normalization returns
it. -/
theorem within_submit (hA : ∀ o : Op, o.Completes → A o) (hreads : ∀ o : Op, o.Reads → A o)
    (hsend : Admitted a → ∀ n filters cap,
      normalizeAndValidate a.intent filters cap a.referencePrice a.maxDeviationBps = .ok n →
        A (.submitOrder n)) : (submit self a).Within A := by
  refine Prog.Within.bind (Prog.within_perform.mpr (hA _ trivial)) fun _ => ?_
  refine Prog.Within.bind (Prog.Within.attempt ?_) fun r =>
    Prog.Within.bind (Prog.within_perform.mpr (hA _ trivial)) fun _ => Prog.within_ofExcept _
  have hguards := (within_guards self a).mono fun o ho => hreads o ho.reads
  exact hguards.bind_returns returns_guards fun _ hadmitted =>
    within_submitAdmitted hA (hsend hadmitted)

end ExecutionService

end Kripto.Execution
