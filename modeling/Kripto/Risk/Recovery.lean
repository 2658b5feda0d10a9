/-
# Restart recovery and private-stream recovery

`execution/reconciliation.py`, `RestartRecoveryCoordinator` and
`PrivateStreamRecoveryCoordinator`: two kinds of coordinators that share one `RiskMachine`.
Their methods are programs.  The operations are the methods of the machine, the coordinators'
own fields, and the questions asked of the exchange and of the local snapshot provider, which
may answer anything or raise.

Any number of coordinators of either kind may share the machine; a coordinator is known by a
number.
-/
import Kripto.Effect.Session
import Kripto.Risk.State

namespace Kripto.Risk

open Execution Effect

/-! ## 1. Reconciliation -/

/-- The order in which a `set` built by these insertions is iterated. -/
class PySet where
  elements : List String → List String
  mem_elements : ∀ {x : String} {inserted : List String}, x ∈ elements inserted ↔ x ∈ inserted

/-- The amounts of a snapshot are only ever compared with each other and with `Decimal('0')`;
the comparison need not be reflexive (`NaN`). -/
structure AccountSnapshot (V : Type) where
  balances : List (String × V)
  positions : List (String × V)
  openOrderIds : List String

structure ReconciliationResult where
  drift : List String
  riskState : RiskState

section Reconcile

variable [PySet] {V : Type} [BEq V] [Zero V]

/-- The keys of either dict under which the two differ; a missing key is a zero. -/
def changedKeys (loc exch : List (String × V)) : List String :=
  (PySet.elements (loc.map Prod.fst ++ exch.map Prod.fst)).filter fun key =>
    (loc.lookup key).getD 0 != (exch.lookup key).getD 0

def reconcile (loc exch : AccountSnapshot V) : ReconciliationResult :=
  let drift :=
    (changedKeys loc.balances exch.balances).map ("UNKNOWN_BALANCE_CHANGE:" ++ ·) ++
    (changedKeys loc.positions exch.positions).map ("UNKNOWN_POSITION_CHANGE:" ++ ·) ++
    (PySet.elements (exch.openOrderIds.filter (· ∉ loc.openOrderIds))).map
      ("UNKNOWN_ORDER:" ++ ·) ++
    (PySet.elements (loc.openOrderIds.filter (· ∉ exch.openOrderIds))).map
      ("MISSING_EXCHANGE_ORDER:" ++ ·)
  { drift := drift
    riskState := if drift = [] then .NORMAL else .MANUAL_REVIEW_REQUIRED }

end Reconcile

structure RestartRecoveryEvidence where
  reconciliation : ReconciliationResult
  checks : RecoveryChecks
  humanApproved : Bool

structure PrivateStreamReconnectEvidence where
  reconciliation : ReconciliationResult
  streamHealthy : Bool
  requiresHumanReview : Bool

/-! ## 2. The operations -/

/-- What `get_positions` answers: a dict, or items that each have a symbol and a quantity. -/
inductive PositionsRaw (V : Type)
  | dict (positions : List (String × V))
  | items (items : List (Option String × Option V))

inductive Op : Type
  | method (c : RiskMachine.Method)
  | riskState
  | setRestartEvidence (coordinator : ℕ) (evidence : RestartRecoveryEvidence)
  | localSnapshotProvider (coordinator : ℕ)
  | getBalance
  | getPositions
  | getOpenOrders
  | authExpired (coordinator : ℕ)
  | setAuthExpired (coordinator : ℕ) (b : Bool)
  | setDisconnected (coordinator : ℕ) (b : Bool)
  | setStreamEvidence (coordinator : ℕ) (evidence : PrivateStreamReconnectEvidence)

def Op.Val (V : Type) : Op → Type
  | .riskState => RiskState
  | .localSnapshotProvider _ => AccountSnapshot V
  | .getBalance => List (String × V)
  | .getPositions => PositionsRaw V
  | .getOpenOrders => List (Option String)
  | .authExpired _ => Bool
  | _ => Unit

abbrev riskSig (V : Type) : Sig := ⟨Op, Op.Val V, Exc⟩

abbrev Program (V α : Type) : Type := Prog (riskSig V) α

variable {V : Type}

def perform (o : Op) : Program V (o.Val V) := @Prog.perform (riskSig V) o

/-- The fields of a `PrivateStreamRecoveryCoordinator`. -/
structure StreamState where
  disconnected : Bool := false
  authExpired : Bool := false
  lastEvidence : Option PrivateStreamReconnectEvidence := none

/-- The machine and the fields of the coordinators. -/
structure World where
  machine : RiskMachine
  restartEvidence : ℕ → Option RestartRecoveryEvidence
  stream : ℕ → StreamState

def World.setStream (w : World) (k : ℕ) (s : StreamState) : World :=
  { w with stream := Function.update w.stream k s }

/-- **The semantics of the operations.** -/
def handler : Handler (riskSig V) World
  | .method c, w, r, w' =>
      r = (c.run w.machine).1 ∧ w' = { w with machine := (c.run w.machine).2 }
  | .riskState, w, r, w' => r = .ok w.machine.state ∧ w' = w
  | .setRestartEvidence k evidence, w, r, w' =>
      r = .ok () ∧
        w' = { w with restartEvidence := Function.update w.restartEvidence k (some evidence) }
  | .authExpired k, w, r, w' => r = .ok (w.stream k).authExpired ∧ w' = w
  | .setAuthExpired k b, w, r, w' =>
      r = .ok () ∧ w' = w.setStream k { w.stream k with authExpired := b }
  | .setDisconnected k b, w, r, w' =>
      r = .ok () ∧ w' = w.setStream k { w.stream k with disconnected := b }
  | .setStreamEvidence k evidence, w, r, w' =>
      r = .ok () ∧ w' = w.setStream k { w.stream k with lastEvidence := some evidence }
  | .localSnapshotProvider _, w, _, w' => w' = w
  | .getBalance, w, _, w' => w' = w
  | .getPositions, w, _, w' => w' = w
  | .getOpenOrders, w, _, w' => w' = w

/-- Only its methods change the machine. -/
theorem handler_machine {o : Op} {w w' : World} {r : (riskSig V).Ans o}
    (h : handler o w r w') :
    w'.machine = w.machine ∨ ∃ c, o = .method c ∧ w'.machine = (c.run w.machine).2 := by
  cases o with
  | method c => exact .inr ⟨c, rfl, by rw [h.2]⟩
  | riskState | setRestartEvidence | authExpired | setAuthExpired | setDisconnected
  | setStreamEvidence => rw [h.2]; exact .inl rfl
  | localSnapshotProvider | getBalance | getPositions | getOpenOrders => exact .inl (by rw [h])

/-! ## 3. `RestartRecoveryCoordinator` -/

structure EvaluateArgs (V : Type) where
  loc : AccountSnapshot V
  exchange : AccountSnapshot V
  checks : RecoveryChecks
  humanApproved : Bool

namespace RestartRecoveryCoordinator

def begin : Program V Unit :=
  perform (.method (.recoveryPending "restart reconciliation required"))

/-- Is this the drift item of an order one side does not know? -/
def isOrderDrift (item : String) : Bool :=
  "UNKNOWN_ORDER:".toList.isPrefixOf item.toList ||
    "MISSING_EXCHANGE_ORDER:".toList.isPrefixOf item.toList

def effectiveChecks (checks : RecoveryChecks) (drift : List String) : RecoveryChecks :=
  { checks with
    reconciliationOk := checks.reconciliationOk && drift.isEmpty
    noOrphanOrders := checks.noOrphanOrders && !drift.any isOrderDrift }

theorem effectiveChecks_nil (checks : RecoveryChecks) : effectiveChecks checks [] = checks := by
  simp [effectiveChecks]

variable [PySet] [BEq V] [Zero V]

/-- The evidence an evaluation comes to. -/
def evidenceOf (a : EvaluateArgs V) : RestartRecoveryEvidence :=
  let result := reconcile a.loc a.exchange
  ⟨result, effectiveChecks a.checks result.drift, a.humanApproved⟩

def evaluate (k : ℕ) (a : EvaluateArgs V) : Program V RestartRecoveryEvidence := do
  let state : RiskState ← perform .riskState
  if state ∉ [RiskState.STARTING, .RECOVERY_PENDING, .MANUAL_REVIEW_REQUIRED] then
    .raise (.permissionError "restart recovery can only run from startup/recovery states")
  else do
    let evidence := evidenceOf a
    perform (.setRestartEvidence k evidence)
    if evidence.reconciliation.drift ≠ [] then do
      perform (.method (.manualReview ("restart reconciliation drift: " ++
        ",".intercalate evidence.reconciliation.drift)))
      pure evidence
    else if !a.humanApproved || !evidence.checks.allGreen then do
      perform (.method (.recoveryPending "restart recovery gates incomplete"))
      pure evidence
    else do
      let state : RiskState ← perform .riskState
      if state ≠ .RECOVERY_PENDING then
        perform (.method (.recoveryPending "restart recovery gates passed"))
      perform (.method (.recover
        { humanApproved := true, checks := some evidence.checks, target := some .ACTIVE }))
      pure evidence

end RestartRecoveryCoordinator

/-! ## 4. `PrivateStreamRecoveryCoordinator` -/

namespace PrivateStreamRecoveryCoordinator

def onDisconnect (k : ℕ) (reason : String := "PRIVATE_STREAM_DISCONNECTED") : Program V Unit := do
  perform (.setDisconnected k true)
  perform (.method (.restrict reason))

def onAuthExpired (k : ℕ) : Program V Unit := do
  perform (.setAuthExpired k true)
  perform (.setDisconnected k true)
  perform (.method (.restrict "PRIVATE_STREAM_AUTH_EXPIRED"))

/-- The dict built from the items: without those that name no symbol, and the last item of a
symbol is the one that counts. -/
def positionsOf [Zero V] : PositionsRaw V → List (String × V)
  | .dict positions => positions
  | .items items =>
      (items.filterMap fun item =>
        match item.1 with
        | none => none
        | some symbol => if symbol = "" then none else some (symbol, item.2.getD 0)).reverse

variable [PySet] [BEq V] [Zero V]

/-- The arguments of `on_reconnect`. -/
structure Reconnect where
  streamHealthy : Bool
  authRefreshed : Bool := true

def onReconnect (k : ℕ) (a : Reconnect) : Program V PrivateStreamReconnectEvidence := do
  let loc ← perform (.localSnapshotProvider k)
  let balances ← perform .getBalance
  let positionsRaw ← perform .getPositions
  let openOrders ← perform .getOpenOrders
  let remote : AccountSnapshot V :=
    ⟨balances, positionsOf positionsRaw, openOrders.reduceOption⟩
  let result := reconcile loc remote
  let authExpired ← perform (.authExpired k)
  let authOk := !authExpired || a.authRefreshed
  let effectiveStreamHealthy := a.streamHealthy && authOk
  let requiresReview := !result.drift.isEmpty || !effectiveStreamHealthy
  let evidence : PrivateStreamReconnectEvidence :=
    ⟨result, effectiveStreamHealthy, requiresReview⟩
  perform (.setStreamEvidence k evidence)
  perform (.setDisconnected k false)
  if authOk then perform (.setAuthExpired k false)
  if result.drift ≠ [] then
    perform (.method (.manualReview ("PRIVATE_STREAM_RECONNECT_DRIFT:" ++
      ",".intercalate result.drift)))
  else if !effectiveStreamHealthy then
    perform (.method (.recoveryPending "private stream reconnect/auth not healthy"))
  else
    perform (.method (.recoveryPending "private stream reconciled; recovery approval required"))
  pure evidence

end PrivateStreamRecoveryCoordinator

/-! ## 5. Runs -/

/-- A call from outside: of the machine, or of one of the coordinators. -/
inductive Call (V : Type)
  | machine (c : RiskMachine.Method)
  | begin (k : ℕ)
  | evaluate (k : ℕ) (a : EvaluateArgs V)
  | onDisconnect (k : ℕ) (reason : String)
  | onAuthExpired (k : ℕ)
  | onReconnect (k : ℕ) (a : PrivateStreamRecoveryCoordinator.Reconnect)

def Call.body [PySet] [BEq V] [Zero V] : Call V → Program V Unit
  | .machine c => perform (.method c)
  | .begin _ => RestartRecoveryCoordinator.begin
  | .evaluate k a => RestartRecoveryCoordinator.evaluate k a >>= fun _ => pure ()
  | .onDisconnect k reason => PrivateStreamRecoveryCoordinator.onDisconnect k reason
  | .onAuthExpired k => PrivateStreamRecoveryCoordinator.onAuthExpired k
  | .onReconnect k a => PrivateStreamRecoveryCoordinator.onReconnect k a >>= fun _ => pure ()

/-- Any calls in any order.  A call cut short by an exception from outside leaves what it has
done so far. -/
def calls (V : Type) [PySet] [BEq V] [Zero V] :
    Session.System (riskSig V) World Unit (Call V) Empty where
  body := Call.body
  handler := fun _ => handler
  lose := fun _ w => w
  idle := fun l _ _ => l.elim

end Kripto.Risk
