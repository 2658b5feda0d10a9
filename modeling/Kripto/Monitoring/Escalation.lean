/-
# The escalation ledger

`monitoring/escalation.py`: the state of alerts in a table that several processes share.  The
connections commit every statement by itself.  `acknowledge`, `mark_escalated` and `resolve` are
one statement each, with what they ask of the row in its `WHERE`; `record` reads the row and, in a
second statement, replaces or updates it, whatever it is by then.

Times are rational numbers of seconds.
-/
import Kripto.Effect.Pool
import Kripto.Effect.Totals
import Kripto.Python.Json

namespace Kripto.Monitoring

open Effect Python

/-! ## 1. Rows and statements -/

inductive Exc
  | valueError (msg : String)
  | lookupError (arg : String)
  | dump (e : DumpError)
  | operationalError
  deriving DecidableEq

/-- A row of `alert_escalation`, beside its key. -/
structure AlertRow where
  severity : String
  firstSeenAt : ℚ
  lastSeenAt : ℚ
  nextEscalationAt : ℚ
  attempts : ℕ
  acknowledged : Bool
  resolved : Bool
  evidenceJson : Text
  deriving DecidableEq

abbrev Alerts : Type := Table String AlertRow

/-- The clock, and the statements.  The three that are guarded by their `WHERE` answer how many
rows they changed. -/
inductive Op
  | time
  | select (alertKey : String)
  | insertOrReplace (alertKey : String) (row : AlertRow)
  | updateSeen (alertKey severity : String) (lastSeenAt : ℚ) (evidenceJson : Text)
  | selectDue (now : ℚ)
  | updateAttempts (alertKey : String) (lastSeenAt nextEscalationAt : ℚ)
  | updateAcknowledged (alertKey : String)
  | updateResolved (alertKey : String)

abbrev alertSig : Sig where
  Op := Op
  Val o := match o with
    | .time => ℚ
    | .select _ => Option AlertRow
    | .insertOrReplace _ _ => Unit
    | .updateSeen _ _ _ _ => Unit
    | .selectDue _ => List (String × AlertRow)
    | .updateAttempts _ _ _ => ℕ
    | .updateAcknowledged _ => ℕ
    | .updateResolved _ => ℕ
  Exc := Exc

abbrev Program (α : Type) : Type := Prog alertSig α

def perform (o : Op) : Program (alertSig.Val o) := Prog.perform (S := alertSig) o

structure EscalationState where
  alertKey : String
  severity : String
  firstSeenAt : ℚ
  lastSeenAt : ℚ
  nextEscalationAt : ℚ
  attempts : ℕ
  acknowledged : Bool
  resolved : Bool
  deriving DecidableEq

/-! ## 2. The ledger -/

namespace PersistentEscalationLedger

def row (alertKey : String) (r : AlertRow) : EscalationState where
  alertKey := alertKey
  severity := r.severity
  firstSeenAt := r.firstSeenAt
  lastSeenAt := r.lastSeenAt
  nextEscalationAt := r.nextEscalationAt
  attempts := r.attempts
  acknowledged := r.acknowledged
  resolved := r.resolved

def get (alertKey : String) : Program EscalationState := do
  let found : Option AlertRow ← perform (.select alertKey)
  match found with
  | none => .raise (.lookupError alertKey)
  | some r => pure (row alertKey r)

structure RecordArgs where
  alertKey : String
  severity : String
  now : Option ℚ
  escalationSeconds : ℚ
  evidence : Option Dict

/-- `time.time() if now is None else float(now)`. -/
def nowOr : Option ℚ → Program ℚ
  | none => perform .time
  | some now => pure now

/-- `json.dumps(evidence or {}, sort_keys=True, separators=(",", ":"))`. -/
def dumps (evidence : Option Dict) : Program Text :=
  .ofExcept (((PyValue.dict (evidence.getD [])).dumps
    { ensureAscii := true, defaultStr := false }).mapError .dump)

/-- A first occurrence. -/
def RecordArgs.fresh (a : RecordArgs) (now : ℚ) (evidenceJson : Text) : AlertRow where
  severity := a.severity
  firstSeenAt := now
  lastSeenAt := now
  nextEscalationAt := now + a.escalationSeconds
  attempts := 0
  acknowledged := false
  resolved := false
  evidenceJson := evidenceJson

/-- What `record` writes, from the row it has read. -/
def write (a : RecordArgs) (now : ℚ) (evidenceJson : Text) (found : Option AlertRow) :
    Program Unit :=
  if found.all (·.resolved) then perform (.insertOrReplace a.alertKey (a.fresh now evidenceJson))
  else perform (.updateSeen a.alertKey a.severity now evidenceJson)

def record (a : RecordArgs) : Program EscalationState :=
  if a.escalationSeconds ≤ 0 then .raise (.valueError "escalation_seconds must be positive")
  else do
    let now ← nowOr a.now
    let evidenceJson ← dumps a.evidence
    let found : Option AlertRow ← perform (.select a.alertKey)
    write a now evidenceJson found
    get a.alertKey

def due (now : Option ℚ) : Program (List EscalationState) := do
  let now ← nowOr now
  let rows : List (String × AlertRow) ← perform (.selectDue now)
  pure (rows.map fun e => row e.1 e.2)

def markEscalated (alertKey : String) (now escalationSeconds : ℚ) : Program EscalationState :=
  if escalationSeconds ≤ 0 then .raise (.valueError "escalation_seconds must be positive")
  else do
    let rowcount : ℕ ← perform (.updateAttempts alertKey now (now + escalationSeconds))
    if rowcount ≠ 1 then .raise (.lookupError "active unacknowledged alert not found")
    else get alertKey

def acknowledge (alertKey : String) : Program EscalationState := do
  let rowcount : ℕ ← perform (.updateAcknowledged alertKey)
  if rowcount ≠ 1 then .raise (.lookupError "active alert not found") else get alertKey

def resolve (alertKey : String) : Program EscalationState := do
  let rowcount : ℕ ← perform (.updateResolved alertKey)
  if rowcount ≠ 1 then .raise (.lookupError "alert not found") else get alertKey

end PersistentEscalationLedger

/-! ## 3. The table under the statements -/

namespace Alerts

/-- `UPDATE ... WHERE alert_key = ... AND ...`, with its `rowcount`. -/
def updateWhere (d : Alerts) (alertKey : String) (p : AlertRow → Bool) (f : AlertRow → AlertRow) :
    ℕ × Alerts :=
  if (d.lookup alertKey).any p then (1, Table.update d alertKey f) else (0, d)

/-- `ORDER BY next_escalation_at, alert_key`. -/
def due (d : Alerts) (now : ℚ) : List (String × AlertRow) :=
  ((d.entries.filter fun e => !e.2.resolved && !e.2.acknowledged && e.2.nextEscalationAt ≤ now).map
    fun e => (e.1, e.2)).mergeSort fun x y =>
      x.2.nextEscalationAt < y.2.nextEscalationAt ∨
        x.2.nextEscalationAt = y.2.nextEscalationAt ∧ x.1 ≤ y.1

def active (r : AlertRow) : Bool := !r.resolved

/-- What a statement answers and leaves. -/
def serve : (o : Op) → Alerts → alertSig.Ans o × Alerts
  | .time, d => (.ok 0, d)
  | .select alertKey, d => (.ok (d.lookup alertKey), d)
  | .insertOrReplace alertKey row, d => (.ok (), d.insert alertKey row)
  | .updateSeen alertKey severity lastSeenAt evidenceJson, d =>
    (.ok (), Table.update d alertKey fun r =>
      { r with severity := severity, lastSeenAt := lastSeenAt, evidenceJson := evidenceJson })
  | .selectDue now, d => (.ok (d.due now), d)
  | .updateAttempts alertKey lastSeenAt nextEscalationAt, d =>
    let changed := d.updateWhere alertKey (fun r => active r && !r.acknowledged) fun r =>
      { r with
        attempts := r.attempts + 1
        lastSeenAt := lastSeenAt
        nextEscalationAt := nextEscalationAt }
    (.ok changed.1, changed.2)
  | .updateAcknowledged alertKey, d =>
    let changed := d.updateWhere alertKey active fun r => { r with acknowledged := true }
    (.ok changed.1, changed.2)
  | .updateResolved alertKey, d =>
    let changed := d.updateWhere alertKey (fun _ => true) fun r => { r with resolved := true }
    (.ok changed.1, changed.2)

/-- The clock shows any time, and every statement can also raise and change nothing. -/
def handler : Handler alertSig Alerts := fun o d r d' =>
  (match o with
    | .time => d' = d
    | o => (r, d') = serve o d) ∨ (∃ e, r = .error e) ∧ d' = d

end Alerts

end Kripto.Monitoring
