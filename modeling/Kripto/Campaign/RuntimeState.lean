/-
# The runtime state of a campaign

`release/campaign_runtime_state.py`: what the paper broker and the private projector hold is
written to a signed file, and restored from it after a restart.  `restore_runtime_state` assigns
while it reads: where it raises, what it has assigned stays.

A file is the JSON value it is read to.  A value of the payload that stands for a decimal is its
text.
-/
import Kripto.Campaign.Adapter
import Kripto.Campaign.Canonical
import Mathlib.Data.Finset.Sort

namespace Kripto.Campaign.RuntimeState

open Effect Paper Kripto.Stream PyRuntime AdapterRuntime CollectionEncoding

/-! ## 1. Values -/

/-- What only the runtime state needs of the runtime: the text of a decimal, and `int`. -/
class StateRuntime [PyRuntime] [AdapterRuntime] where
  decimalStr : ℚ → String
  int : Json → Except Exc ℤ

def SCHEMA_VERSION : String := "1.0"

def CLASSIFICATION : String := "PHASE266_PROTECTED_CAMPAIGN_RUNTIME_STATE"

def ATTESTATION_SCHEME : String := "HMAC-SHA256"

/-- A table from the items of a dictionary. -/
def tableOf {ν : Type} (items : List (String × ν)) : Table String ν :=
  items.foldl (fun t e => t.insert e.1 e.2) ∅

/-- `sorted(d.items())`. -/
def sortedEntries {ν : Type} (t : Table String ν) : List (String × ν) :=
  byKey (t.entries.map fun e => (e.1, e.2))

/-- The object of a dictionary. -/
def objectOfTable {ν : Type} (encode : ν → Json) (t : Table String ν) : Json :=
  .obj ((sortedEntries t).map fun e => (e.1, encode e.2))

section Reading

variable [PyRuntime] [AdapterRuntime]

/-- `Decimal(str(v))`. -/
def decimalOf (v : Json) : Except Exc ℚ :=
  match decimal v.text with
  | some q => .ok q
  | none => .error (.other "InvalidOperation")

/-- `payload.get(name)`. -/
def get (payload : Payload) (name : String) : Json := (payload.lookup name).getD .null

/-- `bool(v)`. -/
def truthy : Json → Bool
  | .null => false
  | .bool b => b
  | .int n => n ≠ 0
  | .float r => PyRuntime.float r ≠ some (.finite 0)
  | .str s => s ≠ ""
  | .arr items => !items.isEmpty
  | .obj fields => !fields.isEmpty

/-- `for x in v`: the items of a list, the keys of an object, the characters of a text. -/
def iterate : Json → Except Exc (List Json)
  | .arr items => .ok items
  | .obj fields => .ok (fields.map fun e => .str e.1)
  | .str s => .ok (s.toList.map fun c => .str (String.ofList [c]))
  | _ => .error (.other "TypeError")

/-- The fields of an object. -/
def fieldsOf : Json → Option Payload
  | .obj fields => some fields
  | _ => none

/-- `str(row[name])`. -/
def itemText (row : Payload) (name : String) : Except Exc String := do
  return (← item row name).text

/-- `Decimal(str(row[name]))`. -/
def itemDecimal (row : Payload) (name : String) : Except Exc ℚ := do
  decimalOf (← item row name)

end Reading

variable [PyRuntime] [AdapterRuntime] [StateRuntime] [CollectionEncoding]

open StateRuntime

/-! ## 2. Writing -/

section Writing

omit [CollectionEncoding]

def fillPayload (fill : PaperFill) : Payload :=
  [("side", .str fill.side), ("qty", .str (decimalStr fill.qty)),
    ("price", .str (decimalStr fill.price)), ("fee", .str (decimalStr fill.fee)),
    ("latency_ms", .int fill.latencyMs), ("status", .str fill.status),
    ("reason", .str fill.reason)]

def takeProfitsPayload (t : TakeProfits) : Json :=
  .arr [.str (decimalStr t.first), .str (decimalStr t.second), .str (decimalStr t.third)]

def positionPayload (position : PaperPosition) : Payload :=
  [("symbol", .str position.symbol), ("qty", .str (decimalStr position.qty)),
    ("entry_price", .str (decimalStr position.entryPrice)),
    ("stop_loss", .str (decimalStr position.stopLoss)),
    ("take_profits", takeProfitsPayload position.takeProfits),
    ("remaining_qty", .str (decimalStr position.remainingQty)),
    ("realized_pnl", .str (decimalStr position.realizedPnl)),
    ("closed", .bool position.closed),
    ("triggered_tps", .arr (position.triggeredTps.sort.map .int))]

/-- `_paper_payload`. -/
def paperPayload (broker : PaperBroker) : Payload :=
  [("fee_bps", .str (decimalStr broker.feeBps)),
    ("slippage_bps", .str (decimalStr broker.slippageBps)),
    ("fills", .arr (broker.fills.map fun fill => .obj (fillPayload fill))),
    ("positions", objectOfTable (fun position => .obj (positionPayload position))
      broker.positions)]

def progressPayload (progress : Progress) : Json :=
  .arr [.str progress.status, .str (decimalStr progress.qty), .int progress.time]

def balancePayload (values : ℚ × ℚ) : Json :=
  .arr [.str (decimalStr values.1), .str (decimalStr values.2)]

def qtyPayload (qty : ℚ) : Json := .str (decimalStr qty)

/-- `_private_payload`. -/
def privatePayload (projector : PrivateStreamProjector) : Payload :=
  [("seen_trades", .arr (projector.seenTrades.sort.map .str)),
    ("order_states", objectOfTable .str projector.orderStates),
    ("order_progress", objectOfTable progressPayload projector.orderProgress),
    ("balances", objectOfTable balancePayload projector.balances),
    ("positions", objectOfTable qtyPayload projector.positions),
    ("terminated", .bool projector.terminated)]

end Writing

/-- What a state is bound to. -/
structure Bindings where
  candidateSha : String
  environmentHash : String
  topologyHash : String
  telemetryKey : String

def checkKey (key : String) : Except Exc Unit :=
  raiseIf (key.utf8ByteSize < 32)
    (.valueError "Phase266 runtime-state HMAC key must contain at least 32 UTF-8 bytes")

/-- The bindings as they are written. -/
def normalize (b : Bindings) : Except Exc Bindings := do
  let candidateSha ← exactHex b.candidateSha 40 "candidate SHA"
  let environmentHash ← exactHex b.environmentHash 64 "acceptance environment hash"
  let topologyHash ← exactHex b.topologyHash 64 "topology hash"
  return { b with candidateSha, environmentHash, topologyHash }

/-- The payload before it is signed. -/
def unsignedState (adapter : ProtectedCampaignRuntimeAdapter) (b : Bindings)
    (collectionHash : String) (updatedAt : ℤ) : Payload :=
  [("schema_version", .str SCHEMA_VERSION),
    ("classification", .str CLASSIFICATION),
    ("candidate_sha", .str b.candidateSha),
    ("acceptance_environment_id_hash", .str b.environmentHash),
    ("topology_hash", .str b.topologyHash),
    ("telemetry_key_id", .str (keyDigest b.telemetryKey)),
    ("collection_last_record_sha256", .str collectionHash),
    ("updated_at", .str (iso updatedAt)),
    ("paper", .obj (paperPayload adapter.paper)),
    ("private", .obj (privatePayload adapter.projector)),
    ("shadow_halted", .bool adapter.shadowHalted),
    ("live_enabled", .bool false),
    ("production_ready", .bool false)]

def attestation (key : String) (payload : Payload) : Payload :=
  [("scheme", .str ATTESTATION_SCHEME), ("sha256", .str (hmac key (sortedFields payload)))]

/-! ## 3. Verifying -/

/-- `_verify_payload`. -/
def verifyPayload (payload : Payload) (b : Bindings) : Except Exc Unit := do
  raiseIf (¬ isText (payload.lookup "schema_version") SCHEMA_VERSION ∨
      ¬ isText (payload.lookup "classification") CLASSIFICATION)
    (.valueError "Phase266 runtime-state schema/classification mismatch")
  let bound ← normalize b
  raiseIf (¬ isText (payload.lookup "candidate_sha") bound.candidateSha)
    (.valueError "Phase266 runtime-state binding mismatch: candidate_sha")
  raiseIf (¬ isText (payload.lookup "acceptance_environment_id_hash") bound.environmentHash)
    (.valueError "Phase266 runtime-state binding mismatch: acceptance_environment_id_hash")
  raiseIf (¬ isText (payload.lookup "topology_hash") bound.topologyHash)
    (.valueError "Phase266 runtime-state binding mismatch: topology_hash")
  raiseIf (¬ isBool (payload.lookup "live_enabled") false ∨
      ¬ isBool (payload.lookup "production_ready") false)
    (.valueError "Phase266 runtime-state safety boundary is invalid")
  checkKey b.telemetryKey
  raiseIf (¬ isText (payload.lookup "telemetry_key_id") (keyDigest b.telemetryKey))
    (.valueError "Phase266 runtime-state telemetry key id mismatch")
  let attestation := ((payload.lookup "attestation").bind fieldsOf).getD []
  raiseIf (¬ isText (attestation.lookup "scheme") ATTESTATION_SCHEME)
    (.valueError "Phase266 runtime-state attestation is missing")
  let same ← compareDigest (field attestation "sha256" "")
    (hmac b.telemetryKey (sortedFields (payload.filter fun e => e.1 ≠ "attestation")))
  raiseIf (same = false) (.valueError "Phase266 runtime-state HMAC verification failed")

def checkCheckpoint (payload : Payload) : Option String → Except Exc Unit
  | none => .ok ()
  | some current => do
    let currentHash ← exactHex current 64 "current collection last-record SHA-256"
    raiseIf (lower (field payload "collection_last_record_sha256" "") ≠ currentHash)
      (.valueError ("Phase266 runtime-state/collection checkpoint mismatch; " ++
        "refusing to guess paper/private continuity"))

/-- A payload and its two sections. -/
structure Opened where
  payload : Payload
  paper : Payload
  privateSection : Payload

/-- What is done before anything is assigned. -/
def openState (loaded : Json) (b : Bindings) (current : Option String) : Except Exc Opened :=
  match loaded with
  | .obj payload => do
    verifyPayload payload b
    checkCheckpoint payload current
    match payload.lookup "paper", payload.lookup "private" with
    | some (.obj paper), some (.obj privateSection) => .ok ⟨payload, paper, privateSection⟩
    | _, _ => .error (.valueError "Phase266 runtime-state sections are missing")
  | _ => .error (.valueError "Phase266 runtime-state root must be an object")

/-! ## 4. Restoring -/

section Restoring

omit [CollectionEncoding]

def readFill (row : Payload) : Except Exc PaperFill := do
  let side ← itemText row "side"
  let qty ← itemDecimal row "qty"
  let price ← itemDecimal row "price"
  let fee ← itemDecimal row "fee"
  let latencyMs ← int (← item row "latency_ms")
  let status ← itemText row "status"
  let reason ← itemText row "reason"
  return { side, qty, price, fee, latencyMs, status, reason }

/-- The list comprehension over the fills: it skips rows that are not objects. -/
def readFills (rows : List Json) : Except Exc (List PaperFill) :=
  (rows.filterMap fieldsOf).mapM readFill

def threeTakeProfits : List ℚ → Except Exc TakeProfits
  | [first, second, third] => .ok ⟨first, second, third⟩
  | _ => .error (.valueError "Phase266 paper position must contain exactly three take-profits")

def readPosition (raw : Json) : Except Exc PaperPosition :=
  match raw with
  | .obj raw => do
    let values ← iterate ((raw.lookup "take_profits").getD (.arr []))
    let takeProfits ← threeTakeProfits (← values.mapM decimalOf)
    let symbol ← itemText raw "symbol"
    let qty ← itemDecimal raw "qty"
    let entryPrice ← itemDecimal raw "entry_price"
    let stopLoss ← itemDecimal raw "stop_loss"
    let remainingQty ← itemDecimal raw "remaining_qty"
    let realizedPnl ← itemDecimal raw "realized_pnl"
    let closed := truthy (← item raw "closed")
    let triggered ← iterate ((raw.lookup "triggered_tps").getD (.arr []))
    let triggeredTps := (← triggered.mapM int).toFinset
    return {
      symbol, qty, entryPrice, stopLoss, takeProfits, remainingQty, realizedPnl, closed
      triggeredTps }
  | _ => .error (.valueError "Phase266 paper position state contains a non-object row")

/-- The loop over the positions. -/
def restorePositions : PaperBroker → Payload → Except Exc Unit × PaperBroker
  | self, [] => (.ok (), self)
  | self, (symbol, raw) :: rest =>
    match readPosition raw with
    | .error e => (.error e, self)
    | .ok position =>
      restorePositions { self with positions := self.positions.insert symbol position } rest

/-- From the fills on. -/
def restoreFills (self : PaperBroker) (fills : List Json) (positions : Payload) :
    Except Exc Unit × PaperBroker :=
  match readFills fills with
  | .error e => (.error e, self)
  | .ok made =>
    if made.length ≠ fills.length then
      (.error (.valueError "Phase266 paper fill state contains a non-object row"),
        { self with fills := made })
    else restorePositions { self with fills := made, positions := ∅ } positions

/-- The fills and the positions, if they are a list and an object. -/
def paperLists (paper : Payload) : Option (List Json × Payload) :=
  match paper.lookup "fills", paper.lookup "positions" with
  | some (.arr fills), some (.obj positions) => some (fills, positions)
  | _, _ => none

def restorePaper (self : PaperBroker) (paper : Payload) : Except Exc Unit × PaperBroker :=
  match decimalOf (get paper "fee_bps") with
  | .error e => (.error e, self)
  | .ok feeBps =>
    match decimalOf (get paper "slippage_bps") with
    | .error e => (.error e, { self with feeBps })
    | .ok slippageBps =>
      match paperLists paper with
      | some (fills, positions) => restoreFills { self with feeBps, slippageBps } fills positions
      | none => (.error (.valueError "Phase266 paper runtime-state is invalid"),
          { self with feeBps, slippageBps })

/-- The sections of the private state, of the right types. -/
structure PrivateSections where
  seenTrades : List Json
  orderStates : Payload
  orderProgress : Payload
  balances : Payload
  positions : Payload

/-- A section that has to be an object. -/
def objectSection (saved : Payload) (name msg : String) : Except Exc Payload :=
  match saved.lookup name with
  | some (.obj fields) => .ok fields
  | _ => .error (.valueError msg)

def privateSections (saved : Payload) : Except Exc PrivateSections := do
  match saved.lookup "seen_trades" with
  | some (.arr seenTrades) =>
    let orderStates ← objectSection saved "order_states"
      "Phase266 private order-state section is invalid"
    let orderProgress ← objectSection saved "order_progress"
      "Phase266 private order-progress section is invalid"
    let balances ← objectSection saved "balances" "Phase266 private balance section is invalid"
    let positions ← objectSection saved "positions"
      "Phase266 private position section is invalid"
    return { seenTrades, orderStates, orderProgress, balances, positions }
  | _ => .error (.valueError "Phase266 private seen-trade state is invalid")

/-- A dictionary comprehension over the items that have the right shape. -/
def readTable {ν : Type} (read : Json → Option (Except Exc ν)) (fields : Payload) :
    Except Exc (Table String ν) := do
  let entries ← (fields.filterMap fun e => (read e.2).map fun x => (e.1, x)).mapM
    fun e => e.2.map fun value => (e.1, value)
  return tableOf entries

/-- Three values of the right kinds, if it is a list of three. -/
def readProgress : Json → Option (Except Exc Progress)
  | .arr [status, qty, time] => some do
    let qty ← decimalOf qty
    let time ← int time
    return ⟨status.text, qty, time⟩
  | _ => none

/-- Two decimals, if it is a list of two. -/
def readBalance : Json → Option (Except Exc (ℚ × ℚ))
  | .arr [free, locked] => some do
    let free ← decimalOf free
    let locked ← decimalOf locked
    return (free, locked)
  | _ => none

/-- A decimal, from any value. -/
def readQty (v : Json) : Option (Except Exc ℚ) := some (decimalOf v)

/-- The last two assignments. -/
def restoreRest (self : PrivateStreamProjector) (positions : Payload) (terminated : Json) :
    Except Exc Unit × PrivateStreamProjector :=
  match readTable readQty positions with
  | .error e => (.error e, self)
  | .ok positions => (.ok (), { self with positions, terminated := truthy terminated })

/-- From the balances on. -/
def restoreBalances (self : PrivateStreamProjector) (balances positions : Payload)
    (terminated : Json) : Except Exc Unit × PrivateStreamProjector :=
  match readTable readBalance balances with
  | .error e => (.error e, self)
  | .ok read =>
    if read.keys.length ≠ balances.length then
      (.error (.valueError "Phase266 private balance state is invalid"),
        { self with balances := read })
    else restoreRest { self with balances := read } positions terminated

/-- From the order progress on. -/
def restoreProgress (self : PrivateStreamProjector) (s : PrivateSections) (terminated : Json) :
    Except Exc Unit × PrivateStreamProjector :=
  match readTable readProgress s.orderProgress with
  | .error e => (.error e, self)
  | .ok read =>
    if read.keys.length ≠ s.orderProgress.length then
      (.error (.valueError "Phase266 private order-progress state is invalid"),
        { self with orderProgress := read })
    else restoreBalances { self with orderProgress := read } s.balances s.positions terminated

def restorePrivate (self : PrivateStreamProjector) (saved : Payload) :
    Except Exc Unit × PrivateStreamProjector :=
  match privateSections saved with
  | .error e => (.error e, self)
  | .ok s =>
    restoreProgress { self with
      seenTrades := (s.seenTrades.map Json.text).toFinset
      orderStates := tableOf (s.orderStates.map fun e => (e.1, e.2.text)) } s
      (get saved "terminated")

/-- The assignments. -/
def restoreSections (self : ProtectedCampaignRuntimeAdapter) (opened : Opened) :
    Except Exc Unit × ProtectedCampaignRuntimeAdapter :=
  match restorePaper self.paper opened.paper with
  | (.error e, paper) => (.error e, { self with paper })
  | (.ok (), paper) =>
    match restorePrivate self.projector opened.privateSection with
    | (.error e, projector) => (.error e, { self with paper, projector })
    | (.ok (), projector) => (.ok (), { self with
        paper, projector, shadowHalted := truthy (get opened.payload "shadow_halted") })

end Restoring

/-- The file: there is none, it cannot be read as JSON, or it can. -/
inductive StateFile
  | absent
  | unreadable (e : Exc)
  | json (v : Json)

def restoreRuntimeState (self : ProtectedCampaignRuntimeAdapter) (file : StateFile) (b : Bindings)
    (current : Option String) : Except Exc (Option Payload) × ProtectedCampaignRuntimeAdapter :=
  match file with
  | .absent => (.ok none, self)
  | .unreadable e => (.error e, self)
  | .json loaded =>
    match openState loaded b current with
    | .error e => (.error e, self)
    | .ok opened =>
      let (answer, left) := restoreSections self opened
      (answer.map fun _ => some opened.payload, left)

/-- `write_runtime_state`: the file of a payload, with the keys in order. -/
def writtenState (payload : Payload) : StateFile := .json (Json.obj payload).sorted

end Kripto.Campaign.RuntimeState
