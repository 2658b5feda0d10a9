/-
# The protected campaign runtime adapter

`release/campaign_runtime_adapter.py`: it turns what the private stream, the paper broker and the
read-only market snapshots do into attested events of the collection.  A method first changes the
adapter and then works on the collection; `Work` is these two parts.  What it does with the
collection is a program over two operations, emit an attested event and load the rows, each of
which reads the clock.

Decimals are exact and finite.
-/
import Kripto.Campaign.Metrics
import Kripto.Effect.Play
import Kripto.Paper.Broker
import Kripto.Stream.Projector

namespace Kripto.Campaign

open Effect Paper Kripto.Stream

/-! ## 1. The collection as seen by the adapter -/

inductive CollectionOp
  | emit (kind : String) (payload : Payload) (observedAt : ℤ) (producer : String)
  | load

/-- The adapter does not look at the record that an append returns. -/
def CollectionSig : Sig where
  Op := CollectionOp
  Val
    | .emit .. => Unit
    | .load => List LoadedRow
  Exc := Exc

/-- A file, and what the clock is going to say. -/
structure Site where
  file : File
  clock : ℕ → ℤ

/-- The clock has been read once. -/
def Site.tick (site : Site) (file : File) : Site := ⟨file, fun n => site.clock (n + 1)⟩

/-- The operations with the adapter's key. -/
def collectionScript [PyRuntime] [CollectionEncoding] (telemetryKey : String) :
    Script CollectionSig Site
  | .emit kind payload observedAt producer, site =>
    let (answer, file) := appendAttestedRuntimeEvent site.file kind payload observedAt producer
      telemetryKey (site.clock 0)
    ((answer.map fun _ => () : Except Exc Unit), site.tick file)
  | .load, site =>
    (loadCollection site.file (some telemetryKey) (site.clock 0), site.tick site.file)

/-! ## 2. The adapter -/

/-- The functions of the runtime that only the adapter needs.  `decimal` is for the texts of finite
decimals, and `decimalText` is the text of `Decimal` of such a text. -/
class AdapterRuntime where
  sha256 : String → String
  isoformat : ℤ → String
  decimal : String → Option ℚ
  decimalText : String → String
  floatText : ℚ → String

structure ProtectedCampaignRuntimeAdapter where
  telemetryKey : String
  projector : PrivateStreamProjector :=
    { clientOrderPrefix := PrivateStreamProjector.defaultPrefix }
  paper : PaperBroker := {}
  shadowHalted : Bool := false

/-- What a method leaves of the adapter, and what it does with the collection after that. -/
structure Work (α : Type) where
  adapter : ProtectedCampaignRuntimeAdapter
  script : Prog CollectionSig α

/-- A timestamp; one that is not aware is read as local time. -/
structure Moment where
  instant : ℤ
  aware : Bool := true

def utc (value : Moment) : Except Exc ℤ := do
  raiseIf (value.aware = false)
    (.valueError "runtime observation timestamps must be timezone-aware")
  return value.instant

def check (x : Except Exc Unit) : Prog CollectionSig Unit := .ofExcept x

def emit (kind : String) (payload : Payload) (observedAt : Moment) (producer : String) :
    Prog CollectionSig Unit := do
  let observed ← Prog.ofExcept (utc observedAt)
  Prog.perform (S := CollectionSig) (.emit kind payload observed producer)

/-- `if c: p`. -/
def onlyIf (c : Prop) [Decidable c] (p : Prog CollectionSig Unit) : Prog CollectionSig Unit :=
  if c then p else .ret ()

def load : Prog CollectionSig (List LoadedRow) := Prog.perform (S := CollectionSig) .load

theorem play_load_bind [PyRuntime] [CollectionEncoding] {α : Type} (key : String) (site : Site)
    (k : List LoadedRow → Prog CollectionSig α) :
    (load >>= k).play (collectionScript key) site =
      match loadCollection site.file (some key) (site.clock 0) with
      | .ok rows => (k rows).play (collectionScript key) (site.tick site.file)
      | .error e => (.error e, site.tick site.file) := by
  change ((Prog.ofExcept (S := CollectionSig) (loadCollection site.file (some key) (site.clock 0))
    ).bind k).play (collectionScript key) (site.tick site.file) = _
  cases loadCollection site.file (some key) (site.clock 0) <;> rfl

def PRIVATE_PRODUCER : String := "PROTECTED_PRIVATE_STREAM_RUNTIME"
def PAPER_PRODUCER : String := "PROTECTED_PAPER_RUNTIME"
def SHADOW_PRODUCER : String := "PROTECTED_LIVE_SHADOW_RUNTIME"
def PIT_PRODUCER : String := "PROTECTED_PIT_RUNTIME"

def PUBLIC_BINANCE_ORIGIN : String := "https://api.binance.com"

structure Snapshot where
  symbol : String
  bid : ℚ
  ask : ℚ

namespace ProtectedCampaignRuntimeAdapter

variable [PyRuntime] [AdapterRuntime] (self : ProtectedCampaignRuntimeAdapter)

open PyRuntime AdapterRuntime

/-- `D(str(snapshot.get(name)))`. -/
def decimalField (snapshot : Payload) (name : String) : Except Exc ℚ :=
  match decimal (field snapshot name "None") with
  | some q => .ok q
  | none => .error (.other "InvalidOperation")

/-- `_snapshot`. -/
def readSnapshot (snapshot : Payload) : Except Exc Snapshot := do
  raiseIf (upper (field snapshot "market_data_origin" "") ≠ "REAL")
    (.valueError "runtime market snapshot must be REAL")
  raiseIf (field snapshot "public_origin" "" ≠ PUBLIC_BINANCE_ORIGIN)
    (.valueError "runtime market snapshot must come from the pinned read-only Binance origin")
  let symbol := upper (strip (field snapshot "symbol" ""))
  let bid ← decimalField snapshot "bid_price"
  let ask ← decimalField snapshot "ask_price"
  raiseIf (symbol = "" ∨ bid ≤ 0 ∨ ask ≤ 0 ∨ ask < bid)
    (.valueError "runtime market snapshot is invalid")
  return ⟨symbol, bid, ask⟩

/-- `_observation_id`. -/
def observationId (snapshot : Payload) (market : Snapshot) (observedAt : Moment) : String :=
  let given := strip (field snapshot "observation_id" "")
  if given ≠ "" then given
  else sha256 (market.symbol ++ "|" ++ decimalText (field snapshot "bid_price" "None") ++ "|" ++
    decimalText (field snapshot "ask_price" "None") ++ "|" ++ isoformat observedAt.instant)

/-! ## 3. The private stream -/

/-- What `parse_user_event` makes of a message, and the hash of its canonical JSON. -/
structure PrivateMessage where
  event : Except Exc UserEvent
  eventId : String

def classificationText : Classification → String
  | .UNKNOWN_ORDER => "UNKNOWN_ORDER"
  | .DUPLICATE_FILL => "DUPLICATE_FILL"
  | .STALE_ORDER_EVENT => "STALE_ORDER_EVENT"
  | .TERMINAL_ORDER_REGRESSION => "TERMINAL_ORDER_REGRESSION"
  | .OUT_OF_ORDER_ORDER_EVENT => "OUT_OF_ORDER_ORDER_EVENT"
  | .DUPLICATE_ORDER_EVENT => "DUPLICATE_ORDER_EVENT"
  | .KNOWN_PLATFORM_ACTIVITY => "KNOWN_PLATFORM_ACTIVITY"
  | .KNOWN_ACCOUNT_SNAPSHOT => "KNOWN_ACCOUNT_SNAPSHOT"
  | .KNOWN_POSITION_SNAPSHOT => "KNOWN_POSITION_SNAPSHOT"
  | .UNKNOWN_BALANCE_CHANGE => "UNKNOWN_BALANCE_CHANGE"
  | .PRIVATE_STREAM_TERMINATED => "PRIVATE_STREAM_TERMINATED"
  | .UNKNOWN_EVENT => "UNKNOWN_EVENT"

def actionText : Action → String
  | .MANUAL_REVIEW_REQUIRED => "MANUAL_REVIEW_REQUIRED"
  | .IGNORE_IDEMPOTENT => "IGNORE_IDEMPOTENT"
  | .IGNORE_AND_RECONCILE => "IGNORE_AND_RECONCILE"
  | .APPLY_ORDER_EVENT => "APPLY_ORDER_EVENT"
  | .APPLY_BALANCE_SNAPSHOT => "APPLY_BALANCE_SNAPSHOT"
  | .APPLY_POSITION_AND_BALANCE_SNAPSHOT => "APPLY_POSITION_AND_BALANCE_SNAPSHOT"
  | .HALT_NEW_RISK => "HALT_NEW_RISK"
  | .QUARANTINE => "QUARANTINE"

/-- The two fields every event about a result has. -/
def resultFields (result : ProjectionResult) : Payload :=
  [("classification", .str (classificationText result.classification)),
    ("action", .str (actionText result.action))]

def privateEvents (eventId : String) (result : ProjectionResult) (observedAt : Moment) :
    Prog CollectionSig ProjectionResult := do
  emit "private_event" (("event_id", .str eventId) :: resultFields result) observedAt
    PRIVATE_PRODUCER
  onlyIf (result.classification ∈ [.DUPLICATE_FILL, .DUPLICATE_ORDER_EVENT])
    (emit "private_duplicate_idempotency" (resultFields result) observedAt PRIVATE_PRODUCER)
  onlyIf (result.classification ∈ [.STALE_ORDER_EVENT, .OUT_OF_ORDER_ORDER_EVENT])
    (emit "private_out_of_order" (resultFields result) observedAt PRIVATE_PRODUCER)
  emit "private_redaction"
    [("recorded_fields", .arr [.str "event_id", .str "classification", .str "action"]),
      ("raw_credentials_recorded", .bool false)] observedAt PRIVATE_PRODUCER
  return result

def recordPrivateMessage (message : PrivateMessage) (observedAt : Moment) :
    Work ProjectionResult :=
  match message.event with
  | .error e => ⟨self, .raise e⟩
  | .ok event =>
    let (result, projector) := self.projector.project event
    ⟨{ self with projector }, privateEvents message.eventId result observedAt⟩

/-- `value.rstrip("/")`. -/
def rstripSlash (value : String) : String :=
  String.ofList (value.toList.reverse.dropWhile (· = '/')).reverse

def AUTH_METHOD : String := "userDataStream.subscribe.signature"

def checkAuthRequest (request : Payload) (testnetOrigin : String) : Except Exc Unit := do
  match request.lookup "method", request.lookup "params" with
  | some (.str method), some (.obj params) =>
    raiseIf (method ≠ AUTH_METHOD)
      (.valueError "private auth lifecycle requires an actual signed subscription request")
    raiseIf (∃ name ∈ ["apiKey", "signature", "timestamp"], strip (field params name "") = "")
      (.valueError "private auth lifecycle request is incomplete")
    raiseIf (¬ occursIn "testnet.binance.vision" (lower (rstripSlash testnetOrigin)))
      (.valueError "private campaign credentials must target Binance Spot TESTNET")
  | _, _ =>
    .error (.valueError "private auth lifecycle requires an actual signed subscription request")

def authEvents (request : Payload) (testnetOrigin : String) (observedAt : Moment) :
    Prog CollectionSig Unit := do
  check (checkAuthRequest request testnetOrigin)
  emit "private_auth_lifecycle"
    [("method", .str AUTH_METHOD), ("target", .str "BINANCE_SPOT_TESTNET"),
      ("credential_material_recorded", .bool false)] observedAt PRIVATE_PRODUCER

def recordPrivateAuthRequest (request : Payload) (testnetOrigin : String) (observedAt : Moment) :
    Work Unit :=
  ⟨self, authEvents request testnetOrigin observedAt⟩

def recordPrivateReconnect (request : Payload) (testnetOrigin : String) (observedAt : Moment) :
    Work Unit :=
  ⟨self, do
    check (raiseIf (self.projector.terminated = false)
      (.runtimeError "private reconnect evidence requires an observed stream termination"))
    authEvents request testnetOrigin observedAt
    emit "private_reconnect"
      [("termination_observed", .bool true), ("resubscription_validated", .bool true)]
      observedAt PRIVATE_PRODUCER⟩

/-- `==` of two dictionaries. -/
def sameTable {ν : Type} [DecidableEq ν] (t u : Table String ν) : Bool :=
  t.entries.isPerm u.entries

def recordPrivateRestReconciliation (restBalances : Table String (ℚ × ℚ))
    (observedAt : Moment) : Work Unit :=
  ⟨self, do
    check (raiseIf (restBalances.keys = [])
      (.runtimeError "private REST reconciliation requires at least one real account asset"))
    check (raiseIf (self.projector.balances.keys = [])
      (.runtimeError
        "private REST reconciliation requires a projected private-stream balance snapshot"))
    check (raiseIf (sameTable restBalances self.projector.balances = false)
      (.runtimeError "private REST reconciliation does not match projected stream balances"))
    emit "private_rest_reconciliation"
      [("assets_compared", .int restBalances.keys.length), ("exact_match", .bool true),
        ("non_vacuous", .bool true)] observedAt PRIVATE_PRODUCER⟩

/-! ## 4. Paper and live shadow -/

structure LongIntent where
  qty : ℚ
  stopLoss : ℚ
  takeProfits : TakeProfits

/-- An exception of the broker. -/
def ofPaper : Paper.Exc → Exc
  | .valueError msg => .valueError msg
  | .runtimeError msg => .runtimeError msg

/-- What the broker makes of a quote: the decision, and the broker it leaves. -/
def decideQuote (market : Snapshot) (longIntent : Option LongIntent) (latencyMs : ℤ) :
    Except Exc String × PaperBroker :=
  match longIntent with
  | some intent =>
    let (answer, left) := self.paper.openLong market.symbol intent.qty market.bid market.ask
      intent.stopLoss intent.takeProfits latencyMs
    match answer with
    | .ok _ => (.ok "LONG", left)
    | .error e => (.error (ofPaper e), left)
  | none =>
    let (answer, left) := self.paper.onQuote market.symbol market.bid latencyMs
    match answer with
    | .ok generated => (.ok (if generated = [] then "HOLD" else "EXIT"), left)
    | .error e => (.error (ofPaper e), left)

/-- How far the new fills are from the middle of the quote. -/
def divergence (market : Snapshot) (newFills : List PaperFill) : ℚ :=
  let mid := (market.bid + market.ask) / 2
  ((newFills.map fun made => |made.price - mid| / mid * 10000).max?).getD 0

def paperSample (market : Snapshot) (observationId decision marketRegime : String)
    (newFills : List PaperFill) (fills : ℕ) : Payload :=
  let sampleSeed := market.symbol ++ "|" ++ observationId ++ "|" ++ decision ++ "|" ++
    toString fills
  [("sample_id", .str (sha256 sampleSeed)), ("observation_id", .str observationId),
    ("symbol", .str market.symbol), ("decision", .str decision),
    ("market_regime", .str (upper (strip marketRegime))), ("market_data_origin", .str "REAL"),
    ("execution_divergence_bps", .float (floatText (divergence market newFills))),
    ("paper_fill_count", .int newFills.length)]

def recordPaperQuote (snapshot : Payload) (marketRegime : String) (observedAt : Moment)
    (longIntent : Option LongIntent) (latencyMs : ℤ) : Work String :=
  match readSnapshot snapshot with
  | .error e => ⟨self, .raise e⟩
  | .ok market =>
    let (decided, paper) := self.decideQuote market longIntent latencyMs
    ⟨{ self with paper }, do
      let decision ← Prog.ofExcept decided
      emit "paper_sample"
        (paperSample market (observationId snapshot market observedAt) decision marketRegime
          (paper.fills.drop self.paper.fills.length) paper.fills.length)
        observedAt PAPER_PRODUCER
      return decision⟩

def shadowEvents (snapshot : Payload) (strategyDecision : String) (observedAt : Moment) :
    Prog CollectionSig Unit := do
  check (raiseIf (self.shadowHalted = true) (.runtimeError "live-shadow kill-switch is active"))
  let market ← Prog.ofExcept (readSnapshot snapshot)
  let decision := upper (strip strategyDecision)
  check (raiseIf (decision ∉ ["LONG", "EXIT", "HOLD"])
    (.valueError "spot live-shadow strategy decision must be LONG, EXIT, or HOLD"))
  emit "live_shadow_observation"
    [("observation_id", .str (observationId snapshot market observedAt)),
      ("symbol", .str market.symbol), ("strategy_decision", .str decision),
      ("market_data_origin", .str "REAL"), ("submit_capability_present", .bool false)]
    observedAt SHADOW_PRODUCER

def recordLiveShadowObservation (snapshot : Payload) (strategyDecision : String)
    (observedAt : Moment) : Work Unit :=
  ⟨self, self.shadowEvents snapshot strategyDecision observedAt⟩

/-- The entry a row makes in one of the two dictionaries of a reconciliation. -/
def observation (kind decisionField : String) (row : LoadedRow) :
    Option (String × String × String) :=
  if isText (row.record.lookup "record_type") "event" then
    match row.record.lookup "payload" with
    | some (.obj payload) =>
      let id := strip (field payload "observation_id" "")
      if isText (row.record.lookup "kind") kind ∧
          isText (payload.lookup "market_data_origin") "REAL" ∧ id ≠ "" then
        some (id, field payload "symbol" "", upper (field payload decisionField ""))
      else none
    | _ => none
  else none

def observations (kind decisionField : String) (rows : List LoadedRow) :
    Table String (String × String) :=
  (rows.filterMap (observation kind decisionField)).foldl
    (fun t entry => t.insert entry.1 entry.2) ∅

/-- The two dictionaries. -/
structure Pairing where
  paper : Table String (String × String)
  shadow : Table String (String × String)

def pairing (rows : List LoadedRow) : Pairing :=
  ⟨observations "paper_sample" "decision" rows,
    observations "live_shadow_observation" "strategy_decision" rows⟩

def Pairing.pairedIds (p : Pairing) : List String := p.paper.keys.filter (· ∈ p.shadow)

def Pairing.mismatches (p : Pairing) : List String :=
  p.pairedIds.filter fun id => p.paper.lookup id ≠ p.shadow.lookup id

def reconcile (p : Pairing) (observedAt : Moment) (minimumPairs : ℤ) : Prog CollectionSig ℤ := do
  check (raiseIf (p.pairedIds.length < minimumPairs)
    (.runtimeError ("live-shadow reconciliation requires at least " ++ toString minimumPairs ++
      " paired real observations; got " ++ toString p.pairedIds.length)))
  check (raiseIf (p.mismatches ≠ [])
    (.runtimeError ("live-shadow reconciliation found " ++ toString p.mismatches.length ++
      " PAPER/shadow mismatches")))
  emit "live_shadow_reconciliation_pass"
    [("paired_real_observations", .int p.pairedIds.length), ("mismatches", .int 0),
      ("minimum_pairs", .int minimumPairs), ("submit_capability_present", .bool false)]
    observedAt SHADOW_PRODUCER
  return p.pairedIds.length

def recordLiveShadowReconciliation (observedAt : Moment) (minimumPairs : ℤ) : Work ℤ :=
  ⟨self, do
    check (raiseIf (minimumPairs < 1)
      (.valueError "live-shadow reconciliation minimum_pairs must be positive"))
    let rows ← load
    reconcile (pairing rows) observedAt minimumPairs⟩

/-- Whether an observation was refused with a `RuntimeError`; another exception is raised. -/
def refused : Except Exc Unit → Prog CollectionSig Bool
  | .ok () => .ret false
  | .error (.runtimeError _) => .ret true
  | .error e => .raise e

def killSwitchEvents (halted : ProtectedCampaignRuntimeAdapter) (snapshot : Payload)
    (observedAt : Moment) : Prog CollectionSig Unit := do
  let refused ← (halted.shadowEvents snapshot "HOLD" observedAt).attempt >>= refused
  check (raiseIf (refused = false)
    (.runtimeError "live-shadow kill-switch did not refuse observation processing"))
  emit "live_shadow_kill_switch_pass"
    [("refused_while_halted", .bool true), ("submit_capability_present", .bool false)]
    observedAt SHADOW_PRODUCER

def testLiveShadowKillSwitch (snapshot : Payload) (observedAt : Moment) : Work Unit :=
  let halted := { self with shadowHalted := true }
  ⟨halted, killSwitchEvents halted snapshot observedAt⟩

/-- The drill halts a probe. -/
def runIsolatedLiveShadowKillSwitchDrill (snapshot : Payload) (observedAt : Moment) :
    Work Unit :=
  let probe : ProtectedCampaignRuntimeAdapter := { telemetryKey := self.telemetryKey }
  ⟨self, (probe.testLiveShadowKillSwitch snapshot observedAt).script⟩

/-! ## 5. Profitability -/

structure ReproducibilityManifest where
  codeGitSha : String
  source : String
  datasetHash : String

/-- A trade of a backtest.  `none`: the entry time is not an aware timestamp. -/
structure BacktestTrade where
  entryTime : Option ℤ
  entry : ℚ
  qty : ℚ
  pnl : ℚ

/-- The checks of one trade: when it was entered, and its return. -/
def checkTrade (cutoff : ℤ) (trade : BacktestTrade) : Except Exc (ℤ × ℚ) := do
  match trade.entryTime with
  | none => .error (.valueError
      "profitability trade entry_time must be timezone-aware datetime")
  | some entryTime =>
    raiseIf (entryTime < cutoff)
      (.valueError "profitability result contains an in-sample trade")
    raiseIf (trade.entry * trade.qty ≤ 0)
      (.valueError "profitability trade notional must be positive")
    return (entryTime, trade.pnl / (trade.entry * trade.qty) * 10000)

def emitTrades (datasetHash : String) (cutoff : ℤ) :
    ℕ → List BacktestTrade → Prog CollectionSig Unit
  | _, [] => return ()
  | index, trade :: trades => do
    let (entryTime, netReturnBps) ← Prog.ofExcept (checkTrade cutoff trade)
    emit "profitability_sample"
      [("sample_id", .str (datasetHash ++ ":" ++ toString index)),
        ("net_return_bps", .float (floatText netReturnBps)), ("data_origin", .str "REAL_PIT"),
        ("split", .str "OOS"), ("dataset_hash", .str datasetHash)]
      ⟨entryTime, true⟩ PIT_PRODUCER
    emitTrades datasetHash cutoff (index + 1) trades

/-- The checks of the manifest; `verified` is what `verify_reproducibility_manifest` says. -/
def checkManifest (manifest : ReproducibilityManifest) (verified : Bool) (candidate : String) :
    Except Exc Unit := do
  raiseIf (verified = false)
    (.valueError "profitability dataset manifest hash verification failed")
  raiseIf (lower manifest.codeGitSha ≠ candidate)
    (.valueError "profitability dataset manifest is bound to a different code SHA")
  raiseIf (strip manifest.source = "" ∨ occursIn "synthetic" (lower manifest.source) = true ∨
      occursIn "mock" (lower manifest.source) = true)
    (.valueError "profitability dataset source is not eligible as real PIT input")

/-- `str(rows[0]["candidate_sha"])`. -/
def candidateOf (rows : List LoadedRow) : Except Exc String := do
  let (header, _) ← endsOf rows
  return (← item header "candidate_sha").text

def profitabilityEvents (manifest : ReproducibilityManifest) (trades : List BacktestTrade)
    (cutoff : ℤ) (observedAt : Moment) : Prog CollectionSig ℤ := do
  emitTrades manifest.datasetHash cutoff 0 trades
  onlyIf (trades ≠ []) (emit "profitability_oos_pass"
    [("dataset_hash", .str manifest.datasetHash), ("oos_trade_count", .int trades.length),
      ("cutoff", .str (isoformat cutoff))] observedAt PIT_PRODUCER)
  return trades.length

def recordProfitabilityBacktest (manifest : ReproducibilityManifest) (verified : Bool)
    (trades : List BacktestTrade) (oosStart observedAt : Moment) : Work ℤ :=
  ⟨self, do
    let rows ← load
    let candidate ← Prog.ofExcept (candidateOf rows)
    check (checkManifest manifest verified candidate)
    let cutoff ← Prog.ofExcept (utc oosStart)
    profitabilityEvents manifest trades cutoff observedAt⟩

end ProtectedCampaignRuntimeAdapter

end Kripto.Campaign
