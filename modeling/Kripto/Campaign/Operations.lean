/-
# Runs of a campaign

The operations of the adapter and of the collector, on one collection file.  `act` answers a call
with its outcome and with the attested events the file then holds.  A call is an operation, or an
`append_collection_event` for the audit that another run may lack.

For the collections exhibited elsewhere there is a runtime, and encodings, that evaluate.  They do
what the real ones do as far as these collections depend on them: texts are stripped and in the
wanted case already, the only number in a payload is zero, and records are told apart by their
sequence numbers.
-/
import Kripto.Campaign.Adapter
import Kripto.Campaign.Entry
import Kripto.Effect.Object
import Kripto.Campaign.RuntimeState

namespace Kripto.Campaign

open Effect Paper Kripto.Stream ProtectedCampaignRuntimeAdapter

/-! ## 1. Operations -/

/-- What an operation returns, but for the record of an append. -/
inductive Value
  | nothing
  | projection (result : ProjectionResult)
  | decision (text : String)
  | count (n : ℤ)
  | metrics (m : Metrics)

/-- The methods of the adapter. -/
inductive Method
  | recordPrivateMessage (message : PrivateMessage) (observedAt : Moment)
  | recordPrivateAuthRequest (request : Payload) (testnetOrigin : String) (observedAt : Moment)
  | recordPrivateReconnect (request : Payload) (testnetOrigin : String) (observedAt : Moment)
  | recordPrivateRestReconciliation (restBalances : Table String (ℚ × ℚ)) (observedAt : Moment)
  | recordPaperQuote (snapshot : Payload) (marketRegime : String) (observedAt : Moment)
      (longIntent : Option LongIntent) (latencyMs : ℤ)
  | recordLiveShadowObservation (snapshot : Payload) (strategyDecision : String)
      (observedAt : Moment)
  | recordLiveShadowReconciliation (observedAt : Moment) (minimumPairs : ℤ)
  | testLiveShadowKillSwitch (snapshot : Payload) (observedAt : Moment)
  | runIsolatedLiveShadowKillSwitchDrill (snapshot : Payload) (observedAt : Moment)
  | recordProfitabilityBacktest (manifest : ReproducibilityManifest) (verified : Bool)
      (trades : List BacktestTrade) (oosStart observedAt : Moment)

/-- The operations with the clock readings they take. -/
inductive Operation
  | adapter (method : Method) (clock : ℕ → ℤ)
  | appendAttestedRuntimeEvent (kind : String) (payload : Payload) (observedAt : ℤ)
      (producer telemetryKey : String) (now : ℤ)
  | appendCollectionEvent (kind : String) (payload : Payload) (observedAt : ℤ)
      (telemetryKey : Option String) (now : ℤ)
  | deriveCollectionMetrics (expected : Expected) (telemetryKey : Option String) (now : ℤ)

inductive Call
  | operation (op : Operation)
  | audit (kind : String) (payload : Payload) (observedAt : ℤ) (telemetryKey : Option String)
      (now : ℤ)

/-- Is this an operation of both runs? -/
def Call.isOperation : Call → Bool
  | .operation _ => true
  | .audit .. => false

/-! ## 2. Runs -/

/-- The adapter, the file, and the entries that `audit` calls recorded in the file. -/
structure State where
  adapter : ProtectedCampaignRuntimeAdapter
  file : File
  audits : List Entry := []

structure AttestedEvent where
  kind : Option Json
  producer : Option Json
  observedAt : Option Json
  payload : Option Json

def attestedEvent : Line → Option AttestedEvent
  | .json (.obj row) =>
    if isBool (row.lookup "acceptance_eligible") true then
      some ⟨row.lookup "kind", row.lookup "producer", row.lookup "observed_at",
        row.lookup "payload"⟩
    else none
  | _ => none

def attestedEvents (file : File) : List AttestedEvent := file.filterMap attestedEvent

structure Answer where
  outcome : Except Exc Value
  attested : List AttestedEvent

/-- What an append answers, apart from the record itself. -/
def outcome (answer : Except Exc Payload) : Except Exc Value := answer.map fun _ => .nothing

def Work.map {α β : Type} (f : α → β) (w : Work α) : Work β :=
  ⟨w.adapter, w.script >>= fun a => .ret (f a)⟩

section

variable [PyRuntime] [AdapterRuntime]

def Method.work (self : ProtectedCampaignRuntimeAdapter) : Method → Work Value
  | .recordPrivateMessage message observedAt =>
    (self.recordPrivateMessage message observedAt).map .projection
  | .recordPrivateAuthRequest request testnetOrigin observedAt =>
    (self.recordPrivateAuthRequest request testnetOrigin observedAt).map fun _ => .nothing
  | .recordPrivateReconnect request testnetOrigin observedAt =>
    (self.recordPrivateReconnect request testnetOrigin observedAt).map fun _ => .nothing
  | .recordPrivateRestReconciliation restBalances observedAt =>
    (self.recordPrivateRestReconciliation restBalances observedAt).map fun _ => .nothing
  | .recordPaperQuote snapshot marketRegime observedAt longIntent latencyMs =>
    (self.recordPaperQuote snapshot marketRegime observedAt longIntent latencyMs).map .decision
  | .recordLiveShadowObservation snapshot strategyDecision observedAt =>
    (self.recordLiveShadowObservation snapshot strategyDecision observedAt).map fun _ => .nothing
  | .recordLiveShadowReconciliation observedAt minimumPairs =>
    (self.recordLiveShadowReconciliation observedAt minimumPairs).map .count
  | .testLiveShadowKillSwitch snapshot observedAt =>
    (self.testLiveShadowKillSwitch snapshot observedAt).map fun _ => .nothing
  | .runIsolatedLiveShadowKillSwitchDrill snapshot observedAt =>
    (self.runIsolatedLiveShadowKillSwitchDrill snapshot observedAt).map fun _ => .nothing
  | .recordProfitabilityBacktest manifest verified trades oosStart observedAt =>
    (self.recordProfitabilityBacktest manifest verified trades oosStart observedAt).map .count

theorem telemetryKey_work (self : ProtectedCampaignRuntimeAdapter) (method : Method) :
    (method.work self).adapter.telemetryKey = self.telemetryKey := by
  cases method with
  | recordPrivateMessage message observedAt =>
    simp only [Method.work, Work.map, recordPrivateMessage]
    split <;> rfl
  | recordPaperQuote snapshot marketRegime observedAt longIntent latencyMs =>
    simp only [Method.work, Work.map, recordPaperQuote]
    split <;> rfl
  | _ => rfl

variable [CollectionEncoding] [Statistics]

def Operation.run (s : State) : Operation → Except Exc Value × State
  | .adapter method clock =>
    let work := method.work s.adapter
    let played := work.script.play (collectionScript s.adapter.telemetryKey) ⟨s.file, clock⟩
    (played.1, { s with adapter := work.adapter, file := played.2.file })
  | .appendAttestedRuntimeEvent kind payload observedAt producer telemetryKey now =>
    let (answer, file) := Campaign.appendAttestedRuntimeEvent s.file kind payload observedAt
      producer telemetryKey now
    (outcome answer, { s with file })
  | .appendCollectionEvent kind payload observedAt telemetryKey now =>
    let (answer, file) := Campaign.appendCollectionEvent s.file kind payload observedAt
      telemetryKey now
    (outcome answer, { s with file })
  | .deriveCollectionMetrics expected telemetryKey now =>
    ((loadCollection s.file telemetryKey now expected >>= Campaign.deriveCollectionMetrics).map
      .metrics, s)

/-- `append_collection_event` for the audit. -/
def audit (s : State) (kind : String) (payload : Payload) (observedAt : ℤ)
    (telemetryKey : Option String) (now : ℤ) : Except Exc Value × State :=
  match appendCollectionEvent s.file kind payload observedAt telemetryKey now with
  | (.ok _, file) => (.ok .nothing, { s with
      file, audits := s.audits ++ [Entry.audit kind payload observedAt now] })
  | (.error e, file) => (.error e, { s with file })

def act : Object State Call Answer := fun s call =>
  let (answer, left) := match call with
    | .operation op => op.run s
    | .audit kind payload observedAt telemetryKey now =>
      audit s kind payload observedAt telemetryKey now
  (⟨answer, attestedEvents left.file⟩, left)

/-- Where calls lead from a new adapter. -/
def reached (telemetryKey : String) (file : File) (calls : List Call) : State :=
  ((Log.start ({ adapter := { telemetryKey }, file } : State)).calls act calls).now

end

/-! ## 3. Adapters up to the order of dictionaries -/

structure SameBroker (b c : PaperBroker) : Prop where
  feeBps : b.feeBps = c.feeBps
  slippageBps : b.slippageBps = c.slippageBps
  fills : b.fills = c.fills
  positions : b.positions.Same c.positions

structure SameProjector (p q : PrivateStreamProjector) : Prop where
  clientOrderPrefix : p.clientOrderPrefix = q.clientOrderPrefix
  seenTrades : p.seenTrades = q.seenTrades
  orderStates : p.orderStates.Same q.orderStates
  orderProgress : p.orderProgress.Same q.orderProgress
  balances : p.balances.Same q.balances
  positions : p.positions.Same q.positions
  terminated : p.terminated = q.terminated

structure SameAdapter (a a' : ProtectedCampaignRuntimeAdapter) : Prop where
  telemetryKey : a.telemetryKey = a'.telemetryKey
  projector : SameProjector a.projector a'.projector
  paper : SameBroker a.paper a'.paper
  shadowHalted : a.shadowHalted = a'.shadowHalted

theorem SameBroker.refl (b : PaperBroker) : SameBroker b b := ⟨rfl, rfl, rfl, .refl _⟩

theorem SameProjector.refl (p : PrivateStreamProjector) : SameProjector p p :=
  ⟨rfl, rfl, .refl _, .refl _, .refl _, .refl _, rfl⟩

theorem SameAdapter.refl (a : ProtectedCampaignRuntimeAdapter) : SameAdapter a a :=
  ⟨rfl, .refl _, .refl _, rfl⟩

/-! ## 4. What an operation depends on -/

/-- None of its clock readings is before `t`. -/
def Operation.NotBefore (t : ℤ) : Operation → Prop
  | .adapter _ clock => ∀ n, t ≤ clock n
  | .appendAttestedRuntimeEvent _ _ _ _ _ now => t ≤ now
  | .appendCollectionEvent _ _ _ _ now => t ≤ now
  | .deriveCollectionMetrics _ _ now => t ≤ now

/-- The keys it is given. -/
def Operation.keys : Operation → List String
  | .adapter .. => []
  | .appendAttestedRuntimeEvent _ _ _ _ telemetryKey _ => [telemetryKey]
  | .appendCollectionEvent _ _ _ telemetryKey _ => telemetryKey.toList
  | .deriveCollectionMetrics _ telemetryKey _ => telemetryKey.toList

def Operation.isReconciliation : Operation → Bool
  | .adapter (.recordLiveShadowReconciliation ..) _ => true
  | _ => false

/-! ## 5. Concrete collections -/

@[reducible] def plainRuntime : PyRuntime where
  upper := id
  lower := id
  strip := id
  str
    | .int n => toString n
    | _ => "None"
  float s := if s = "0" then some (.finite 0) else none

/-- A number as a sign and so many strokes. -/
def strokes (t : ℤ) : String :=
  String.ofList ((if t < 0 then '-' else '+') :: List.replicate t.natAbs 'I')

def readStrokes (s : String) : Except String ℤ :=
  match s.toList with
  | '+' :: rest => .ok rest.length
  | '-' :: rest => .ok (-rest.length)
  | _ => .error "Invalid isoformat string"

theorem readStrokes_strokes (t : ℤ) : readStrokes (strokes t) = .ok t := by
  unfold strokes readStrokes
  rw [String.toList_ofList]
  by_cases h : t < 0
  · have habs : -(t.natAbs : ℤ) = t := by omega
    rw [if_pos h]
    simp only [List.length_replicate, habs]
  · have habs : (t.natAbs : ℤ) = t := by omega
    rw [if_neg h]
    simp only [List.length_replicate, habs]

theorem isAscii_strokes (t : ℤ) : isAscii (strokes t) := by
  intro c hc
  simp only [strokes, String.toList_ofList, List.mem_cons, List.mem_replicate] at hc
  rcases hc with rfl | ⟨-, rfl⟩
  · split <;> decide
  · decide

/-- The digest of a record: its sequence number. -/
def sequenceDigest (row : Payload) : String :=
  match row.lookup "sequence" with
  | some (.int n) => strokes n
  | _ => ""

theorem isAscii_sequenceDigest (row : Payload) : isAscii (sequenceDigest row) := by
  unfold sequenceDigest
  split
  · exact isAscii_strokes _
  · intro c hc
    simp at hc

@[reducible] def strokeEncoding : CollectionEncoding where
  recordDigest := sequenceDigest
  keyDigest := id
  hmac _ := sequenceDigest
  hmac_ascii _ := isAscii_sequenceDigest
  iso := strokes
  fromisoformat := readStrokes
  fromisoformat_iso := readStrokes_strokes
  fromisoformat_none t := by
    have h : readStrokes "None" = .error "Invalid isoformat string" := rfl
    simp [h]

@[reducible] def plainAdapterRuntime : AdapterRuntime where
  sha256 := id
  isoformat := strokes
  decimal _ := none
  decimalText := id
  floatText _ := "0"

/-- The text of a whole number is its digits; that of another one is a fraction. -/
def fractionChars (q : ℚ) : List Char :=
  (if q.num < 0 then ['-'] else []) ++ (Nat.toDigits 10 q.num.natAbs ++
    if q.den = 1 then [] else '/' :: Nat.toDigits 10 q.den)

def readFraction (s : String) : Option ℚ :=
  if s.toList.all fun c => c.isDigit || c = '-' || c = '/' then
    let negative := s.toList.head? = some '-'
    let digits := if negative then s.toList.tail else s.toList
    let num : ℤ := Nat.ofDigitChars 10 (digits.takeWhile (· ≠ '/')) 0
    let den := match digits.dropWhile (· ≠ '/') with
      | [] => 1
      | _ :: rest => Nat.ofDigitChars 10 rest 0
    some (mkRat (if negative then -num else num) den)
  else none

@[reducible] def fractionRuntime : AdapterRuntime :=
  { plainAdapterRuntime with decimal := readFraction }

/-- `int`, on numbers. -/
def readInt : Json → Except Exc ℤ
  | .int n => .ok n
  | _ => .error (.other "TypeError")

@[reducible] def plainStateRuntime : @RuntimeState.StateRuntime plainRuntime fractionRuntime :=
  letI := plainRuntime
  letI := fractionRuntime
  { decimalStr := fun q => String.ofList (fractionChars q)
    int := readInt }

def campaignBindings : RuntimeState.Bindings where
  candidateSha := "0123456789012345678901234567890123456789"
  environmentHash := "0123456789012345678901234567890123456789012345678901234567890123"
  topologyHash := "0123456789012345678901234567890123456789012345678901234567890123"
  telemetryKey := "0123456789012345678901234567890123456789"

@[reducible] def plainStatistics : Statistics := ⟨fun _ => 0, fun _ => 0, fun _ => 0⟩

end Kripto.Campaign
