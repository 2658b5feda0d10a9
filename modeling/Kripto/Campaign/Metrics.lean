/-
# Metrics of a collection

`derive_collection_metrics`: what acceptance looks at.  The metrics are computed from the attested
events of the loaded rows; of such an event only its payload and the time of its observation are
read.  Every payload was validated when the file was loaded, so no key is missing and every
number is finite.
-/
import Kripto.Campaign.Collection
import Mathlib.Algebra.Order.Ring.Unbundled.Rat
import Mathlib.Data.List.Dedup

namespace Kripto.Campaign

variable [PyRuntime] [CollectionEncoding]

open PyRuntime

/-! ## 1. Events -/

/-- `row["payload"]`. -/
def LoadedRow.payload (row : LoadedRow) : Payload :=
  match row.record.lookup "payload" with
  | some (.obj payload) => payload
  | _ => []

/-- What the metrics read of an event. -/
structure Event where
  payload : Payload
  observedAt : Option Json

/-- The row as an event of this kind, if it is one that acceptance may look at. -/
def LoadedRow.event (kind : String) (row : LoadedRow) : Option Event :=
  if isText (row.record.lookup "record_type") "event" ∧ isText (row.record.lookup "kind") kind ∧
      isBool (row.record.lookup "acceptance_eligible") true ∧ row.attestationVerified then
    some ⟨row.payload, row.record.lookup "observed_at"⟩
  else none

/-- `_events`. -/
def events (rows : List LoadedRow) (kind : String) : List Event :=
  rows.filterMap (LoadedRow.event kind)

def MICROSECONDS_PER_DAY : ℤ := 86400 * 1000000

def elapsedObservedDays (rows : List Event) : Except Exc ℤ :=
  if rows.length < 2 then .ok 0
  else do
    let observed ← rows.mapM fun row => parseTime row.observedAt
    return max 0 ((observed.max?.getD 0 - observed.min?.getD 0) / MICROSECONDS_PER_DAY)

/-- `d[key] = v` in a dictionary that keeps the order of insertion. -/
def setItem {α : Type} (d : List (String × α)) (key : String) (v : α) : List (String × α) :=
  if key ∈ d.map (·.1) then d.map fun entry => if entry.1 = key then (key, v) else entry
  else d ++ [(key, v)]

/-- `float(payload[name])`, which is finite. -/
def number (name : String) (row : Event) : Except Exc ℚ := do
  return ((← floatField row.payload name).toRat).getD 0

/-! ## 2. The metrics -/

/-- The floating-point statistics. -/
class Statistics where
  fmean : List ℚ → ℚ
  bootstrapLowerMean : List ℚ → ℚ
  probabilisticSharpeRatio : List ℚ → ℚ

structure PrivateStreamMetrics where
  credentialedTestnet : Bool
  authLifecyclePassed : Bool
  reconnectPassed : Bool
  restReconciliationPassed : Bool
  duplicateEventIdempotencyPassed : Bool
  outOfOrderProtectionPassed : Bool
  secretsRedacted : Bool
  observedEvents : ℕ

structure PaperMetrics where
  effectiveSampleSize : ℕ
  calendarDays : ℤ
  marketRegimes : List String
  longExamples : ℕ
  exitExamples : ℕ
  shortExamples : ℕ
  activeMarketType : String := "SPOT"
  costStressPassed : Bool
  latencyStressPassed : Bool
  independentOosPassed : Bool
  executionDivergenceBps : ℚ
  realMarketData : Bool

structure LiveShadowMetrics where
  realMarketData : Bool
  calendarDays : ℤ
  observations : ℕ
  realOrdersSubmitted : ℕ := 0
  exchangeSubmitCalls : ℕ := 0
  killSwitchTested : Bool
  reconciliationPassed : Bool

structure ProfitabilityMetrics where
  realPointInTimeData : Bool
  independentOos : Bool
  leakageChecksPassed : Bool
  costStressPassed : Bool
  survivorshipControlsPassed : Bool
  effectiveSampleSize : ℕ
  netExpectancyBps : ℚ
  bootstrapCiLowerBps : ℚ
  probabilisticSharpeRatio : ℚ

structure Metrics where
  privateStream : PrivateStreamMetrics
  paper : PaperMetrics
  liveShadow : LiveShadowMetrics
  profitability : ProfitabilityMetrics

/-- `str(payload[name])` of every event. -/
def texts (rows : List Event) (name : String) : List String :=
  rows.map fun row => field row.payload name ""

variable (eventsOf : String → List Event)

/-- `bool(_events(rows, kind))`. -/
def seen (kind : String) : Bool := !(eventsOf kind).isEmpty

def privateStreamMetrics : PrivateStreamMetrics where
  credentialedTestnet := seen eventsOf "private_auth_lifecycle"
  authLifecyclePassed := seen eventsOf "private_auth_lifecycle"
  reconnectPassed := seen eventsOf "private_reconnect"
  restReconciliationPassed := seen eventsOf "private_rest_reconciliation"
  duplicateEventIdempotencyPassed := seen eventsOf "private_duplicate_idempotency"
  outOfOrderProtectionPassed := seen eventsOf "private_out_of_order"
  secretsRedacted := seen eventsOf "private_redaction"
  observedEvents := (eventsOf "private_event").length

def paperMetrics : Except Exc PaperMetrics := do
  let paper := eventsOf "paper_sample"
  let decisions := (texts paper "decision").map upper
  let divergences ← paper.mapM (number "execution_divergence_bps")
  return {
    effectiveSampleSize := (texts paper "sample_id").dedup.length
    calendarDays := ← elapsedObservedDays paper
    marketRegimes := ((texts paper "market_regime").map (upper ∘ strip)).dedup.mergeSort
    longExamples := decisions.count "LONG"
    exitExamples := decisions.count "EXIT"
    shortExamples := decisions.count "SHORT"
    costStressPassed := seen eventsOf "paper_cost_stress_pass"
    latencyStressPassed := seen eventsOf "paper_latency_stress_pass"
    independentOosPassed := seen eventsOf "paper_oos_pass"
    executionDivergenceBps := divergences.max?.getD (-1)
    realMarketData := !paper.isEmpty &&
      (texts paper "market_data_origin").all (fun origin => upper origin = "REAL") &&
      "SHORT" ∉ decisions }

def liveShadowMetrics : Except Exc LiveShadowMetrics := do
  let shadow := eventsOf "live_shadow_observation"
  return {
    realMarketData := !shadow.isEmpty &&
      (texts shadow "market_data_origin").all fun origin => upper origin = "REAL"
    calendarDays := ← elapsedObservedDays shadow
    observations := (texts shadow "observation_id").dedup.length
    killSwitchTested := seen eventsOf "live_shadow_kill_switch_pass"
    reconciliationPassed := seen eventsOf "live_shadow_reconciliation_pass" }

/-- `profitability_by_id`. -/
def profitabilityById (profitability : List Event) : Except Exc (List (String × ℚ)) :=
  profitability.foldlM (fun d row => do
    return setItem d (field row.payload "sample_id" "") (← number "net_return_bps" row)) []

def profitabilityMetrics [Statistics] : Except Exc ProfitabilityMetrics := do
  let profitability := eventsOf "profitability_sample"
  let byId ← profitabilityById profitability
  let returns := byId.map (·.2)
  return {
    realPointInTimeData := !profitability.isEmpty &&
      (texts profitability "data_origin").all fun origin => upper origin = "REAL_PIT"
    independentOos := !profitability.isEmpty &&
      (texts profitability "split").all (fun split => upper split = "OOS") &&
      seen eventsOf "profitability_oos_pass"
    leakageChecksPassed := seen eventsOf "profitability_leakage_pass"
    costStressPassed := seen eventsOf "profitability_cost_stress_pass"
    survivorshipControlsPassed := seen eventsOf "profitability_survivorship_pass"
    effectiveSampleSize := byId.length
    netExpectancyBps := if returns = [] then 0 else Statistics.fmean returns
    bootstrapCiLowerBps := Statistics.bootstrapLowerMean returns
    probabilisticSharpeRatio := Statistics.probabilisticSharpeRatio returns }

def deriveCollectionMetrics [Statistics] (rows : List LoadedRow) : Except Exc Metrics := do
  return {
    privateStream := privateStreamMetrics (events rows)
    paper := ← paperMetrics (events rows)
    liveShadow := ← liveShadowMetrics (events rows)
    profitability := ← profitabilityMetrics (events rows) }

end Kripto.Campaign
