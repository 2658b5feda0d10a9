/-
# The campaign collection

`release/campaign_collector.py`: a file of JSON records, one a line, each with its place in the
sequence and the hash of the record before it.  Two functions append to it.
`append_attested_runtime_event` authenticates its record with the telemetry key;
`append_collection_event` writes a record for audits only.  Both load the whole file first, and
`load_collection` refuses a file in which anything is out of place.

Times are microseconds.  A comparison of two `timestamp()` values is one of the numbers they
stand for.
-/
import Kripto.Campaign.Payload
import Mathlib.Algebra.Order.Group.Unbundled.Int

namespace Kripto.Campaign

/-! ## 1. Constants and encodings -/

def SCHEMA_VERSION : String := "1.1"

def COLLECTION_CLASSIFICATION : String := "PHASE265_REAL_CAMPAIGN_COLLECTION"

def COLLECTOR_MODE : String := "ATTESTED_PROTECTED_RUNTIME_APPEND_ONLY"

def ZERO_HASH : String := "0000000000000000000000000000000000000000000000000000000000000000"

/-- 300 seconds. -/
def MAX_FUTURE_SKEW : ℤ := 300 * 1000000

/-- 300 seconds. -/
def MAX_REALTIME_ATTESTATION_SKEW : ℤ := 300 * 1000000

def UNATTESTED_PRODUCER : String := "EXTERNAL_UNATTESTED_AUDIT"

def TRUSTED_RUNTIME_PRODUCERS : List String :=
  ["PROTECTED_PRIVATE_STREAM_RUNTIME", "PROTECTED_PAPER_RUNTIME",
    "PROTECTED_LIVE_SHADOW_RUNTIME", "PROTECTED_PIT_RUNTIME"]

def ATTESTATION_SCHEME : String := "HMAC-SHA256"

def isAscii (text : String) : Prop := ∀ c ∈ text.toList, c.toNat < 128

instance (text : String) : Decidable (isAscii text) := List.decidableBAll _ _

/-- What the code takes from `hashlib`, `hmac` and `datetime`.  The digests are of the canonical
JSON of an object; `fromisoformat` gives a time, or says why there is none. -/
class CollectionEncoding where
  recordDigest : Payload → String
  keyDigest : String → String
  hmac : String → Payload → String
  hmac_ascii : ∀ key message, isAscii (hmac key message)
  iso : ℤ → String
  fromisoformat : String → Except String ℤ
  fromisoformat_iso : ∀ t, fromisoformat (iso t) = .ok t
  fromisoformat_none : ∀ t, fromisoformat "None" ≠ .ok t

/-! ## 2. Records -/

/-- `row[name]`. -/
def item (row : Payload) (name : String) : Except Exc Json :=
  match row.lookup name with
  | some v => .ok v
  | none => .error (.other "KeyError")

theorem item_eq_ok_iff {row : Payload} {name : String} {v : Json} :
    item row name = .ok v ↔ row.lookup name = some v := by
  unfold item
  cases row.lookup name <;> simp

/-- `value == s`, for a text `s`. -/
def isText (value : Option Json) (s : String) : Bool :=
  match value with
  | some (.str t) => t == s
  | _ => false

/-- `value is b`. -/
def isBool (value : Option Json) (b : Bool) : Bool :=
  match value with
  | some (.bool c) => c == b
  | _ => false

@[simp] theorem isText_iff {value : Option Json} {s : String} :
    isText value s = true ↔ value = some (.str s) := by
  unfold isText
  split
  · simp
  · simp_all

/-- A line of the file: blank, not JSON, or JSON. -/
inductive Line
  | blank
  | invalid
  | json (v : Json)

/-- The line of a record. -/
abbrev Line.record (row : Payload) : Line := .json (.obj row)

abbrev File : Type := List Line

variable [PyRuntime] [CollectionEncoding]

open PyRuntime CollectionEncoding

/-- `_parse_time`. -/
def parseTime (value : Option Json) : Except Exc ℤ :=
  match fromisoformat (value.elim "None" Json.text) with
  | .ok t => .ok t
  | .error msg => .error (.valueError msg)

theorem exists_of_parseTime {value : Option Json} {t : ℤ} (h : parseTime value = .ok t) :
    ∃ v, value = some v := by
  cases value with
  | some v => exact ⟨v, rfl⟩
  | none =>
    unfold parseTime at h
    split at h
    · rename_i t' ht'
      exact absurd ht' (fromisoformat_none t')
    · cases h

def ATTESTATION_MARK : String := "_phase265_attestation_verified"

def recordHash (row : Payload) : String :=
  recordDigest (row.filter fun entry => entry.1 ≠ "record_sha256" ∧ entry.1 ≠ ATTESTATION_MARK)

def HEX_DIGITS : List Char :=
  ['0', '1', '2', '3', '4', '5', '6', '7', '8', '9', 'a', 'b', 'c', 'd', 'e', 'f']

def exactHex (value : String) (length : ℕ) (name : String) : Except Exc String := do
  let normalized := lower (strip value)
  raiseIf (normalized.toList.length ≠ length ∨ normalized.toList.any fun c => c ∉ HEX_DIGITS)
    (.valueError (name ++ " must be exact " ++ toString length ++ "-character lowercase hex"))
  return normalized

/-- The binding of a record to what was measured where. -/
structure Binding where
  candidateSha : Option Json
  acceptanceEnvironmentIdHash : Option Json
  topologyHash : Option Json

def bindingOf (row : Payload) : Binding :=
  ⟨row.lookup "candidate_sha", row.lookup "acceptance_environment_id_hash",
    row.lookup "topology_hash"⟩

/-- `==` of two values that may be missing. -/
def sameValue : Option Json → Option Json → Bool
  | some v, some w => v.eqv w
  | none, none => true
  | _, _ => false

omit [CollectionEncoding] in
@[simp] theorem sameValue_self (v : Option Json) : sameValue v v = true := by
  cases v <;> simp [sameValue, Json.eqv_self]

def Binding.same (b c : Binding) : Bool :=
  sameValue b.candidateSha c.candidateSha &&
    sameValue b.acceptanceEnvironmentIdHash c.acceptanceEnvironmentIdHash &&
    sameValue b.topologyHash c.topologyHash

omit [CollectionEncoding] in
@[simp] theorem Binding.same_self (b : Binding) : b.same b = true := by simp [Binding.same]

/-! ## 3. Attestation -/

def checkAttestationKey (key : String) : Except Exc Unit :=
  raiseIf (key.utf8ByteSize < 32)
    (.valueError "Phase265 telemetry attestation key must contain at least 32 UTF-8 bytes")

def ATTESTED_FIELDS : List String :=
  ["schema_version", "classification", "candidate_sha", "acceptance_environment_id_hash",
    "topology_hash", "sequence", "observed_at", "kind", "producer", "payload"]

/-- `_attestation_message`.  Wherever it is called, the record has these fields. -/
def attestationMessage (record : Payload) : Payload :=
  ATTESTED_FIELDS.map fun name => (name, (record.lookup name).getD .null)

def attest (record : Payload) (telemetryKey : String) : Except Exc Payload := do
  checkAttestationKey telemetryKey
  return [("scheme", .str ATTESTATION_SCHEME), ("key_id", .str (keyDigest telemetryKey)),
    ("sha256", .str (hmac telemetryKey (attestationMessage record)))]

/-- `hmac.compare_digest` of texts. -/
def compareDigest (a b : String) : Except Exc Bool :=
  if isAscii a ∧ isAscii b then .ok (a == b) else .error (.other "TypeError")

def verifyAttestation (record : Payload) (telemetryKey : String) : Except Exc Bool :=
  match record.lookup "attestation" with
  | some (.obj attestation) =>
    if ¬ isText (attestation.lookup "scheme") ATTESTATION_SCHEME then .ok false
    else do
      checkAttestationKey telemetryKey
      if ¬ isText (attestation.lookup "key_id") (keyDigest telemetryKey) then return false
      else match attestation.lookup "sha256" with
        | some (.str sha256) =>
          compareDigest sha256 (hmac telemetryKey (attestationMessage record))
        | _ => return false
  | _ => .ok false

/-- `not kind.startswith("profitability_")`. -/
def isRealtime (kind : String) : Bool := !"profitability_".toList.isPrefixOf kind.toList

def checkRealtime (kind : String) (recordedAt observedAt : ℤ) : Except Exc Unit :=
  raiseIf (isRealtime kind = true ∧ MAX_REALTIME_ATTESTATION_SKEW < |recordedAt - observedAt|)
    (.valueError
      "attested realtime protected-runtime observation is backdated or future-skewed")

/-! ## 4. Loading -/

/-- A row as `load_collection` returns it.  Python keeps the mark in the row itself. -/
structure LoadedRow where
  record : Payload
  attestationVerified : Bool := false

/-- The variables of the loop. -/
structure Loading where
  rows : List LoadedRow := []
  previousHash : String := ZERO_HASH
  previousRecordedAt : Option ℤ := none
  headerBinding : Option Binding := none

def objectOf : Line → Except Exc Payload
  | .blank => .error (.valueError "campaign collection contains a blank record")
  | .invalid => .error (.valueError "JSONDecodeError")
  | .json (.obj row) => .ok row
  | .json _ => .error (.valueError "campaign collection record must be a JSON object")

/-- What is checked of every row before its binding: returns when it was recorded. -/
def checkChain (now : ℤ) (st : Loading) (row : Payload) : Except Exc ℤ := do
  raiseIf (¬ isText (row.lookup "schema_version") SCHEMA_VERSION ∨
      ¬ isText (row.lookup "classification") COLLECTION_CLASSIFICATION)
    (.valueError "campaign collection schema/classification mismatch")
  raiseIf (¬ sameValue (row.lookup "sequence") (some (.int st.rows.length)) ∨
      ¬ isText (row.lookup "previous_sha256") st.previousHash)
    (.valueError "campaign collection sequence/hash chain is broken")
  raiseIf (¬ isText (row.lookup "record_sha256") (recordHash row))
    (.valueError "campaign collection record hash mismatch")
  let recordedAt ← parseTime (row.lookup "recorded_at")
  raiseIf (now + MAX_FUTURE_SKEW < recordedAt)
    (.valueError "campaign collection contains a future record")
  raiseIf (∃ previous ∈ st.previousRecordedAt, recordedAt < previous)
    (.valueError "campaign collection clock moved backwards")
  return recordedAt

def checkHeader (row : Payload) : Except Exc Unit := do
  raiseIf (¬ isText (row.lookup "record_type") "header" ∨
      ¬ isText (row.lookup "collector_mode") COLLECTOR_MODE)
    (.valueError "campaign collection header is invalid")
  raiseIf (¬ isBool (row.lookup "synthetic") false ∨ ¬ isBool (row.lookup "live_enabled") false ∨
      ¬ isBool (row.lookup "production_ready") false)
    (.valueError "campaign collection safety boundary is invalid")
  discard <| exactHex (field row "candidate_sha" "") 40 "candidate SHA"
  discard <| exactHex (field row "acceptance_environment_id_hash" "") 64
    "acceptance environment id hash"
  discard <| exactHex (field row "topology_hash" "") 64 "topology hash"

/-- Who produced the event: returns whether its attestation was verified. -/
def checkProvenance (telemetryKey : Option String) (recordedAt observedAt : ℤ) (row : Payload) :
    Except Exc Bool :=
  let producer := field row "producer" ""
  if isBool (row.lookup "acceptance_eligible") true then do
    raiseIf (producer ∉ TRUSTED_RUNTIME_PRODUCERS)
      (.valueError "acceptance-eligible campaign event has an untrusted producer")
    match telemetryKey with
    | none => .error (.valueError
        "telemetry attestation key is required to load acceptance-eligible events")
    | some key =>
      let verified ← verifyAttestation row key
      raiseIf (verified = false)
        (.valueError "campaign telemetry attestation verification failed")
      checkRealtime (field row "kind" "") recordedAt observedAt
      return true
  else do
    raiseIf (producer ≠ UNATTESTED_PRODUCER ∨ (row.lookup "attestation").isSome)
      (.valueError "unattested audit event provenance is invalid")
    return false

def payloadOf (row : Payload) : Except Exc Payload :=
  match row.lookup "payload" with
  | some (.obj payload) => .ok payload
  | _ => .error (.valueError "campaign collection payload must be an object")

def checkEvent (telemetryKey : Option String) (now : ℤ) (headerBinding : Option Binding)
    (recordedAt : ℤ) (row : Payload) : Except Exc Bool := do
  raiseIf (¬ isText (row.lookup "record_type") "event" ∨
      ¬ headerBinding.any fun binding => (bindingOf row).same binding)
    (.valueError "campaign collection event/binding is invalid")
  let kind := field row "kind" ""
  raiseIf (kind ∉ EVENT_KINDS ∨ kind ∈ FORBIDDEN_RAW_KINDS)
    (.valueError "campaign collection contains an unsafe or unsupported event kind")
  let payload ← payloadOf row
  validateEventPayload kind payload
  let observedAt ← parseTime (row.lookup "observed_at")
  raiseIf (now + MAX_FUTURE_SKEW < observedAt)
    (.valueError "campaign collection contains a future observation")
  checkProvenance telemetryKey recordedAt observedAt row

/-- One turn of the loop. -/
def loadRow (telemetryKey : Option String) (now : ℤ) (st : Loading) (line : Line) :
    Except Exc Loading := do
  let row ← objectOf line
  let recordedAt ← checkChain now st row
  let next (verified : Bool) (headerBinding : Option Binding) : Loading :=
    ⟨st.rows ++ [⟨row, verified⟩], field row "record_sha256" "", some recordedAt, headerBinding⟩
  if st.rows = [] then do
    checkHeader row
    return next false (some (bindingOf row))
  else do
    let verified ← checkEvent telemetryKey now st.headerBinding recordedAt row
    return next verified st.headerBinding

/-- What the caller may ask the header to be bound to. -/
structure Expected where
  candidateSha : Option String := none
  environmentHash : Option String := none
  topologyHash : Option String := none

/-- A binding that the caller asked for. -/
def checkExpected (value : Option Json) (length : ℕ) (name mismatch : String) :
    Option String → Except Exc Unit
  | none => .ok ()
  | some asked => do
    let normalized ← exactHex asked length name
    raiseIf (¬ isText value normalized) (.valueError mismatch)

/-- What is checked once the loop is through. -/
def checkBinding (expected : Expected) : Option Binding → Except Exc Unit
  | none => .error (.valueError "campaign collection is empty")
  | some header => do
    checkExpected header.candidateSha 40 "candidate SHA"
      "campaign collection candidate SHA mismatch" expected.candidateSha
    checkExpected header.acceptanceEnvironmentIdHash 64 "acceptance environment id hash"
      "campaign collection environment mismatch" expected.environmentHash
    checkExpected header.topologyHash 64 "topology hash"
      "campaign collection topology mismatch" expected.topologyHash

/-- The loop of `load_collection`. -/
def loadRows (telemetryKey : Option String) (now : ℤ) (file : File) : Except Exc Loading :=
  file.foldlM (loadRow telemetryKey now) {}

def loadCollection (file : File) (telemetryKey : Option String) (now : ℤ)
    (expected : Expected := {}) : Except Exc (List LoadedRow) := do
  let st ← loadRows telemetryKey now file
  checkBinding expected st.headerBinding
  return st.rows

/-! ## 5. Appending -/

/-- `rows[0]` and `rows[-1]`. -/
def endsOf (rows : List LoadedRow) : Except Exc (Payload × Payload) :=
  match rows.head?, rows.getLast? with
  | some header, some last => .ok (header.record, last.record)
  | _, _ => .error (.other "IndexError")

/-- The fields of an event before its eligibility is known. -/
def eventRecord (sequence : ℕ) (recordedAt observedAt : ℤ)
    (previous candidate environment topology : Json) (kind producer : String)
    (payload : Payload) : Payload :=
  [("schema_version", .str SCHEMA_VERSION),
    ("classification", .str COLLECTION_CLASSIFICATION),
    ("record_type", .str "event"),
    ("sequence", .int sequence),
    ("recorded_at", .str (iso recordedAt)),
    ("observed_at", .str (iso observedAt)),
    ("previous_sha256", previous),
    ("candidate_sha", candidate),
    ("acceptance_environment_id_hash", environment),
    ("topology_hash", topology),
    ("kind", .str kind),
    ("producer", .str producer),
    ("payload", .obj payload)]

def baseEventRecord (rows : List LoadedRow) (kind : String) (payload : Payload)
    (observedAt now : ℤ) (producer : String) : Except Exc Payload := do
  raiseIf (kind ∈ FORBIDDEN_RAW_KINDS)
    (.valueError "live-shadow order submission evidence is forbidden by Phase265")
  validateEventPayload kind payload
  raiseIf (now + MAX_FUTURE_SKEW < observedAt)
    (.valueError "future observed_at is not accepted")
  let (header, last) ← endsOf rows
  let recordedAt ← parseTime (some (← item last "recorded_at"))
  raiseIf (now < recordedAt)
    (.valueError "system clock moved backwards; refusing campaign collection append")
  return eventRecord rows.length now observedAt (← item last "record_sha256")
    (← item header "candidate_sha") (← item header "acceptance_environment_id_hash")
    (← item header "topology_hash") kind producer payload

/-- `record["record_sha256"] = _record_hash(record)`. -/
def hashed (record : Payload) : Payload :=
  record ++ [("record_sha256", .str (recordHash record))]

omit [PyRuntime] in
@[simp] theorem recordHash_hashed (record : Payload) :
    recordHash (hashed record) = recordHash record := by
  simp [recordHash, hashed]

/-- The header that `initialize_collection` writes. -/
def headerRecord (candidate environment topology : String) (now : ℤ) : Payload :=
  hashed [
    ("schema_version", .str SCHEMA_VERSION),
    ("classification", .str COLLECTION_CLASSIFICATION),
    ("record_type", .str "header"),
    ("sequence", .int 0),
    ("recorded_at", .str (iso now)),
    ("previous_sha256", .str ZERO_HASH),
    ("candidate_sha", .str candidate),
    ("acceptance_environment_id_hash", .str environment),
    ("topology_hash", .str topology),
    ("collector_mode", .str COLLECTOR_MODE),
    ("synthetic", .bool false),
    ("live_enabled", .bool false),
    ("production_ready", .bool false)]

/-- `initialize_collection`, where there is no file yet. -/
def initializeCollection (candidate environment topology : String) (now : ℤ) :
    Except Exc File := do
  let candidate ← exactHex candidate 40 "candidate SHA"
  let environment ← exactHex environment 64 "acceptance environment id hash"
  let topology ← exactHex topology 64 "topology hash"
  return [.record (headerRecord candidate environment topology now)]

/-- `_persist_event`, if there is a record to persist. -/
def persistEvent (file : File) : Except Exc Payload → Except Exc Payload × File
  | .ok record => (.ok (hashed record), file ++ [.record (hashed record)])
  | .error e => (.error e, file)

def appendCollectionEvent (file : File) (kind : String) (payload : Payload) (observedAt : ℤ)
    (telemetryKey : Option String) (now : ℤ) : Except Exc Payload × File :=
  persistEvent file do
    let rows ← loadCollection file telemetryKey now
    let record ← baseEventRecord rows kind payload observedAt now UNATTESTED_PRODUCER
    return record ++ [("acceptance_eligible", .bool false)]

def appendAttestedRuntimeEvent (file : File) (kind : String) (payload : Payload)
    (observedAt : ℤ) (producer telemetryKey : String) (now : ℤ) : Except Exc Payload × File :=
  persistEvent file do
    raiseIf (producer ∉ TRUSTED_RUNTIME_PRODUCERS)
      (.valueError "unsupported protected runtime producer")
    checkRealtime kind now observedAt
    let rows ← loadCollection file (some telemetryKey) now
    let record ← baseEventRecord rows kind payload observedAt now producer
    let eligible := record ++ [("acceptance_eligible", .bool true)]
    return eligible ++ [("attestation", .obj (← attest eligible telemetryKey))]

end Kripto.Campaign
