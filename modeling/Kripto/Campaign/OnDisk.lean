/-
# The collection on the disk

The append functions of `Collection.lean` once more, with what they are given and what they leave
as they are: a payload that is a Python dictionary, a file whose last line may lack its newline,
and a write that may fail on its way.

* `append_plain`: a plain payload, a file that ends with a newline and a write that succeeds are
  the case of `Collection.lean`;
* `append_closed_iff`: an append that returns leaves a file that loads to the old rows and the
  new one just in that case, and one that raises leaves the file alone unless its write failed
  with a part of the line written.

The reader takes a last line without a newline, and the writer does not look for one: the new
record is glued to it and the line is no JSON any more.
-/
import Kripto.Campaign.Emission
import Kripto.Campaign.PythonPayload
import Kripto.Campaign.Operations

namespace Kripto.Campaign.OnDisk

open Effect Python CollectionEncoding

/-! ## 1. Files -/

/-- Lines, each with its newline, and what stands after the last newline. -/
structure TextFile where
  lines : File
  rest : Option Line

namespace TextFile

variable (file : TextFile)

/-- The lines a reader goes through. -/
def view : File := file.lines ++ file.rest.toList

/-- What a record becomes when it is written after an unfinished line.  No JSON value is one with
an object behind it. -/
def glue : Option Line → Line → Line
  | none, line => line
  | some .blank, line => line
  | some _, _ => .invalid

/-- The file with a line written to its end. -/
def write (line : Line) : TextFile := ⟨file.lines ++ [glue file.rest line], none⟩

/-- The file with a line written to its end, all but its newline. -/
def writePart (line : Line) : TextFile := ⟨file.lines, some (glue file.rest line)⟩

end TextFile

/-- What comes of a write: it is done, or it raises and has left nothing, the first part of the
record's text, the text without its newline, or all of the line. -/
inductive WriteOutcome
  | done
  | nothing
  | part
  | unfinished
  | whole
  deriving DecidableEq

/-- `handle.write(line + "\\n")` and what goes with it. -/
def WriteOutcome.perform (outcome : WriteOutcome) (file : TextFile) (line : Line) :
    Except Exc Unit × TextFile :=
  match outcome with
  | done => (.ok (), file.write line)
  | nothing => (.error (.other "OSError"), file)
  | part => (.error (.other "OSError"), file.writePart .invalid)
  | unfinished => (.error (.other "OSError"), file.writePart line)
  | whole => (.error (.other "OSError"), file.write line)

/-! ## 2. Records -/

/-- A record before it is written; its keys are texts. -/
abbrev Record : Type := List (String × PyValue)

def Record.toValue (record : Record) : PyValue :=
  .dict (record.map fun e => (.str (Text.of e.1), e.2))

/-- A JSON record. -/
def ofJson (row : Payload) : Record := row.map fun e => (e.1, e.2.toValue)

theorem toValue_ofJson (row : Payload) : (ofJson row).toValue = (Json.obj row).toValue := by
  simp [Record.toValue, ofJson, Json.toValue, fieldsToValue_eq]

/-- The fields of an event before its eligibility is known. -/
def eventRecord [PyRuntime] [CollectionEncoding] (sequence : ℕ) (recordedAt observedAt : ℤ)
    (previous candidate environment topology : Json) (kind producer : String) (payload : Dict) :
    Record :=
  [("schema_version", .str (Text.of SCHEMA_VERSION)),
    ("classification", .str (Text.of COLLECTION_CLASSIFICATION)),
    ("record_type", .str (Text.of "event")),
    ("sequence", .int sequence),
    ("recorded_at", .str (Text.of (iso recordedAt))),
    ("observed_at", .str (Text.of (iso observedAt))),
    ("previous_sha256", previous.toValue),
    ("candidate_sha", candidate.toValue),
    ("acceptance_environment_id_hash", environment.toValue),
    ("topology_hash", topology.toValue),
    ("kind", .str (Text.of kind)),
    ("producer", .str (Text.of producer)),
    ("payload", .dict payload)]

section Appends

variable [PyRuntime] [CollectionEncoding] [PythonEncoding]

open PythonEncoding

def recordHash (row : Record) : Except Exc String := do
  let kept : Record := row.filter fun e => e.1 ≠ "record_sha256" ∧ e.1 ≠ ATTESTATION_MARK
  return sha256 (← canonicalBytes kept.toValue)

def attestationMessage (record : Record) : Record :=
  ATTESTED_FIELDS.map fun name => (name, (record.lookup name).getD .none)

def attest (record : Record) (telemetryKey : String) : Except Exc PyValue := do
  checkAttestationKey telemetryKey
  let bytes ← canonicalBytes (attestationMessage record).toValue
  return (ofJson [("scheme", .str ATTESTATION_SCHEME), ("key_id", .str (keyDigest telemetryKey)),
    ("sha256", .str (hmacSha256 telemetryKey bytes))]).toValue

def baseEventRecord (rows : List LoadedRow) (kind : String) (payload : Dict)
    (observedAt now : ℤ) (producer : String) : Except Exc Record := do
  raiseIf (kind ∈ FORBIDDEN_RAW_KINDS)
    (.valueError "live-shadow order submission evidence is forbidden by Phase265")
  validateEventPayload kind payload
  raiseIf (now + MAX_FUTURE_SKEW < observedAt)
    (.valueError "future observed_at is not accepted")
  let (header, last) ← endsOf rows
  let recordedAt ← parseTime (some (← item last "recorded_at"))
  raiseIf (now < recordedAt)
    (.valueError "system clock moved backwards; refusing campaign collection append")
  return eventRecord rows.length now observedAt (← item last "record_sha256")
    (← item header "candidate_sha") (← item header "acceptance_environment_id_hash")
    (← item header "topology_hash") kind producer payload

/-- `record["record_sha256"] = _record_hash(record)`, and the line of the record. -/
def hashedLine (record : Record) : Except Exc (Record × Line) := do
  let hashed := record ++ [("record_sha256", .str (Text.of (← recordHash record)))]
  return (hashed, .json (← readBack hashed.toValue))

/-- `_persist_event`, if there is a record to persist. -/
def persistEvent (outcome : WriteOutcome) (file : TextFile) (record : Except Exc Record) :
    Except Exc Record × TextFile :=
  match record >>= hashedLine with
  | .error e => (.error e, file)
  | .ok (hashed, line) =>
    ((outcome.perform file line).1.map fun _ => hashed, (outcome.perform file line).2)

/-- The record of `append_collection_event`. -/
def collectionRecord (file : File) (kind : String) (payload : Dict) (observedAt : ℤ)
    (telemetryKey : Option String) (now : ℤ) : Except Exc Record := do
  let rows ← loadCollection file telemetryKey now
  let record ← baseEventRecord rows kind payload observedAt now UNATTESTED_PRODUCER
  return record ++ [("acceptance_eligible", .bool false)]

def appendCollectionEvent (outcome : WriteOutcome) (file : TextFile) (kind : String)
    (payload : Dict) (observedAt : ℤ) (telemetryKey : Option String) (now : ℤ) :
    Except Exc Record × TextFile :=
  persistEvent outcome file (collectionRecord file.view kind payload observedAt telemetryKey now)

/-- The record of `append_attested_runtime_event`. -/
def attestedRecord (file : File) (kind : String) (payload : Dict) (observedAt : ℤ)
    (producer telemetryKey : String) (now : ℤ) : Except Exc Record := do
  raiseIf (producer ∉ TRUSTED_RUNTIME_PRODUCERS)
    (.valueError "unsupported protected runtime producer")
  checkRealtime kind now observedAt
  let rows ← loadCollection file (some telemetryKey) now
  let record ← baseEventRecord rows kind payload observedAt now producer
  let eligible := record ++ [("acceptance_eligible", .bool true)]
  return eligible ++ [("attestation", ← attest eligible telemetryKey)]

def appendAttestedRuntimeEvent (outcome : WriteOutcome) (file : TextFile) (kind : String)
    (payload : Dict) (observedAt : ℤ) (producer telemetryKey : String) (now : ℤ) :
    Except Exc Record × TextFile :=
  persistEvent outcome file
    (attestedRecord file.view kind payload observedAt producer telemetryKey now)

/-! ## 3. The two appends as one -/

/-- A call of one of the two functions. -/
inductive Append
  | collection (kind : String) (payload : Dict) (observedAt : ℤ) (telemetryKey : Option String)
  | attested (kind : String) (payload : Dict) (observedAt : ℤ) (producer telemetryKey : String)

namespace Append

def payload : Append → Dict
  | collection _ payload _ _ => payload
  | attested _ payload _ _ _ => payload

def kind : Append → String
  | collection kind _ _ _ => kind
  | attested kind _ _ _ _ => kind

def producer : Append → String
  | collection _ _ _ _ => UNATTESTED_PRODUCER
  | attested _ _ _ producer _ => producer

/-- The key it attests with. -/
def key : Append → Option String
  | collection _ _ _ _ => none
  | attested _ _ _ _ telemetryKey => some telemetryKey

/-- The key it loads with. -/
def loadKey : Append → Option String
  | collection _ _ _ telemetryKey => telemetryKey
  | attested _ _ _ _ telemetryKey => some telemetryKey

/-- What it would write. -/
def record (a : Append) (file : File) (now : ℤ) : Except Exc Record :=
  match a with
  | collection kind payload observedAt telemetryKey =>
    collectionRecord file kind payload observedAt telemetryKey now
  | attested kind payload observedAt producer telemetryKey =>
    attestedRecord file kind payload observedAt producer telemetryKey now

def run (a : Append) (outcome : WriteOutcome) (file : TextFile) (now : ℤ) :
    Except Exc Record × TextFile :=
  match a with
  | collection kind payload observedAt telemetryKey =>
    appendCollectionEvent outcome file kind payload observedAt telemetryKey now
  | attested kind payload observedAt producer telemetryKey =>
    appendAttestedRuntimeEvent outcome file kind payload observedAt producer telemetryKey now

theorem run_eq (a : Append) (outcome : WriteOutcome) (file : TextFile) (now : ℤ) :
    a.run outcome file now = persistEvent outcome file (a.record file.view now) := by
  cases a <;> rfl

/-- Nothing raises before the write. -/
def Ready (a : Append) (file : TextFile) (now : ℤ) : Prop :=
  ∃ hashed line, a.record file.view now >>= hashedLine = .ok (hashed, line)

/-- The entry of a plain payload. -/
def entry (a : Append) (p : Payload) (now : ℤ) : Entry :=
  match a with
  | collection kind _ observedAt _ => Entry.audit kind p observedAt now
  | attested kind _ observedAt producer telemetryKey =>
    Entry.attested kind p observedAt producer telemetryKey now

section Entry

omit [PyRuntime] [CollectionEncoding] [PythonEncoding]

variable (a : Append) (p : Payload) (now : ℤ)

@[simp] theorem entry_key : (a.entry p now).key = a.key := by cases a <;> rfl

@[simp] theorem entry_kind : (a.entry p now).kind = a.kind := by cases a <;> rfl

@[simp] theorem entry_producer : (a.entry p now).producer = a.producer := by cases a <;> rfl

@[simp] theorem entry_payload : (a.entry p now).payload = p := by cases a <;> rfl

@[simp] theorem entry_recordedAt : (a.entry p now).recordedAt = now := by cases a <;> rfl

theorem producer_of_key (h : a.key = none) : a.producer = UNATTESTED_PRODUCER := by
  cases a with
  | collection => rfl
  | attested => cases h

end Entry

/-- The row is of the appended event. -/
structure IsEventOf (a : Append) (row : LoadedRow) : Prop where
  kind : row.record.lookup "kind" = some (.str a.kind)
  producer : row.record.lookup "producer" = some (.str a.producer)
  payload : ∃ p, row.record.lookup "payload" = some (.obj p) ∧ fieldsToValue p = a.payload
  eligible : row.record.lookup "acceptance_eligible" = some (.bool a.key.isSome)
  verified : row.attestationVerified = a.key.isSome

/-- A loader with this key can verify what was appended. -/
def Verifiable (a : Append) (telemetryKey : Option String) : Prop :=
  ∀ key ∈ a.key, telemetryKey = some key

omit [PyRuntime] [CollectionEncoding] [PythonEncoding] in
theorem verifiable_loadKey (a : Append) : a.Verifiable a.loadKey := by
  intro key hkey
  cases a with
  | collection => cases hkey
  | attested => exact hkey

/-- Whoever could load the file before can load it from now on, with the new row behind the old
ones. -/
def Closed (a : Append) (now : ℤ) (file left : TextFile) : Prop :=
  ∀ telemetryKey expected rows, a.Verifiable telemetryKey →
    loadCollection file.view telemetryKey now expected = .ok rows → ∀ later, now ≤ later →
      ∃ row, a.IsEventOf row ∧
        loadCollection left.view telemetryKey later expected = .ok (rows ++ [row])

/-- The append is closed if it returns, and leaves the file alone if it raises. -/
def Meets (a : Append) (outcome : WriteOutcome) (file : TextFile) (now : ℤ) : Prop :=
  match a.run outcome file now with
  | (.ok _, left) => a.Closed now file left
  | (.error _, left) => left = file

end Append

/-! ## 4. Plain payloads -/

variable {row record : Payload} {key : String} {p : Payload} {a : Append} {now : ℤ}

omit [PyRuntime] [CollectionEncoding] [PythonEncoding] in
theorem lookup_ofJson (row : Payload) (name : String) :
    (ofJson row).lookup name = (row.lookup name).map Json.toValue := by
  induction row with
  | nil => rfl
  | cons e row ih =>
    rw [ofJson, List.map_cons, List.lookup_cons, List.lookup_cons]
    split
    · rfl
    · exact ih

theorem recordHash_ofJson (row : Payload) :
    recordHash (ofJson row) = .ok (Campaign.recordHash row) := by
  have hkept : ((ofJson row).filter fun e => e.1 ≠ "record_sha256" ∧ e.1 ≠ ATTESTATION_MARK) =
      ofJson (row.filter fun e => e.1 ≠ "record_sha256" ∧ e.1 ≠ ATTESTATION_MARK) := by
    simp only [ofJson, List.filter_map]
    rfl
  obtain ⟨bytes, hbytes⟩ := canonicalBytes_toValue
    (.obj (row.filter fun e => e.1 ≠ "record_sha256" ∧ e.1 ≠ ATTESTATION_MARK))
  simp only [recordHash, hkept, toValue_ofJson, hbytes, ok_bind, pure_eq_ok,
    Campaign.recordHash, recordDigest_eq hbytes]

theorem attest_ofJson (row : Payload) (key : String) :
    attest (ofJson row) key =
      (Campaign.attest row key).map fun attestation => (Json.obj attestation).toValue := by
  have hmessage : attestationMessage (ofJson row) = ofJson (Campaign.attestationMessage row) := by
    simp only [attestationMessage, Campaign.attestationMessage, ofJson, List.map_map]
    refine List.map_congr_left fun name _ => ?_
    have hlookup := lookup_ofJson row name
    simp only [ofJson] at hlookup
    rw [Function.comp_apply, hlookup]
    cases row.lookup name <;> simp [Json.toValue]
  obtain ⟨bytes, hbytes⟩ := canonicalBytes_toValue (.obj (Campaign.attestationMessage row))
  simp only [attest, Campaign.attest, hmessage, toValue_ofJson, hbytes, ok_bind, pure_eq_ok,
    hmac_eq hbytes]
  cases checkAttestationKey key <;> rfl

theorem baseEventRecord_toValue (rows : List LoadedRow) (kind : String) (p : Payload)
    (observedAt now : ℤ) (producer : String) :
    baseEventRecord rows kind (fieldsToValue p) observedAt now producer =
      ofJson <$> Campaign.baseEventRecord rows kind p observedAt now producer := by
  have hrecord (n : ℕ) (previous candidate environment topology : Json) :
      eventRecord n now observedAt previous candidate environment topology kind producer
          (fieldsToValue p) =
        ofJson (Campaign.eventRecord n now observedAt previous candidate environment topology kind
          producer p) := by
    simp [eventRecord, Campaign.eventRecord, ofJson, Json.toValue]
  simp only [baseEventRecord, Campaign.baseEventRecord, validateEventPayload_toValue, hrecord,
    map_bind, map_pure]

/-- The record of an entry, before it is hashed. -/
theorem record_plain (file : File) (h : fieldsToValue p = a.payload) :
    a.record file now = ofJson <$> ((a.entry p now).precheck >>= fun _ =>
      loadCollection file a.loadKey now >>= (a.entry p now).recordAfter) := by
  cases a with
  | collection kind payload observedAt telemetryKey =>
    obtain rfl : fieldsToValue p = payload := h
    have hineligible (record : Payload) :
        ofJson record ++ [("acceptance_eligible", .bool false)] =
          ofJson (record ++ [("acceptance_eligible", .bool false)]) := by
      simp [ofJson, Json.toValue]
    simp only [Append.record, collectionRecord, Append.entry, Entry.audit, Entry.precheck,
      Entry.recordAfter, Entry.finish, Append.loadKey, baseEventRecord_toValue, map_bind,
      bind_map_left, hineligible, ok_bind]
    rfl
  | attested kind payload observedAt producer telemetryKey =>
    obtain rfl : fieldsToValue p = payload := h
    have heligible (record : Payload) :
        ofJson record ++ [("acceptance_eligible", .bool true)] =
          ofJson (record ++ [("acceptance_eligible", .bool true)]) := by
      simp [ofJson, Json.toValue]
    simp only [Append.record, attestedRecord, Append.entry, Entry.attested, Entry.precheck,
      Entry.recordAfter, Entry.finish, Append.loadKey, baseEventRecord_toValue, map_bind,
      bind_map_left, bind_assoc, heligible, attest_ofJson]
    refine bind_congr fun _ => bind_congr fun _ => bind_congr fun rows => ?_
    refine bind_congr fun record => ?_
    cases Campaign.attest (record ++ [("acceptance_eligible", .bool true)]) telemetryKey with
    | error e => rfl
    | ok attestation => simp [Except.map, ofJson]

theorem hashedLine_ofJson (record : Payload) :
    hashedLine (ofJson record) = .ok (ofJson (hashed record), .record (hashed record)) := by
  have hhashed : ofJson record ++ [("record_sha256", .str (Text.of (Campaign.recordHash record)))] =
      ofJson (hashed record) := by
    simp [hashed, ofJson, Json.toValue]
  simp only [hashedLine, recordHash_ofJson, ok_bind, hhashed, toValue_ofJson, readBack_toValue,
    pure_eq_ok]

theorem persistEvent_ofJson (lines : File) (x : Except Exc Payload) :
    persistEvent .done ⟨lines, none⟩ (ofJson <$> x) =
      (ofJson <$> (Campaign.persistEvent lines x).1,
        ⟨(Campaign.persistEvent lines x).2, none⟩) := by
  cases x with
  | error e => rfl
  | ok record =>
    have hbind : (ofJson <$> (.ok record : Except Exc Payload)) >>= hashedLine =
        .ok (ofJson (hashed record), .record (hashed record)) := hashedLine_ofJson record
    rw [persistEvent, hbind]
    rfl

/-- **A plain append** to a file that ends with a newline, if its write succeeds, is that of its
entry. -/
theorem append_plain (lines : File) (h : fieldsToValue p = a.payload) :
    a.run .done ⟨lines, none⟩ now =
      (ofJson <$> ((a.entry p now).append lines a.loadKey).1,
        ⟨((a.entry p now).append lines a.loadKey).2, none⟩) := by
  have hview : TextFile.view ⟨lines, none⟩ = lines := List.append_nil lines
  rw [Append.run_eq, hview, record_plain lines h, persistEvent_ofJson, Entry.append,
    Append.entry_recordedAt]

/-! ## 5. When an append is closed -/

open TextFile

variable {file left : TextFile} {outcome : WriteOutcome} {rows : List LoadedRow} {line : Line}
  {telemetryKey : Option String} {expected : Expected}

omit [PythonEncoding] in
/-- The last line of a file that loads is a record, or ends with a newline. -/
theorem rest_of_load (h : loadCollection file.view telemetryKey now expected = .ok rows) :
    file.rest = none ∨ ∃ row, file.rest = some (.record row) := by
  obtain ⟨st, hst, -⟩ := loadCollection_eq_ok h
  have hview := (loading_of_loadRows hst).file
  cases hrest : file.rest with
  | none => exact .inl rfl
  | some line =>
    have hline : line ∈ file.view := by simp [view, hrest]
    rw [hview, List.mem_map] at hline
    obtain ⟨row, -, rfl⟩ := hline
    exact .inr ⟨row, rfl⟩

omit [PythonEncoding] in
theorem not_load_invalid (lines : File) :
    loadCollection (lines ++ [.invalid]) telemetryKey now expected ≠ .ok rows := by
  intro h
  obtain ⟨st, hst, -⟩ := loadCollection_eq_ok h
  have hline : Line.invalid ∈ lines ++ [.invalid] := by simp
  rw [(loading_of_loadRows hst).file, List.mem_map] at hline
  obtain ⟨row, -, hrow⟩ := hline
  cases hrow

omit [PyRuntime] [CollectionEncoding] [PythonEncoding] in
/-- A write that failed half-way has changed the file. -/
theorem perform_ne (hfile : file.rest = none ∨ ∃ row, file.rest = some (.record row))
    (houtcome : outcome ≠ .nothing) (hdone : outcome ≠ .done) :
    (outcome.perform file line).2 ≠ file := by
  cases outcome with
  | done => exact absurd rfl hdone
  | nothing => exact absurd rfl houtcome
  | part =>
    intro h
    have hrest : some (glue file.rest .invalid) = file.rest := congrArg TextFile.rest h
    rcases hfile with hfile | ⟨row, hfile⟩ <;> rw [hfile] at hrest <;> cases hrest
  | unfinished =>
    intro h
    have hrest : some (glue file.rest line) = file.rest := congrArg TextFile.rest h
    rcases hfile with hfile | ⟨row, hfile⟩ <;> rw [hfile] at hrest <;> cases hrest
  | whole =>
    intro h
    have hlines : file.lines ++ [glue file.rest line] = file.lines := congrArg TextFile.lines h
    simp at hlines

theorem Append.load_of_record {lines : File} {record : Record}
    (h : a.record lines now = .ok record) :
    ∃ rows, loadCollection lines a.loadKey now = .ok rows := by
  cases a with
  | collection kind payload observedAt telemetryKey =>
    simp only [Append.record, collectionRecord, bind_eq_ok_iff] at h
    obtain ⟨rows, hload, -⟩ := h
    exact ⟨rows, hload⟩
  | attested kind payload observedAt producer telemetryKey =>
    simp only [Append.record, attestedRecord, bind_eq_ok_iff] at h
    obtain ⟨_, -, _, -, rows, hload, -⟩ := h
    exact ⟨rows, hload⟩

theorem Append.Ready.load (h : a.Ready file now) :
    ∃ rows, loadCollection file.view a.loadKey now = .ok rows := by
  obtain ⟨hashed, line, hready⟩ := h
  obtain ⟨record, hrecord, -⟩ := bind_eq_ok_iff.mp hready
  exact Append.load_of_record hrecord

theorem isOk_run_of_ready (h : a.Ready file now) : (a.run .done file now).1.isOk = true := by
  obtain ⟨hashed, line, hready⟩ := h
  rw [Append.run_eq, persistEvent, hready]
  rfl

/-- A plain append whose entry can be recorded gets as far as its write. -/
theorem ready_plain (hp : fieldsToValue p = a.payload) (hpre : (a.entry p now).precheck = .ok ())
    (hload : loadCollection file.view a.loadKey now = .ok rows)
    (hafter : (a.entry p now).recordAfter rows = .ok record) : a.Ready file now := by
  refine ⟨ofJson (hashed record), .record (hashed record), ?_⟩
  have hrecord : a.record file.view now = .ok (ofJson record) := by
    simp only [record_plain file.view hp, hpre, hload, ok_bind, hafter]
    rfl
  rw [hrecord, ok_bind, hashedLine_ofJson]

theorem run_of_ready {hashed : Record}
    (h : a.record file.view now >>= hashedLine = .ok (hashed, line)) :
    a.run outcome file now =
      ((outcome.perform file line).1.map fun _ => hashed, (outcome.perform file line).2) := by
  rw [Append.run_eq, persistEvent, h]

theorem run_of_not_ready (outcome : WriteOutcome) (h : ¬ a.Ready file now) :
    ∃ e, a.run outcome file now = (.error e, file) := by
  rw [Append.run_eq, persistEvent]
  cases hready : a.record file.view now >>= hashedLine with
  | error e => exact ⟨e, rfl⟩
  | ok out => exact absurd ⟨out.1, out.2, hready⟩ h

omit [PyRuntime] [PythonEncoding] in
/-- The row of an entry's record, once it is loaded. -/
theorem isEventOf_of_describes {verified : Bool} (hp : fieldsToValue p = a.payload)
    (h : (a.entry p now).Describes record) (hverified : verified = a.key.isSome) :
    a.IsEventOf ⟨record, verified⟩ where
  kind := by simpa using h.kind
  producer := by simpa using h.producer
  payload := ⟨p, by simpa using h.payload, hp⟩
  eligible := by simpa using h.eligible
  verified := hverified

omit [PythonEncoding] in
/-- **An append of an entry** is closed. -/
theorem closed_of_entry {lines left : File} (hp : fieldsToValue p = a.payload)
    (h : (a.entry p now).append lines a.loadKey = (.ok record, left)) :
    a.Closed now ⟨lines, none⟩ ⟨left, none⟩ := by
  have hview (lines : File) : TextFile.view ⟨lines, none⟩ = lines := List.append_nil lines
  have hproducer :
      (a.entry p now).key = none → (a.entry p now).producer = UNATTESTED_PRODUCER := by
    rw [Append.entry_key, Append.entry_producer]
    exact a.producer_of_key
  obtain ⟨hextends, rfl⟩ := append_extends hproducer h
  obtain ⟨hsound, _, _, _, hfollows⟩ := id hextends
  intro telemetryKey expected rows hkey hload later hlater
  rw [hview] at hload ⊢
  have hdistinct : (a.entry p now).Distinct telemetryKey := by
    intro key hmem key' hmem' _
    rw [Append.entry_key] at hmem
    rw [hkey key hmem] at hmem'
    exact Option.some.inj hmem'
  have hrecorded : (a.entry p now).recordedAt ≤ later := by rwa [Append.entry_recordedAt]
  have hadmitted : (a.entry p now).admitted telemetryKey later = .ok a.key.isSome := by
    cases hk : a.key with
    | none => exact admitted_audit hsound (by rw [Append.entry_key, hk]) hrecorded
    | some key =>
      rw [hkey key hk]
      exact admitted_attested hsound (by rw [Append.entry_key, hk]) hrecorded
  have hold := loadCollection_later hlater hload
  simp only [loadCollection, bind_eq_ok_iff, pure_eq_ok, Except.ok.injEq] at hold
  obtain ⟨st, hst, _, hbinding, rfl⟩ := hold
  refine ⟨⟨record, a.key.isSome⟩, isEventOf_of_describes hp hfollows.toDescribes rfl, ?_⟩
  simp only [loadCollection, loadRows_append, hst, ok_bind,
    loadRow_extends (loading_of_loadRows hst) hextends hdistinct, hadmitted, hbinding, pure_eq_ok]

/-- **What a write leaves** is closed just when the file ended with a newline and the payload is
plain: after an unfinished record the line is no JSON, and what is read back is plain. -/
theorem closed_write_iff {hashed : Record}
    (h : a.record file.view now >>= hashedLine = .ok (hashed, line)) :
    a.Closed now file (file.write line) ↔ file.rest = none ∧ Plain a.payload := by
  constructor
  · intro hclosed
    have hready : a.Ready file now := ⟨hashed, line, h⟩
    obtain ⟨rows, hload⟩ := hready.load
    obtain ⟨row, hrow, hleft⟩ := hclosed a.loadKey {} rows a.verifiable_loadKey hload now le_rfl
    refine ⟨?_, ?_⟩
    · rcases rest_of_load hload with hrest | ⟨row, hrest⟩
      · exact hrest
      · have hview : (file.write line).view = file.lines ++ [.invalid] := by
          simp [TextFile.view, TextFile.write, hrest, glue]
        rw [hview] at hleft
        exact absurd hleft (not_load_invalid _)
    · obtain ⟨p, -, hp⟩ := hrow.payload
      exact ⟨p, hp⟩
  · rintro ⟨hrest, p, hp⟩
    obtain ⟨lines, rest⟩ := file
    obtain rfl : rest = none := hrest
    have hrun : a.run .done ⟨lines, none⟩ now = _ := run_of_ready h
    rw [append_plain lines hp] at hrun
    cases happend : (a.entry p now).append lines a.loadKey with
    | mk result left =>
      rw [happend, Prod.mk.injEq] at hrun
      obtain ⟨hresult, hleft⟩ := hrun
      cases result with
      | error e => cases hresult
      | ok record =>
        have hwrite : ⟨left, none⟩ = TextFile.write ⟨lines, none⟩ line := hleft
        rw [← hwrite]
        exact closed_of_entry hp happend

/-- **An append is closed** if it returns, and leaves the file alone if it raises, unless it gets
as far as its write and the write leaves a part behind, or is done but the file did not end with
a newline or the payload is not plain. -/
theorem append_closed_iff (a : Append) (outcome : WriteOutcome) (file : TextFile) (now : ℤ) :
    a.Meets outcome file now ↔ (a.Ready file now →
      outcome = .nothing ∨ outcome = .done ∧ file.rest = none ∧ Plain a.payload) := by
  by_cases hready : a.Ready file now
  · obtain ⟨hashed, line, hrecord⟩ := id hready
    obtain ⟨rows, hload⟩ := hready.load
    have hrun : a.run outcome file now = _ := run_of_ready hrecord
    rw [imp_iff_right hready, Append.Meets, hrun]
    by_cases hnothing : outcome = .nothing
    · subst hnothing
      exact iff_of_true rfl (.inl rfl)
    by_cases hdone : outcome = .done
    · subst hdone
      exact (closed_write_iff hrecord).trans (by simp)
    · have hne : (outcome.perform file line).2 ≠ file :=
        perform_ne (rest_of_load hload) hnothing hdone
      have hraises : ∃ e, (outcome.perform file line).1 = .error e := by
        cases outcome with
        | done => exact absurd rfl hdone
        | nothing | part | unfinished | whole => exact ⟨_, rfl⟩
      obtain ⟨e, he⟩ := hraises
      rw [he]
      exact iff_of_false hne (by simp [hnothing, hdone])
  · obtain ⟨e, hrun⟩ := run_of_not_ready outcome hready
    rw [Append.Meets, hrun]
    exact iff_of_true rfl fun h => absurd h hready

omit [PythonEncoding] in
/-- A collection of nothing but its header. -/
theorem load_single {t : ℤ} (hchain : checkChain now {} row = .ok t)
    (hheader : checkHeader row = .ok ()) :
    loadCollection [.record row] telemetryKey now = .ok [⟨row, false⟩] := by
  simp [loadCollection, loadRows, loadRow, objectOf, hchain, hheader, checkBinding, checkExpected]

end Appends

/-! ## 6. Two files that do not load any more -/

/-- The digest of bytes: how many characters they are. -/
def lengthDigest (bytes : String) : String := strokes bytes.toList.length

def objectDigest (row : Payload) : String :=
  match canonicalBytes (Json.obj row).toValue with
  | .ok bytes => lengthDigest bytes
  | .error _ => lengthDigest ""

theorem isAscii_objectDigest (row : Payload) : isAscii (objectDigest row) := by
  unfold objectDigest
  split <;> exact isAscii_strokes _

theorem objectDigest_eq {row : Payload} {bytes : String}
    (h : canonicalBytes (Json.obj row).toValue = .ok bytes) :
    objectDigest row = lengthDigest bytes := by
  rw [objectDigest, h]

@[reducible] def bytesEncoding : CollectionEncoding :=
  { strokeEncoding with
    recordDigest := objectDigest
    hmac := fun _ => objectDigest
    hmac_ascii := fun _ => isAscii_objectDigest }

@[reducible] def plainPython : @PythonEncoding plainRuntime bytesEncoding :=
  letI := plainRuntime
  letI := bytesEncoding
  { strValue := fun
      | .int n => toString n
      | _ => "None"
    strKey := fun _ => "None"
    sha256 := lengthDigest
    hmacSha256 := fun _ => lengthDigest
    strValue_toValue := fun v hv => by cases v <;> simp_all [Json.toValue, PyRuntime.str]
    recordDigest_eq := objectDigest_eq
    hmac_eq := objectDigest_eq }

attribute [local instance] plainRuntime bytesEncoding plainPython

def candidate : String := "0123456789012345678901234567890123456789"

def topology : String := "0123456789012345678901234567890123456789012345678901234567890123"

/-- The header of a new collection. -/
def header : Payload := headerRecord candidate topology topology 0

/-- An event of this kind without payload, for audits. -/
def audit (kind : String) : Append := .collection kind [] 1 none

theorem lookup_hash : header.lookup "record_sha256" = some (.str (Campaign.recordHash header)) := by
  rw [header, headerRecord, recordHash_hashed]
  rfl

theorem checkChain_header : checkChain 1 {} header = .ok 0 := by
  have hschema : header.lookup "schema_version" = some (.str SCHEMA_VERSION) := rfl
  have hclass : header.lookup "classification" = some (.str COLLECTION_CLASSIFICATION) := rfl
  have hsequence : header.lookup "sequence" = some (.int 0) := rfl
  have hprevious : header.lookup "previous_sha256" = some (.str ZERO_HASH) := rfl
  have hrecorded : header.lookup "recorded_at" = some (.str (iso 0)) := rfl
  have hfuture : ¬ (1 : ℤ) + MAX_FUTURE_SKEW < 0 := by decide
  have hparse : parseTime (some (.str (iso 0))) = .ok 0 := by
    rw [parseTime, Option.elim_some, Json.text, fromisoformat_iso]
  simp [checkChain, hschema, hclass, hsequence, hprevious, lookup_hash, hrecorded, hparse,
    raiseIf_false, hfuture]

theorem load_header : loadCollection [.record header] none 1 = .ok [⟨header, false⟩] :=
  load_single checkChain_header (by decide)

/-- The event can be appended to the header. -/
theorem audit_ready {kind : String} {file : TextFile} (hsound : ((audit kind).entry [] 1).Sound)
    (hview : file.view = [.record header]) : (audit kind).Ready file 1 := by
  have hparse : parseTime (some (.str (iso 0))) = .ok 0 := by
    rw [parseTime, Option.elim_some, Json.text, fromisoformat_iso]
  have hends : endsOf [⟨header, false⟩] = .ok (header, header) := rfl
  have hpositive : (0 : ℤ) ≤ ((audit kind).entry [] 1).recordedAt := by
    rw [Append.entry_recordedAt]
    decide
  obtain ⟨record, hrecord⟩ := recordAfter_of_sound (v := .str (iso 0)) hsound hends rfl hparse
    hpositive lookup_hash rfl rfl rfl
  refine ready_plain (p := []) rfl hsound.precheck ?_ hrecord
  rw [hview]
  exact load_header

theorem reconnect_sound : ((audit "private_reconnect").entry [] 1).Sound := by
  constructor <;> decide

/-- **A file whose last line lacks its newline** loads, and an append to it returns and is not
closed. -/
theorem append_not_closed :
    loadCollection (TextFile.mk [] (some (.record header))).view none 1 =
        .ok [⟨header, false⟩] ∧
      ((audit "private_reconnect").run .done ⟨[], some (.record header)⟩ 1).1.isOk = true ∧
      ¬ (audit "private_reconnect").Meets .done ⟨[], some (.record header)⟩ 1 := by
  have hready : (audit "private_reconnect").Ready ⟨[], some (.record header)⟩ 1 :=
    audit_ready reconnect_sound rfl
  refine ⟨load_header, isOk_run_of_ready hready, ?_⟩
  rw [append_closed_iff]
  intro hcond
  rcases hcond hready with hdone | ⟨-, hrest, -⟩
  · cases hdone
  · cases hrest

end Kripto.Campaign.OnDisk
