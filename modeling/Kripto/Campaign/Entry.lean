/-
# What an append writes, and when a load admits it

Both append functions write a record for an entry (`Entry.append`).  The record describes its
entry and stands in its place: it follows the rows it was written after (`Entry.Follows`).  A
later load finds nothing wrong with the place.  Whether it admits the record depends on the
entry, the key and the clock alone (`Entry.admitted`, `loadRow_follows`).
-/
import Kripto.Campaign.Collection
import Kripto.Effect.Outcome

namespace Kripto.Campaign

open Effect CollectionEncoding

variable [PyRuntime] [CollectionEncoding]

/-! ## 1. Entries -/

/-- An event with what an append function knows of it.  `key` is the one it is attested with. -/
structure Entry where
  kind : String
  payload : Payload
  observedAt : ℤ
  recordedAt : ℤ
  producer : String
  key : Option String

namespace Entry

variable (e : Entry)

/-- What is checked before the file is read. -/
def precheck : Except Exc Unit :=
  match e.key with
  | none => .ok ()
  | some _ => do
    raiseIf (e.producer ∉ TRUSTED_RUNTIME_PRODUCERS)
      (.valueError "unsupported protected runtime producer")
    checkRealtime e.kind e.recordedAt e.observedAt

/-- Eligibility, and the attestation if there is to be one. -/
def finish (record : Payload) : Except Exc Payload :=
  match e.key with
  | none => .ok (record ++ [("acceptance_eligible", .bool false)])
  | some key => do
    let eligible := record ++ [("acceptance_eligible", .bool true)]
    return eligible ++ [("attestation", .obj (← attest eligible key))]

def recordAfter (rows : List LoadedRow) : Except Exc Payload := do
  let record ← baseEventRecord rows e.kind e.payload e.observedAt e.recordedAt e.producer
  e.finish record

/-- Append the entry, loading the file with `telemetryKey`. -/
def append (file : File) (telemetryKey : Option String) : Except Exc Payload × File :=
  persistEvent file do
    e.precheck
    let rows ← loadCollection file telemetryKey e.recordedAt
    e.recordAfter rows

/-- The entry of an audit-only append. -/
def audit (kind : String) (payload : Payload) (observedAt now : ℤ) : Entry :=
  ⟨kind, payload, observedAt, now, UNATTESTED_PRODUCER, none⟩

/-- The entry of an attested append. -/
def attested (kind : String) (payload : Payload) (observedAt : ℤ) (producer key : String)
    (now : ℤ) : Entry :=
  ⟨kind, payload, observedAt, now, producer, some key⟩

end Entry

theorem appendCollectionEvent_eq (file : File) (kind : String) (payload : Payload)
    (observedAt : ℤ) (telemetryKey : Option String) (now : ℤ) :
    appendCollectionEvent file kind payload observedAt telemetryKey now =
      (Entry.audit kind payload observedAt now).append file telemetryKey := rfl

theorem appendAttestedRuntimeEvent_eq (file : File) (kind : String) (payload : Payload)
    (observedAt : ℤ) (producer key : String) (now : ℤ) :
    appendAttestedRuntimeEvent file kind payload observedAt producer key now =
      (Entry.attested kind payload observedAt producer key now).append file (some key) := by
  simp [appendAttestedRuntimeEvent, Entry.append, Entry.attested, Entry.precheck,
    Entry.recordAfter, Entry.finish, bind_assoc]
  rfl

/-! ## 2. Records that stand in their place -/

namespace Entry

/-- What the record of an entry says, wherever it stands. -/
structure Describes (e : Entry) (r : Payload) : Prop where
  schema : r.lookup "schema_version" = some (.str SCHEMA_VERSION)
  classification : r.lookup "classification" = some (.str COLLECTION_CLASSIFICATION)
  recordType : r.lookup "record_type" = some (.str "event")
  recordedAt : r.lookup "recorded_at" = some (.str (iso e.recordedAt))
  observedAt : r.lookup "observed_at" = some (.str (iso e.observedAt))
  kind : r.lookup "kind" = some (.str e.kind)
  producer : r.lookup "producer" = some (.str e.producer)
  payload : r.lookup "payload" = some (.obj e.payload)
  eligible : r.lookup "acceptance_eligible" = some (.bool e.key.isSome)
  attestation : r.lookup "attestation" = e.key.map fun key => .obj
    [("scheme", .str ATTESTATION_SCHEME), ("key_id", .str (keyDigest key)),
      ("sha256", .str (hmac key (attestationMessage r)))]
  hash : r.lookup "record_sha256" = some (.str (recordHash r))

/-- The record of an entry, written after these rows. -/
structure Follows (e : Entry) (rows : List LoadedRow) (r : Payload) : Prop
    extends Describes e r where
  sequence : r.lookup "sequence" = some (.int rows.length)
  place : ∃ header last t, endsOf rows = .ok (header, last) ∧
    (bindingOf r).same (bindingOf header) = true ∧
    r.lookup "previous_sha256" = last.lookup "record_sha256" ∧
    parseTime (last.lookup "recorded_at") = .ok t ∧ t ≤ e.recordedAt

/-- The entry passes the checks that do not depend on where or when it is read. -/
structure Sound (e : Entry) : Prop where
  kind : e.kind ∉ FORBIDDEN_RAW_KINDS
  payload : validateEventPayload e.kind e.payload = .ok ()
  observedAt : e.observedAt ≤ e.recordedAt + MAX_FUTURE_SKEW
  precheck : e.precheck = .ok ()
  keySize : ∀ key ∈ e.key, 32 ≤ key.utf8ByteSize
  producer : e.key = none → e.producer = UNATTESTED_PRODUCER

variable {e : Entry} {rows : List LoadedRow} {r record : Payload} {file : File}
  {telemetryKey : Option String} {now : ℤ}

/-! ## 3. The record an append writes -/

/-- The event record of an entry, at a place. -/
abbrev eventRecordAt (e : Entry) (sequence : ℕ) (previous candidate environment topology : Json) :
    Payload :=
  eventRecord sequence e.recordedAt e.observedAt previous candidate environment topology e.kind
    e.producer e.payload

variable {n : ℕ} {previous candidate environment topology : Json}

omit [PyRuntime] in
/-- Eligibility and attestation leave the other fields alone and describe the entry. -/
theorem describes_of_finish
    (h : e.finish (e.eventRecordAt n previous candidate environment topology) = .ok record) :
    e.Describes (hashed record) ∧ (∀ key ∈ e.key, 32 ≤ key.utf8ByteSize) ∧
      (hashed record).lookup "sequence" = some (.int n) ∧
      (hashed record).lookup "previous_sha256" = some previous ∧
      bindingOf (hashed record) = ⟨some candidate, some environment, some topology⟩ := by
  unfold finish at h
  split at h
  · rename_i hkey
    cases h
    refine ⟨?_, by simp [hkey], rfl, rfl, rfl⟩
    constructor <;> first | rfl | (rw [hkey]; rfl)
  · rename_i key hkey
    simp only [attest, checkAttestationKey, bind_eq_ok_iff, raiseIf_eq_ok_iff, pure_eq_ok,
      Except.ok.injEq, not_lt] at h
    obtain ⟨_, ⟨_, hsize, rfl⟩, rfl⟩ := h
    refine ⟨?_, by simpa [hkey] using hsize, rfl, rfl, rfl⟩
    constructor <;> first | rfl | (rw [hkey]; rfl)

/-- **What an append writes** describes the entry and stands in its place, and the entry is
sound. -/
theorem follows_of_recordAfter (h : e.recordAfter rows = .ok record) (hpre : e.precheck = .ok ())
    (hproducer : e.key = none → e.producer = UNATTESTED_PRODUCER) :
    e.Follows rows (hashed record) ∧ e.Sound := by
  simp only [recordAfter, baseEventRecord, bind_assoc, bind_eq_ok_iff, raiseIf_eq_ok_iff,
    item_eq_ok_iff, not_lt, pure_eq_ok, Except.ok.injEq] at h
  obtain ⟨_, hkind, _, hpayload, _, hobserved, ⟨header, last⟩, hends, v, hv, t, ht, _, hle,
    previous, hprevious, candidate, hcandidate, environment, henvironment, topology, htopology,
    _, rfl, hfinish⟩ := h
  obtain ⟨hdescribes, hsize, hsequence, hat, hbinding⟩ := describes_of_finish hfinish
  have hplace : ∃ header last t, endsOf rows = .ok (header, last) ∧
      (bindingOf (hashed record)).same (bindingOf header) = true ∧
      (hashed record).lookup "previous_sha256" = last.lookup "record_sha256" ∧
      parseTime (last.lookup "recorded_at") = .ok t ∧ t ≤ e.recordedAt := by
    refine ⟨header, last, t, hends, ?_, hat.trans hprevious.symm, by rwa [hv], hle⟩
    rw [hbinding, bindingOf, hcandidate, henvironment, htopology, Binding.same_self]
  exact ⟨{ hdescribes with sequence := hsequence, place := hplace },
    ⟨hkind, hpayload, hobserved, hpre, hsize, hproducer⟩⟩

end Entry

/-! ## 4. Loading a row -/

/-- What the variables of the loop say about the rows it has been through. -/
structure Loading.Of (file : File) (st : Loading) : Prop where
  file : file = (st.rows.map LoadedRow.record).map Line.record
  headerBinding : st.headerBinding = st.rows.head?.map fun row => bindingOf row.record
  last : ∀ row ∈ st.rows.getLast?,
    row.record.lookup "record_sha256" = some (.str st.previousHash) ∧
      ∃ t, parseTime (row.record.lookup "recorded_at") = .ok t ∧ st.previousRecordedAt = some t

variable {st st' : Loading} {line : Line} {row : Payload} {t : ℤ}

theorem checkChain_eq_ok (h : checkChain now st row = .ok t) :
    row.lookup "record_sha256" = some (.str (recordHash row)) ∧
      parseTime (row.lookup "recorded_at") = .ok t := by
  simp only [checkChain, bind_eq_ok_iff, raiseIf_eq_ok_iff, pure_eq_ok, Except.ok.injEq,
    not_not, isText_iff] at h
  obtain ⟨_, -, _, -, _, hhash, t', hparse, _, -, _, -, rfl⟩ := h
  exact ⟨hhash, hparse⟩

/-- A turn of the loop appends the row of its line. -/
theorem loadRow_eq_ok (h : loadRow telemetryKey now st line = .ok st') :
    ∃ row t verified, line = .record row ∧ checkChain now st row = .ok t ∧
      st' = ⟨st.rows ++ [⟨row, verified⟩], field row "record_sha256" "", some t,
        if st.rows = [] then some (bindingOf row) else st.headerBinding⟩ := by
  simp only [loadRow, bind_eq_ok_iff] at h
  obtain ⟨row, hrow, t, hchain, hnext⟩ := h
  have hline : line = .record row := by
    unfold objectOf at hrow
    split at hrow <;> cases hrow
    rfl
  split at hnext
  · rename_i hempty
    simp only [bind_eq_ok_iff, pure_eq_ok, Except.ok.injEq] at hnext
    obtain ⟨_, -, rfl⟩ := hnext
    exact ⟨row, t, false, hline, hchain, by simp [hempty]⟩
  · rename_i hnonempty
    simp only [bind_eq_ok_iff, pure_eq_ok, Except.ok.injEq] at hnext
    obtain ⟨verified, -, rfl⟩ := hnext
    exact ⟨row, t, verified, hline, hchain, by simp [hnonempty]⟩

/-- **The rows of a loaded file** are its lines, and the loop's variables are about them. -/
theorem loading_of_loadRows (h : loadRows telemetryKey now file = .ok st) : st.Of file := by
  refine foldlM_keeps (I := fun lines st => Loading.Of lines st) ?_ ?_ h
  · exact ⟨rfl, rfl, by simp⟩
  · intro lines line st st' hst hline
    obtain ⟨row, t, verified, rfl, hchain, rfl⟩ := loadRow_eq_ok hline
    obtain ⟨hhash, hparse⟩ := checkChain_eq_ok hchain
    refine ⟨by simp [hst.file], ?_, ?_⟩
    · cases hrows : st.rows with
      | nil => simp
      | cons first rest => simp [hst.headerBinding, hrows]
    · simp [field, hhash, hparse, Json.text]

/-! ## 5. Loading the record of an entry -/

namespace Entry

/-- Whether a loader with this key takes the entry, and as attested or not. -/
def provenance (e : Entry) (telemetryKey : Option String) : Except Exc Bool :=
  match e.key, telemetryKey with
  | none, _ => .ok false
  | some _, none => .error (.valueError
      "telemetry attestation key is required to load acceptance-eligible events")
  | some key, some key' => do
    checkAttestationKey key'
    raiseIf (key ≠ key') (.valueError "campaign telemetry attestation verification failed")
    return true

/-- Whether a load with this key and clock takes the entry, and as attested or not. -/
def admitted (e : Entry) (telemetryKey : Option String) (now : ℤ) : Except Exc Bool := do
  raiseIf (now + MAX_FUTURE_SKEW < e.recordedAt)
    (.valueError "campaign collection contains a future record")
  raiseIf (now + MAX_FUTURE_SKEW < e.observedAt)
    (.valueError "campaign collection contains a future observation")
  e.provenance telemetryKey

/-- The loader's key is told from the key of the entry by its digest. -/
def Distinct (e : Entry) (telemetryKey : Option String) : Prop :=
  ∀ key ∈ e.key, ∀ key' ∈ telemetryKey, keyDigest key = keyDigest key' → key = key'

variable {e : Entry} {r : Payload}

omit [PyRuntime] in
theorem verifyAttestation_describes (h : e.Describes r) {key key' : String}
    (hkey : e.key = some key) (hdistinct : keyDigest key = keyDigest key' → key = key') :
    verifyAttestation r key' = do
      checkAttestationKey key'
      return decide (key = key') := by
  unfold verifyAttestation
  rw [h.attestation, hkey]
  by_cases heq : key = key'
  · subst heq
    simp [List.lookup_cons, compareDigest, hmac_ascii]
  · have hne : keyDigest key ≠ keyDigest key' := fun hdigest => heq (hdistinct hdigest)
    simp [List.lookup_cons, heq, hne]

theorem checkProvenance_describes (h : e.Describes r) (hs : e.Sound)
    (hdistinct : e.Distinct telemetryKey) :
    checkProvenance telemetryKey e.recordedAt e.observedAt r = e.provenance telemetryKey := by
  have hproducer : field r "producer" "" = e.producer := by simp [field, h.producer, Json.text]
  have hkind : field r "kind" "" = e.kind := by simp [field, h.kind, Json.text]
  have hpre := hs.precheck
  unfold checkProvenance
  rw [hproducer, hkind, h.eligible, h.attestation]
  cases hkey : e.key with
  | none => simp [isBool, provenance, hkey, hs.producer hkey, raiseIf_false]
  | some key =>
    simp only [precheck, hkey, bind_eq_ok_iff, raiseIf_eq_ok_iff] at hpre
    obtain ⟨_, htrusted, hrealtime⟩ := hpre
    cases telemetryKey with
    | none => simp [isBool, provenance, hkey, raiseIf_false htrusted]
    | some key' =>
      have hverify := verifyAttestation_describes h hkey (hdistinct key hkey key' rfl)
      by_cases heq : key = key'
      · simp [isBool, provenance, hkey, raiseIf_false htrusted, hrealtime, hverify, heq]
      · simp [isBool, provenance, hkey, raiseIf_false htrusted, hrealtime, hverify, heq]

/-- The record of an entry passes what is checked of every row, unless it is of the future. -/
theorem checkChain_follows {st : Loading} (now : ℤ) (h : e.Describes r)
    (hsequence : r.lookup "sequence" = some (.int st.rows.length))
    (hprevious : r.lookup "previous_sha256" = some (.str st.previousHash)) {t : ℤ}
    (ht : st.previousRecordedAt = some t) (hle : t ≤ e.recordedAt) :
    checkChain now st r = do
      raiseIf (now + MAX_FUTURE_SKEW < e.recordedAt)
        (.valueError "campaign collection contains a future record")
      return e.recordedAt := by
  have hnot : ¬ e.recordedAt < t := not_lt.mpr hle
  simp [checkChain, h.schema, h.classification, hsequence, hprevious, h.hash, h.recordedAt, ht,
    parseTime, fromisoformat_iso, Json.text, raiseIf_false, hnot]

theorem checkEvent_follows {binding : Option Binding} {header : Payload} (now : ℤ)
    (h : e.Describes r) (hs : e.Sound) (hheader : binding = some (bindingOf header))
    (hbinding : (bindingOf r).same (bindingOf header) = true)
    (hdistinct : e.Distinct telemetryKey) :
    checkEvent telemetryKey now binding e.recordedAt r =
      raiseIf (now + MAX_FUTURE_SKEW < e.observedAt)
        (.valueError "campaign collection contains a future observation") >>= fun _ =>
      e.provenance telemetryKey := by
  have hkind : field r "kind" "" = e.kind := by simp [field, h.kind, Json.text]
  have hknown : e.kind ∈ EVENT_KINDS := kind_mem_of_validate hs.payload
  simp [checkEvent, h.recordType, hheader, hbinding, hkind, hknown, hs.kind, payloadOf, h.payload,
    hs.payload, h.observedAt, parseTime, fromisoformat_iso, Json.text, raiseIf_false,
    checkProvenance_describes h hs hdistinct]

end Entry

omit [PyRuntime] [CollectionEncoding] in
theorem endsOf_eq (rows : List LoadedRow) :
    endsOf rows =
      match (rows.map LoadedRow.record).head?, (rows.map LoadedRow.record).getLast? with
      | some header, some last => .ok (header, last)
      | _, _ => .error (.other "IndexError") := by
  unfold endsOf
  cases hhead : rows.head? <;> cases hlast : rows.getLast? <;> simp [hhead, hlast]

omit [PyRuntime] [CollectionEncoding] in
theorem endsOf_congr {rows rows' : List LoadedRow}
    (h : rows.map LoadedRow.record = rows'.map LoadedRow.record) : endsOf rows = endsOf rows' := by
  rw [endsOf_eq, h, ← endsOf_eq]

/-- The variables of the loop, once it has been through a row. -/
theorem Loading.Of.ends {file : File} {st : Loading} {header last : Payload} (hst : st.Of file)
    (h : endsOf st.rows = .ok (header, last)) :
    st.rows ≠ [] ∧ st.headerBinding = some (bindingOf header) ∧
      last.lookup "record_sha256" = some (.str st.previousHash) ∧
      ∃ t, parseTime (last.lookup "recorded_at") = .ok t ∧ st.previousRecordedAt = some t := by
  unfold endsOf at h
  split at h
  · rename_i first final hfirst hfinal
    cases h
    obtain ⟨hhash, htime⟩ := hst.last final hfinal
    refine ⟨fun hnil => by simp [hnil] at hfirst, ?_, hhash, htime⟩
    rw [hst.headerBinding, hfirst]
    rfl
  · cases h

/-- A row has been loaded once there is a binding. -/
theorem Loading.Of.endsOf_eq_ok {file : File} {st : Loading} {binding : Binding}
    (hst : st.Of file) (h : st.headerBinding = some binding) :
    ∃ header last, endsOf st.rows = .ok (header, last) := by
  rw [hst.headerBinding] at h
  cases hrows : st.rows with
  | nil => simp [hrows] at h
  | cons first rest =>
    unfold endsOf
    rw [List.head?_cons, List.getLast?_eq_some_getLast (List.cons_ne_nil first rest)]
    exact ⟨_, _, rfl⟩

/-- **A record in its place** is loaded if its entry is admitted, whatever its place is. -/
theorem loadRow_follows {e : Entry} {r : Payload} {file : File} {st : Loading}
    {rows : List LoadedRow} (hst : st.Of file)
    (hrows : rows.map LoadedRow.record = st.rows.map LoadedRow.record) (h : e.Follows rows r)
    (hs : e.Sound) (hdistinct : e.Distinct telemetryKey) :
    loadRow telemetryKey now st (.record r) = e.admitted telemetryKey now >>= fun verified =>
      .ok ⟨st.rows ++ [⟨r, verified⟩], recordHash r, some e.recordedAt, st.headerBinding⟩ := by
  obtain ⟨header, last, t, hends, hbinding, hprevious, ht, hle⟩ := h.place
  rw [endsOf_congr hrows] at hends
  obtain ⟨hne, hheader, hhash, t', ht', hlast⟩ := hst.ends hends
  obtain rfl : t = t' := by simpa [ht] using ht'
  have hlength : rows.length = st.rows.length := by simpa using congrArg List.length hrows
  have hsequence := h.sequence
  rw [hlength] at hsequence
  rw [hhash] at hprevious
  have hchain := Entry.checkChain_follows now h.toDescribes hsequence hprevious hlast hle
  have hevent := Entry.checkEvent_follows now h.toDescribes hs hheader hbinding hdistinct
  have hfield : field r "record_sha256" "" = recordHash r := by simp [field, h.hash, Json.text]
  simp only [loadRow, objectOf, ok_bind, hchain, hne, if_false, hevent, hfield, bind_assoc,
    pure_eq_ok, Entry.admitted]

end Kripto.Campaign
