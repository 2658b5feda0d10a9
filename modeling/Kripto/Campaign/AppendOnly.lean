/-
# Attested telemetry in a file that someone else has written

An attestation covers an event and its place in the sequence.  It covers neither the hash of the
record before it nor the other records, which need no key.  So with the attestations of a
collection and without the key another file can be written that loads: its attested events are
events of the collection in their places, but some may have given way to audit records.

* `attested_in_place`: what the attested events of such a file are, and when they are the first
  ones of the collection.
* `attested_dropped`: a file that has lost the first of two attested events and kept the second.
-/
import Kripto.Campaign.Canonical
import Kripto.Campaign.Growth
import Kripto.Campaign.Operations
import Kripto.Effect.Places

namespace Kripto.Campaign

open Effect CollectionEncoding Entry

/-! ## 1. Attested events -/

/-- The attested event of a line, with the keys of its payload in order. -/
def telemetryEvent : Line → Option AttestedEvent
  | .json (.obj row) =>
    if isText (row.lookup "record_type") "event" ∧
        isBool (row.lookup "acceptance_eligible") true then
      some ⟨(row.lookup "kind").map Json.sorted, (row.lookup "producer").map Json.sorted,
        (row.lookup "observed_at").map Json.sorted, (row.lookup "payload").map Json.sorted⟩
    else none
  | _ => none

/-- The attested events of a file, in their order. -/
def telemetry (file : File) : List AttestedEvent := file.filterMap telemetryEvent

section Loaded

variable [PyRuntime] [CollectionEncoding]

/-- A collection that the collector has written, with this key. -/
inductive Built (key : String) : File → Prop
  | initialized {candidate environment topology : String} {now : ℤ} {file : File}
      (h : initializeCollection candidate environment topology now = .ok file) : Built key file
  | attested {file left : File} {kind : String} {payload record : Payload} {observedAt now : ℤ}
      {producer : String} (hfile : Built key file)
      (h : appendAttestedRuntimeEvent file kind payload observedAt producer key now =
        (.ok record, left)) : Built key left
  | audit {file left : File} {kind : String} {payload record : Payload} {observedAt now : ℤ}
      {telemetryKey : Option String} (hfile : Built key file)
      (h : appendCollectionEvent file kind payload observedAt telemetryKey now =
        (.ok record, left)) : Built key left

/-- Every acceptance-eligible record of `file'` carries an attestation that occurs in `file`. -/
def Borrowed (file file' : File) : Prop :=
  ∀ row, Line.record row ∈ file' → isBool (row.lookup "acceptance_eligible") true = true →
    ∃ row₀, Line.record row₀ ∈ file ∧ row₀.lookup "attestation" = row.lookup "attestation"

/-- The digests of attested records of these files tell their messages apart. -/
def Unforged (key : String) (file file' : File) : Prop :=
  ∀ row₀ row, Line.record row₀ ∈ file → Line.record row ∈ file' →
    isBool (row₀.lookup "acceptance_eligible") true = true →
    isBool (row.lookup "acceptance_eligible") true = true →
    hmac key (attestationMessage row₀) = hmac key (attestationMessage row) →
    sortedFields (attestationMessage row₀) = sortedFields (attestationMessage row)

/-! ## 2. What the collector writes -/

/-- A record at its place: it is not attested, or it is the record of an attested entry. -/
def Honest (key : String) (n : ℕ) (row : Payload) : Prop :=
  row.lookup "attestation" = none ∨
    ∃ e : Entry, e.key = some key ∧ e.Describes row ∧ row.lookup "sequence" = some (.int n)

variable {key : String} {file file' left : File} {e : Entry} {r row : Payload}

theorem honest_append {telemetryKey : Option String}
    (hfile : ∀ n line, file[n]? = some line → ∃ row, line = .record row ∧ Honest key n row)
    (hproducer : e.key = none → e.producer = UNATTESTED_PRODUCER)
    (hkey : ∀ key' ∈ e.key, key' = key) (h : e.append file telemetryKey = (.ok r, left)) :
    ∀ n line, left[n]? = some line → ∃ row, line = .record row ∧ Honest key n row := by
  obtain ⟨⟨-, _, rows, hload, hfollows⟩, rfl⟩ := append_extends hproducer h
  obtain ⟨st, hst, rfl⟩ := loadCollection_eq_ok hload
  have hlength : st.rows.length = file.length := by
    simpa using (congrArg List.length (loading_of_loadRows hst).file).symm
  intro n line hn
  rw [List.getElem?_append] at hn
  split at hn
  · exact hfile n line hn
  · rename_i hlt
    obtain ⟨hn, rfl⟩ : n - file.length = 0 ∧ line = .record r := by
      cases hsub : n - file.length with
      | zero => rw [hsub] at hn; exact ⟨rfl, (Option.some.inj hn).symm⟩
      | succ m => rw [hsub] at hn; simp at hn
    refine ⟨r, rfl, ?_⟩
    cases hk : e.key with
    | none => exact .inl (by rw [hfollows.attestation, hk]; rfl)
    | some key' =>
      refine .inr ⟨e, by rw [hk, hkey key' hk], hfollows.toDescribes, ?_⟩
      rw [hfollows.sequence, hlength, show n = file.length by omega]

theorem honest_of_built (h : Built key file) :
    ∀ n line, file[n]? = some line → ∃ row, line = .record row ∧ Honest key n row := by
  induction h with
  | initialized h =>
    simp only [initializeCollection, bind_eq_ok_iff, pure_eq_ok, Except.ok.injEq] at h
    obtain ⟨candidate, -, environment, -, topology, -, rfl⟩ := h
    intro n line hn
    cases n with
    | zero => exact ⟨_, (Option.some.inj hn).symm, .inl rfl⟩
    | succ n => simp at hn
  | attested hfile h ih =>
    rw [appendAttestedRuntimeEvent_eq] at h
    exact honest_append ih (by simp [Entry.attested]) (by simp [Entry.attested]) h
  | audit hfile h ih =>
    rw [appendCollectionEvent_eq] at h
    exact honest_append ih (fun _ => rfl) (by simp [Entry.audit]) h

/-! ## 3. What a loader makes of a record -/

omit [CollectionEncoding] [PyRuntime] in
theorem lookup_attestationMessage (row : Payload) {name : String} (h : name ∈ ATTESTED_FIELDS) :
    (attestationMessage row).lookup name = some ((row.lookup name).getD .null) := by
  have hlookup : ∀ names : List String, name ∈ names →
      (names.map fun name => (name, (row.lookup name).getD Json.null)).lookup name =
        some ((row.lookup name).getD .null) := by
    intro names hmem
    induction names with
    | nil => exact absurd hmem List.not_mem_nil
    | cons other rest ih =>
      rw [List.map_cons, List.lookup_cons]
      by_cases hname : name = other
      · simp [hname]
      · have hbeq : (name == other) = false := beq_false_of_ne hname
        rw [hbeq]
        exact ih ((List.mem_cons.mp hmem).resolve_left hname)
  exact hlookup _ h

omit [CollectionEncoding] [PyRuntime] in
/-- Messages that are the same have the same fields. -/
theorem attested_field {row₀ : Payload}
    (h : sortedFields (attestationMessage row₀) = sortedFields (attestationMessage row))
    {name : String} (hname : name ∈ ATTESTED_FIELDS) {v : Json}
    (hv : row₀.lookup name = some v) (hnull : v.sorted ≠ .null) :
    (row.lookup name).map Json.sorted = some v.sorted := by
  have hkeys : ∀ row : Payload, ((attestationMessage row).map Prod.fst).Nodup := fun row => by
    have hfields : (attestationMessage row).map Prod.fst = ATTESTED_FIELDS := rfl
    rw [hfields]
    decide
  have hsame := congrArg (fun fields => fields.lookup name) h
  simp only [lookup_sortedFields (hkeys _), lookup_attestationMessage _ hname, hv] at hsame
  cases hrow : row.lookup name with
  | some w => simpa [hrow] using hsame.symm
  | none =>
    have hno : v.sorted = Json.null.sorted := by simpa [hrow] using hsame
    rw [hno] at hnull
    simp [Json.sorted] at hnull

/-- A line of a file that loads has passed the loop at its place. -/
theorem loadRow_at {telemetryKey : Option String} {now : ℤ} {st : Loading} {n : ℕ}
    (h : loadRows telemetryKey now file = .ok st) (hn : file[n]? = some (.record row)) :
    ∃ before after, before.rows.length = n ∧
      loadRow telemetryKey now before (.record row) = .ok after := by
  obtain ⟨hlt, hget⟩ := List.getElem?_eq_some_iff.mp hn
  have hsplit : file.take n ++ (.record row :: file.drop (n + 1)) = file := by
    rw [← hget, ← List.drop_eq_getElem_cons hlt, List.take_append_drop]
  rw [← hsplit, loadRows, List.foldlM_append, bind_eq_ok_iff] at h
  obtain ⟨before, hbefore, hrest⟩ := h
  rw [List.foldlM_cons, bind_eq_ok_iff] at hrest
  obtain ⟨after, hafter, -⟩ := hrest
  have hlength := congrArg List.length (loading_of_loadRows hbefore).file
  refine ⟨before, after, ?_, hafter⟩
  simpa [hlt.le] using hlength.symm

omit [PyRuntime] in
/-- A verified attestation has the digest of the record's message. -/
theorem sha256_of_verified (h : verifyAttestation row key = .ok true) :
    ∃ attestation, row.lookup "attestation" = some (.obj attestation) ∧
      attestation.lookup "sha256" = some (.str (hmac key (attestationMessage row))) := by
  unfold verifyAttestation at h
  split at h
  · rename_i attestation hattestation
    refine ⟨attestation, hattestation, ?_⟩
    split at h
    · simp at h
    · rw [bind_eq_ok_iff] at h
      obtain ⟨_, -, h⟩ := h
      split at h
      · simp at h
      · split at h
        · rename_i sha256 hsha256
          unfold compareDigest at h
          split at h
          · rw [Except.ok.injEq, beq_iff_eq] at h
            rw [hsha256, h]
          · cases h
        · simp at h
  · simp at h

/-- **An eligible event that is loaded** has its place as its sequence number, and an attestation
of its message. -/
theorem verified_at {now : ℤ} {rows : List LoadedRow} {n : ℕ}
    (h : loadCollection file (some key) now = .ok rows) (hn : file[n]? = some (.record row))
    (hevent : isText (row.lookup "record_type") "event" = true)
    (heligible : isBool (row.lookup "acceptance_eligible") true = true) :
    sameValue (row.lookup "sequence") (some (.int n)) = true ∧
      verifyAttestation row key = .ok true := by
  obtain ⟨st, hst, -⟩ := loadCollection_eq_ok h
  obtain ⟨before, after, rfl, hrow⟩ := loadRow_at hst hn
  simp only [loadRow, objectOf, ok_bind, bind_eq_ok_iff] at hrow
  obtain ⟨t, hchain, hnext⟩ := hrow
  simp only [checkChain, bind_eq_ok_iff, raiseIf_eq_ok_iff, not_or, not_not] at hchain
  obtain ⟨_, -, _, ⟨hsequence, -⟩, -⟩ := hchain
  refine ⟨hsequence, ?_⟩
  split at hnext
  · simp only [checkHeader, bind_eq_ok_iff, raiseIf_eq_ok_iff, not_or, not_not] at hnext
    obtain ⟨_, ⟨_, ⟨hheader, -⟩, -⟩, -⟩ := hnext
    rw [isText_iff] at hheader hevent
    rw [hevent] at hheader
    simp at hheader
  · simp only [bind_eq_ok_iff] at hnext
    obtain ⟨verified, hcheck, -⟩ := hnext
    simp only [checkEvent, checkProvenance, heligible, bind_eq_ok_iff, if_true] at hcheck
    obtain ⟨_, -, _, -, _, -, _, -, _, -, _, -, _, -, verified, hverify, _, hverified, -⟩ := hcheck
    rw [raiseIf_eq_ok_iff, Bool.not_eq_false] at hverified
    rw [hverify, hverified]

/-! ## 4. Events in their places -/

omit [CollectionEncoding] in
theorem eq_of_sameValue_int {v : Option Json} {m n : ℕ}
    (hsorted : v.map Json.sorted = some (.int m)) (h : sameValue v (some (.int n)) = true) :
    m = n := by
  cases v with
  | none => simp at hsorted
  | some v =>
    rw [Option.map_some, Option.some.injEq] at hsorted
    have hv : v = .int m := by
      cases v <;> simp [Json.sorted] at hsorted ⊢
      exact hsorted
    rw [hv] at h
    have heq : n = m := by
      simpa [sameValue, Json.eqv, Json.eqv.numbersEqv, Json.number] using h
    exact heq.symm

omit [PyRuntime] [CollectionEncoding] in
theorem telemetryEvent_eq_some {line : Line} {event : AttestedEvent}
    (h : telemetryEvent line = some event) :
    ∃ row, line = .record row ∧ isText (row.lookup "record_type") "event" = true ∧
      isBool (row.lookup "acceptance_eligible") true = true ∧
      event = ⟨(row.lookup "kind").map Json.sorted, (row.lookup "producer").map Json.sorted,
        (row.lookup "observed_at").map Json.sorted, (row.lookup "payload").map Json.sorted⟩ := by
  unfold telemetryEvent at h
  split at h
  · rename_i row
    split at h
    · rename_i hevent
      exact ⟨row, rfl, hevent.1, hevent.2, (Option.some.inj h).symm⟩
    · cases h
  · cases h

omit [PyRuntime] in
/-- The record of an attested entry is an attested event. -/
theorem telemetryEvent_describes (h : e.Describes row) (hkey : e.key = some key) :
    telemetryEvent (.record row) = some ⟨some (.str e.kind), some (.str e.producer),
      some (.str (iso e.observedAt)), some (Json.obj e.payload).sorted⟩ := by
  have heligible : row.lookup "acceptance_eligible" = some (.bool true) := by
    rw [h.eligible, hkey]
    rfl
  simp [telemetryEvent, h.recordType, heligible, isText, isBool, h.kind, h.producer, h.observedAt,
    h.payload]

/-- **The attested events** of a file with borrowed attestations are in their places. -/
theorem keeps_of_borrowed {now : ℤ} {rows : List LoadedRow} (hbuilt : Built key file)
    (hload : loadCollection file' (some key) now = .ok rows) (hborrowed : Borrowed file file')
    (hunforged : Unforged key file file') : Keeps telemetryEvent file' file := by
  intro n event hn
  obtain ⟨line, hline, hevent⟩ := Option.bind_eq_some_iff.mp hn
  obtain ⟨row, rfl, htype, heligible, rfl⟩ := telemetryEvent_eq_some hevent
  have hmem' := List.mem_of_getElem? hline
  obtain ⟨hsequence, hverify⟩ := verified_at hload hline htype heligible
  obtain ⟨attestation, hattestation, hsha256⟩ := sha256_of_verified hverify
  obtain ⟨row₀, hmem, hsame⟩ := hborrowed row hmem' heligible
  obtain ⟨m, hm⟩ := List.getElem?_of_mem hmem
  obtain ⟨row₁, hrow₁, hhonest⟩ := honest_of_built hbuilt m _ hm
  obtain rfl : row₀ = row₁ := by simpa using hrow₁
  rcases hhonest with hnone | ⟨e, hkey, hdescribes, hplace⟩
  · rw [hnone, hattestation] at hsame
    cases hsame
  · have heligible₀ : isBool (row₀.lookup "acceptance_eligible") true = true := by
      rw [hdescribes.eligible, hkey]
      rfl
    have hdigest : hmac key (attestationMessage row₀) = hmac key (attestationMessage row) := by
      rw [hattestation, hdescribes.attestation, hkey, Option.map_some, Option.some.injEq,
        Json.obj.injEq] at hsame
      rw [← hsame] at hsha256
      simpa [List.lookup_cons] using hsha256
    have hmessage := hunforged row₀ row hmem hmem' heligible₀ heligible hdigest
    -- the place is part of the message
    have hat := attested_field hmessage (by decide) hplace (by simp)
    rw [Json.sorted_int] at hat
    obtain rfl : m = n := eq_of_sameValue_int hat hsequence
    have hkind := attested_field hmessage (by decide) hdescribes.kind (by simp)
    have hproducer := attested_field hmessage (by decide) hdescribes.producer (by simp)
    have hobserved := attested_field hmessage (by decide) hdescribes.observedAt (by simp)
    have hpayload := attested_field hmessage (by decide) hdescribes.payload (by simp)
    rw [entryAt, hm, Option.bind_some, telemetryEvent_describes hdescribes hkey, hkind, hproducer,
      hobserved, hpayload]
    simp

/-- **Attested telemetry keeps its places.**  Whoever has the attestations but not the key can
leave events out, and nothing else.  What is left is the first events just when none is left out
before one that is kept; where an event is repeated, what was left out need not show. -/
theorem attested_in_place {now : ℤ} {rows : List LoadedRow} (hbuilt : Built key file)
    (hload : loadCollection file' (some key) now = .ok rows) (hborrowed : Borrowed file file')
    (hunforged : Unforged key file file') :
    Keeps telemetryEvent file' file ∧
      (Gapless telemetryEvent file' file → telemetry file' <+: telemetry file) ∧
      ((telemetry file).Nodup → telemetry file' <+: telemetry file →
        Gapless telemetryEvent file' file) := by
  have hkeeps := keeps_of_borrowed hbuilt hload hborrowed hunforged
  exact ⟨hkeeps, hkeeps.prefix_of, hkeeps.gapless_of⟩

end Loaded

/-! ## 5. An event that is left out -/

section Example

/-- A digest that tells the records below apart, by what they and the record before are. -/
def chainDigest (row : Payload) : String :=
  let producer := if isText (row.lookup "producer") UNATTESTED_PRODUCER then ['u'] else []
  let previous := match row.lookup "previous_sha256" with
    | some (.str text) => if text = ZERO_HASH then [] else text.toList
    | _ => []
  String.ofList ((sequenceDigest row).toList ++ producer ++ previous.filter fun c => c.toNat < 128)

theorem isAscii_chainDigest (row : Payload) : isAscii (chainDigest row) := by
  intro c hc
  simp only [chainDigest, String.toList_ofList, List.mem_append, List.mem_filter,
    decide_eq_true_eq] at hc
  rcases hc with (hc | hc) | ⟨-, hc⟩
  · exact isAscii_sequenceDigest row c hc
  · split at hc
    · rw [List.mem_singleton.mp hc]
      decide
    · cases hc
  · exact hc

@[reducible] def chainEncoding : CollectionEncoding :=
  { strokeEncoding with
    recordDigest := chainDigest
    hmac := fun _ => chainDigest
    hmac_ascii := fun _ => isAscii_chainDigest }

attribute [local instance] plainRuntime chainEncoding

def collectorKey : String := "0123456789012345678901234567890123456789"

def collectionTopology : String :=
  "0123456789012345678901234567890123456789012345678901234567890123"

def openedRecord : Payload :=
  headerRecord collectorKey collectionTopology collectionTopology 0

/-- The record that a call has written. -/
def written : Except Exc Payload → Payload
  | .ok record => record
  | .error _ => []

/-- A reconnect, attested. -/
def reconnectRecord : Payload :=
  written (appendAttestedRuntimeEvent [.record openedRecord] "private_reconnect" [] 1
    "PROTECTED_PRIVATE_STREAM_RUNTIME" collectorKey 1).1

/-- An event after it. -/
def privateEventRecord : Payload :=
  written (appendAttestedRuntimeEvent [.record openedRecord, .record reconnectRecord]
    "private_event" [] 2 "PROTECTED_PRIVATE_STREAM_RUNTIME" collectorKey 2).1

def twoEventFile : File :=
  [.record openedRecord, .record reconnectRecord, .record privateEventRecord]

/-- An audit record in the place of the reconnect. -/
def auditRecord : Payload :=
  written (appendCollectionEvent [.record openedRecord] "private_event" [] 1 none 1).1

/-- A record behind another one: the hash chain is made anew. -/
def chained (previous row : Payload) : Payload :=
  hashed (("previous_sha256", (previous.lookup "record_sha256").getD .null) ::
    row.filter fun field => field.1 ≠ "previous_sha256" ∧ field.1 ≠ "record_sha256")

/-- The event, behind the audit record. -/
def droppedFile : File :=
  [.record openedRecord, .record auditRecord, .record (chained auditRecord privateEventRecord)]

theorem persistEvent_written {file : File} {event : Except Exc Payload}
    (h : (persistEvent file event).1.isOk = true) : persistEvent file event =
      (.ok (written (persistEvent file event).1),
        file ++ [.record (written (persistEvent file event).1)]) := by
  cases event with
  | ok record => rfl
  | error e => cases h

theorem built_append {key : String} {file : File} {kind : String} {payload : Payload}
    {observedAt now : ℤ} {producer : String} (hfile : Built key file)
    (h : (appendAttestedRuntimeEvent file kind payload observedAt producer key now).1.isOk = true) :
    Built key (file ++ [.record
      (written (appendAttestedRuntimeEvent file kind payload observedAt producer key now).1)]) :=
  .attested hfile (persistEvent_written h)

/-- The kind of the first attested event. -/
def firstKind (file : File) : Option String :=
  (telemetry file).head?.bind fun event =>
    match event.kind with
    | some (.str kind) => some kind
    | _ => none

/-- What the runs come to. -/
theorem records_run :
    (appendAttestedRuntimeEvent [.record openedRecord] "private_reconnect" [] 1
      "PROTECTED_PRIVATE_STREAM_RUNTIME" collectorKey 1).1.isOk = true ∧
    (appendAttestedRuntimeEvent [.record openedRecord, .record reconnectRecord] "private_event" []
      2 "PROTECTED_PRIVATE_STREAM_RUNTIME" collectorKey 2).1.isOk = true ∧
    isBool (auditRecord.lookup "acceptance_eligible") true = false ∧
    hmac collectorKey (attestationMessage reconnectRecord) ≠
      hmac collectorKey (attestationMessage privateEventRecord) ∧
    (loadCollection droppedFile (some collectorKey) 2).isOk = true ∧
    firstKind droppedFile = some "private_event" ∧
    firstKind twoEventFile = some "private_reconnect" := by
  decide +kernel

theorem built_twoEventFile : Built collectorKey twoEventFile := by
  have hfile : initializeCollection collectorKey collectionTopology collectionTopology 0 =
      .ok [.record openedRecord] := rfl
  obtain ⟨hreconnect, hevent, -⟩ := records_run
  exact built_append (built_append (.initialized hfile) hreconnect) hevent

/-- A field outside the hash chain is kept. -/
theorem lookup_chained {previous row : Payload} {name : String}
    (hprevious : name ≠ "previous_sha256") (hhash : name ≠ "record_sha256") :
    (chained previous row).lookup name = row.lookup name := by
  have hfilter : (row.filter fun field =>
      field.1 ≠ "previous_sha256" ∧ field.1 ≠ "record_sha256").lookup name = row.lookup name := by
    induction row with
    | nil => rfl
    | cons field row ih =>
      obtain ⟨other, v⟩ := field
      by_cases hname : name = other
      · subst hname
        rw [List.filter_cons_of_pos (by simp [hprevious, hhash]), List.lookup_cons,
          List.lookup_cons]
        simp
      · rw [List.filter_cons, List.lookup_cons, beq_false_of_ne hname]
        split
        · rw [List.lookup_cons, beq_false_of_ne hname]
          exact ih
        · exact ih
  have hlast : ∀ v : Json, [("record_sha256", v)].lookup name = none := fun v => by
    rw [List.lookup_cons, beq_false_of_ne hhash]
    rfl
  rw [chained, hashed, List.lookup_append, hlast, Option.or_none, List.lookup_cons,
    beq_false_of_ne hprevious]
  exact hfilter

theorem attestationMessage_chained (previous row : Payload) :
    attestationMessage (chained previous row) = attestationMessage row := by
  refine List.map_congr_left fun name hname => ?_
  rw [lookup_chained]
  · rintro rfl
    revert hname
    decide
  · rintro rfl
    revert hname
    decide

theorem openedRecord_ineligible :
    isBool (openedRecord.lookup "acceptance_eligible") true = false := rfl

/-- The only attested record there is the event. -/
theorem eligible_droppedFile {row : Payload} (h : Line.record row ∈ droppedFile)
    (heligible : isBool (row.lookup "acceptance_eligible") true = true) :
    row = chained auditRecord privateEventRecord := by
  obtain ⟨-, -, haudit, -⟩ := records_run
  simp only [droppedFile, List.mem_cons, List.not_mem_nil, or_false, Line.json.injEq,
    Json.obj.injEq] at h
  rcases h with h | h | h
  · rw [h, openedRecord_ineligible] at heligible
    cases heligible
  · rw [h, haudit] at heligible
    cases heligible
  · exact h

theorem borrowed_droppedFile : Borrowed twoEventFile droppedFile := by
  intro row hrow heligible
  rw [eligible_droppedFile hrow heligible]
  exact ⟨privateEventRecord, by simp [twoEventFile], (lookup_chained (by decide) (by decide)).symm⟩

theorem unforged_droppedFile : Unforged collectorKey twoEventFile droppedFile := by
  intro row₀ row hrow₀ hrow heligible₀ heligible hsame
  rw [eligible_droppedFile hrow heligible, attestationMessage_chained] at hsame ⊢
  obtain ⟨-, -, -, hdigests, -⟩ := records_run
  simp only [twoEventFile, List.mem_cons, List.not_mem_nil, or_false, Line.json.injEq,
    Json.obj.injEq] at hrow₀
  rcases hrow₀ with h | h | h
  · rw [h, openedRecord_ineligible] at heligible₀
    cases heligible₀
  · rw [h] at hsame
    exact absurd hsame hdigests
  · rw [h]

theorem load_droppedFile :
    ∃ rows, loadCollection droppedFile (some collectorKey) 2 = .ok rows := by
  rw [← isOk_iff]
  exact records_run.2.2.2.2.1

/-- **An attested event can be left out**: the file is borrowed from the collection and loads,
and has the second of its events only. -/
theorem attested_dropped :
    Built collectorKey twoEventFile ∧ droppedFile.head? = twoEventFile.head? ∧
      (∃ rows, loadCollection droppedFile (some collectorKey) 2 = .ok rows) ∧
      Borrowed twoEventFile droppedFile ∧ Unforged collectorKey twoEventFile droppedFile ∧
      ¬ telemetry droppedFile <+: telemetry twoEventFile := by
  have hheader : droppedFile.head? = twoEventFile.head? := by
    simp only [droppedFile, twoEventFile, List.head?_cons]
  refine ⟨built_twoEventFile, hheader, load_droppedFile, borrowed_droppedFile,
    unforged_droppedFile, fun hinitial => ?_⟩
  obtain ⟨-, -, -, -, -, hdropped, hkept⟩ := records_run
  obtain ⟨rest, hrest⟩ := hinitial
  rw [firstKind, ← hrest] at hkept
  cases hevents : telemetry droppedFile with
  | nil =>
    rw [firstKind, hevents] at hdropped
    cases hdropped
  | cons event events =>
    rw [firstKind, hevents] at hdropped
    rw [hevents, List.cons_append, List.head?_cons] at hkept
    rw [List.head?_cons, hkept] at hdropped
    revert hdropped
    decide

theorem attested_in_place_dropped :
    Keeps telemetryEvent droppedFile twoEventFile ∧
      (Gapless telemetryEvent droppedFile twoEventFile →
        telemetry droppedFile <+: telemetry twoEventFile) ∧
      ((telemetry twoEventFile).Nodup → telemetry droppedFile <+: telemetry twoEventFile →
        Gapless telemetryEvent droppedFile twoEventFile) := by
  obtain ⟨rows, hload⟩ := load_droppedFile
  exact attested_in_place built_twoEventFile hload borrowed_droppedFile unforged_droppedFile

end Example

end Kripto.Campaign
