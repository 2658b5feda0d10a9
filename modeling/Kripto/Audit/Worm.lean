/-
# WORM audit export

`audit/worm.py`: records of critical actions, each signed together with the signature before it,
and their export as one JSON text a line.

What is signed is written with `default=str`, what is exported is not, and what is parsed from a
line is signed as it was parsed.

* `round_trip_iff`: an export can be made and verified again exactly if every payload reads back as
  the value that was signed, HMAC collisions apart.
* `time_not_exported`: a payload with a time in it.
-/
import Kripto.Python.Text
import Kripto.Python.Lines
import Kripto.Python.Reload

namespace Kripto.Audit.Worm

open Effect Python

/-! ## 1. Records -/

/-- `hmac`; a hexdigest is ASCII. -/
class Hmac where
  /-- `hmac.new(key, raw.encode(), hashlib.sha256).hexdigest()` -/
  hexdigest : Bytes → String → Text
  ascii : ∀ key raw, ∀ c ∈ hexdigest key raw, c.ord < 0x80

inductive Exc
  | valueError (msg : String)
  | typeError
  | dump (e : DumpError)
  deriving DecidableEq

def CRITICAL_ACTIONS : List Text :=
  ["LIVE_MODE_CHANGE", "RISK_LIMIT_CHANGE", "API_CREDENTIAL_METADATA_CHANGE", "ORDER_INTENT",
    "ORDER_FILL_RECONCILIATION", "MANUAL_EXTERNAL_ACTIVITY_ACCEPTANCE", "PANIC_CLOSE",
    "STRATEGY_PROMOTION", "DEPLOYMENT_RELEASE"].map Text.of

structure WormAuditRecord where
  sequence : ℤ
  action : Text
  payload : Dict
  previousHash : Text
  recordHash : Text

/-- What is signed. -/
def raw (sequence : ℤ) (action : Text) (payload : Dict) (previousHash : Text) :
    Except DumpError String :=
  (PyValue.dict [(.str (Text.of "sequence"), .int sequence), (.str (Text.of "action"), .str action),
    (.str (Text.of "payload"), .dict payload),
    (.str (Text.of "previous_hash"), .str previousHash)]).bytes { defaultStr := true }

namespace WormAuditRecord

/-- What is signed of a record. -/
def raw (r : WormAuditRecord) : Except DumpError String :=
  Worm.raw r.sequence r.action r.payload r.previousHash

/-- `json.dumps(r.__dict__, sort_keys=True, separators=(",", ":"))`. -/
def line (r : WormAuditRecord) : Except DumpError Text :=
  (PyValue.dict [(.str (Text.of "sequence"), .int r.sequence),
    (.str (Text.of "action"), .str r.action), (.str (Text.of "payload"), .dict r.payload),
    (.str (Text.of "previous_hash"), .str r.previousHash),
    (.str (Text.of "record_hash"), .str r.recordHash)]).dumps {}

end WormAuditRecord

/-- `hmac.compare_digest` of texts. -/
def compareDigest (a b : Text) : Except Exc Bool :=
  if (∀ c ∈ a, c.ord < 0x80) ∧ ∀ c ∈ b, c.ord < 0x80 then .ok (a == b) else .error .typeError

def dumpLines : List WormAuditRecord → Except DumpError (List Text)
  | [] => .ok []
  | r :: rest => return (← r.line) :: (← dumpLines rest)

/-! ## 2. The exporter -/

/-- The key is long enough; `__init__` asks for it. -/
structure WormAuditExporter where
  key : Bytes
  long : 32 ≤ key.length

/-- What the first record follows. -/
def GENESIS : Text := Text.of "GENESIS"

namespace WormAuditExporter

section

variable [Hmac] (self : WormAuditExporter)

/-- The record and the records with it. -/
def append (records : List WormAuditRecord) (action : Text) (payload : Dict) :
    Except Exc (WormAuditRecord × List WormAuditRecord) :=
  if action ∉ CRITICAL_ACTIONS then .error (.valueError "unsupported critical audit action")
  else
    let prev := (records.getLast?.map (·.recordHash)).getD GENESIS
    let seq : ℤ := records.length + 1
    match raw seq action payload prev with
    | .error e => .error (.dump e)
    | .ok raw =>
      let rec_ : WormAuditRecord := ⟨seq, action, payload, prev, Hmac.hexdigest self.key raw⟩
      .ok (rec_, records ++ [rec_])

/-- The loop of `verify`, from the `i`-th record on. -/
def verifyFrom : Text → ℤ → List WormAuditRecord → Except Exc Bool
  | _, _, [] => .ok true
  | prev, i, r :: rest =>
    if r.sequence ≠ i ∨ r.previousHash ≠ prev ∨ r.action ∉ CRITICAL_ACTIONS then .ok false
    else match r.raw with
      | .error e => .error (.dump e)
      | .ok raw => do
        if ← compareDigest r.recordHash (Hmac.hexdigest self.key raw) then
          verifyFrom r.recordHash (i + 1) rest
        else return false

def verify (records : List WormAuditRecord) : Except Exc Bool := self.verifyFrom GENESIS 1 records

def exportAppendOnlyJsonl (records : List WormAuditRecord) : Except Exc String := do
  if ← self.verify records then
    match dumpLines records with
    | .error e => .error (.dump e)
    | .ok lines =>
      match (joinLines lines).encode with
      | none => .error (.dump .unicodeEncodeError)
      | some text => .ok text
  else .error (.valueError "audit chain invalid")

end

end WormAuditExporter

/-! ## 3. Reading an export -/

/-- `WormAuditRecord(**d)`, with values of the types it says. -/
def WormAuditRecord.ofValue : PyValue → Option WormAuditRecord
  | .dict d =>
    match d.lookup (.str (Text.of "sequence")), d.lookup (.str (Text.of "action")),
      d.lookup (.str (Text.of "payload")), d.lookup (.str (Text.of "previous_hash")),
      d.lookup (.str (Text.of "record_hash")) with
    | some (.int sequence), some (.str action), some (.dict payload), some (.str previousHash),
      some (.str recordHash) =>
      if d.length = 5 then some ⟨sequence, action, payload, previousHash, recordHash⟩ else none
    | _, _, _, _, _ => none
  | _ => none

section

variable [Loads.PyFloatRepr]

/-- A line, parsed. -/
def parseLine (line : Text) : Option WormAuditRecord :=
  (Loads.read line).bind fun j => WormAuditRecord.ofValue j.value

/-- The lines of an export, parsed. -/
def parse (text : String) : Option (List WormAuditRecord) :=
  (Text.of text).lines.mapM parseLine

/-! ## 4. The property and the condition -/

/-- The floats of a payload are floats. -/
def RealFloats (payload : Dict) : Prop :=
  ∀ j, (PyValue.dict payload).tree true = .ok j → j.FloatsRead

variable [Hmac] (self : WormAuditExporter)

/-- The records `append` has made. -/
inductive Built : List WormAuditRecord → Prop
  | nil : Built []
  | append {records : List WormAuditRecord} (h : Built records) (action : Text) (payload : Dict)
      (hfloats : RealFloats payload) {r : WormAuditRecord} {records' : List WormAuditRecord}
      (happend : self.append records action payload = .ok (r, records')) : Built records'

/-- **The round trip**: exported, parsed and verified. -/
def RoundTrips (records : List WormAuditRecord) : Prop :=
  ∃ text loaded, self.exportAppendOnlyJsonl records = .ok text ∧ parse text = some loaded ∧
    self.verify loaded = .ok true ∧
    loaded.map (fun r => (r.action, r.sequence, r.recordHash)) =
      records.map fun r => (r.action, r.sequence, r.recordHash)

omit [Hmac] in
/-- A record is written, and read as another. -/
def Reread (r r' : WormAuditRecord) : Prop :=
  ∃ line, r.line = .ok line ∧ parseLine line = some r'

/-- Read back, the record is signed as another text with the same signature. -/
def Collides (r : WormAuditRecord) : Prop :=
  ∃ r' raw raw', Reread r r' ∧ r.raw = .ok raw ∧ r'.raw = .ok raw' ∧ raw ≠ raw' ∧
    Hmac.hexdigest self.key raw = Hmac.hexdigest self.key raw'

end

/-! ## 5. What is written and read -/

section Reread

variable {r r' : WormAuditRecord} {j : JsonTree} {fields : List (Text × JsonTree)}

/-- What is signed, in the order of its keys. -/
def rawTree (r : WormAuditRecord) (payload : JsonTree) : JsonTree :=
  .dict [(Text.of "action", .str r.action), (Text.of "payload", payload),
    (Text.of "previous_hash", .str r.previousHash), (Text.of "sequence", .int r.sequence)]

/-- What is exported. -/
def lineTree (r : WormAuditRecord) (payload : JsonTree) : JsonTree :=
  .dict [(Text.of "action", .str r.action), (Text.of "payload", payload),
    (Text.of "previous_hash", .str r.previousHash), (Text.of "record_hash", .str r.recordHash),
    (Text.of "sequence", .int r.sequence)]

/-- The record is signed as the tree of its payload. -/
theorem raw_eq_ok_iff {raw : String} :
    r.raw = .ok raw ↔
      ∃ j, Written true (.dict r.payload) j ∧ ((rawTree r j).write true).chars = raw := by
  have hraw : r.raw =
      ((PyValue.dict r.payload).tree true).map fun j => ((rawTree r j).write true).chars := by
    rw [WormAuditRecord.raw, Worm.raw, bytes_eq true, PyValue.tree, treeFields, treeFields,
      treeFields, treeFields, treeFields]
    cases (PyValue.dict r.payload).tree true with
    | error e => rfl
    | ok j => rfl
  rw [hraw, map_eq_ok_iff]
  rfl

/-- It is exported as the tree that is made without `default=str`. -/
theorem line_eq_ok_iff {line : Text} :
    r.line = .ok line ↔
      ∃ j, Written false (.dict r.payload) j ∧ (lineTree r j).write true = line := by
  have hline : r.line =
      ((PyValue.dict r.payload).tree false).map fun j => (lineTree r j).write true := by
    rw [WormAuditRecord.line, dumps_eq, PyValue.tree, treeFields, treeFields, treeFields,
      treeFields, treeFields, treeFields]
    cases (PyValue.dict r.payload).tree false with
    | error e => rfl
    | ok j => rfl
  rw [hline, map_eq_ok_iff]
  rfl

theorem floats_rawTree (r : WormAuditRecord) (j : JsonTree) : (rawTree r j).floats = j.floats := by
  simp only [rawTree, JsonTree.floats, JsonTree.floatsFields, List.nil_append, List.append_nil]

theorem floats_lineTree (r : WormAuditRecord) (j : JsonTree) :
    (lineTree r j).floats = j.floats := by
  simp only [lineTree, JsonTree.floats, JsonTree.floatsFields, List.nil_append, List.append_nil]

/-- The texts of a record that are not in its payload. -/
structure Ascii (r : WormAuditRecord) : Prop where
  action : ∀ c ∈ r.action, c.ord < 0x80
  previousHash : ∀ c ∈ r.previousHash, c.ord < 0x80
  recordHash : ∀ c ∈ r.recordHash, c.ord < 0x80

theorem joined_keys : ∀ key ∈ ["action", "payload", "previous_hash", "record_hash", "sequence"],
    (Text.of key).joined = Text.of key := by
  have hascii : ∀ key ∈ ["action", "payload", "previous_hash", "record_hash", "sequence"],
      ∀ c ∈ Text.of key, c.ord < 0x80 := by decide
  exact fun key hkey => Text.joined_of_ascii (hascii key hkey)

theorem joined_rawTree (h : Ascii r) (j : JsonTree) :
    (rawTree r j).joined = rawTree r j.joined := by
  simp only [rawTree, JsonTree.joined, JsonTree.joinedFields, Text.joined_of_ascii h.action,
    Text.joined_of_ascii h.previousHash, joined_keys "action" (by simp),
    joined_keys "payload" (by simp), joined_keys "previous_hash" (by simp),
    joined_keys "sequence" (by simp)]

theorem joined_lineTree (h : Ascii r) (j : JsonTree) :
    (lineTree r j).joined = lineTree r j.joined := by
  simp only [lineTree, JsonTree.joined, JsonTree.joinedFields, Text.joined_of_ascii h.action,
    Text.joined_of_ascii h.previousHash, Text.joined_of_ascii h.recordHash,
    joined_keys "action" (by simp), joined_keys "payload" (by simp),
    joined_keys "previous_hash" (by simp), joined_keys "record_hash" (by simp),
    joined_keys "sequence" (by simp)]

/-- The payload that is read. -/
def readPayload (fields : List (Text × JsonTree)) : Dict :=
  (dictOf (JsonTree.valueFields (JsonTree.joinedFields fields))).map fun e => (.str e.1, e.2)

theorem ofValue_lineTree (r : WormAuditRecord) (fields : List (Text × JsonTree)) :
    WormAuditRecord.ofValue (lineTree r (JsonTree.dict fields).joined).value =
      some { r with payload := readPayload fields } := rfl

theorem raw_readPayload (r : WormAuditRecord) (fields : List (Text × JsonTree)) :
    ({ r with payload := readPayload fields } : WormAuditRecord).raw =
      .ok ((rawTree r (JsonTree.dict fields).joined.reloaded).write true).chars :=
  raw_eq_ok_iff.mpr ⟨_, value_tree true (JsonTree.dict fields).joined, rfl⟩

variable [Loads.PyFloatRepr]

/-- **What is signed again** is what was signed exactly if the payload stays. -/
theorem raw_readPayload_iff (hr : Ascii r) (hfloats : j.FloatsRead) :
    ((rawTree r j.joined.reloaded).write true).chars = ((rawTree r j).write true).chars ↔
      j.Stays := by
  constructor
  · intro h
    have hwrite : (rawTree r j.joined.reloaded).write true = (rawTree r j).write true := by
      rw [← of_chars (encodable_write _), h, of_chars (encodable_write _)]
    have hraw : (rawTree r j).FloatsRead := by
      rwa [JsonTree.FloatsRead, floats_rawTree]
    have hreloaded : (rawTree r j.joined.reloaded).FloatsRead := by
      rw [JsonTree.FloatsRead, floats_rawTree]
      intro repr hrepr
      exact hfloats repr (floats_joined j ▸ floats_reloaded j.joined hrepr)
    have hjoined := joined_eq_of_write hreloaded hraw hwrite
    rw [joined_rawTree hr, joined_rawTree hr, joined_reloaded] at hjoined
    simp only [rawTree, JsonTree.dict.injEq, List.cons.injEq, Prod.mk.injEq, true_and,
      and_true] at hjoined
    exact hjoined
  · intro h
    have hjoined : (rawTree r j.joined).write true = (rawTree r j).write true := by
      rw [← joined_rawTree hr, write_joined]
    rw [h, hjoined]

/-- **A record is read back** with the payload that is read. -/
theorem reread_iff (hr : Ascii r) (hfloats : (JsonTree.dict fields).FloatsRead)
    (hwritten : Written true (.dict r.payload) (.dict fields)) :
    Reread r r' ↔ Written false (.dict r.payload) (.dict fields) ∧
      r' = { r with payload := readPayload fields } := by
  have hparse : parseLine ((lineTree r (.dict fields)).write true) =
      some { r with payload := readPayload fields } := by
    have hread : Loads.read ((lineTree r (.dict fields)).write true) =
        some (lineTree r (.dict fields)).joined := by
      refine read_write ?_
      rwa [JsonTree.FloatsRead, floats_lineTree]
    rw [parseLine, hread, Option.bind_some, joined_lineTree hr, ofValue_lineTree]
  constructor
  · rintro ⟨line, hline, hr'⟩
    obtain ⟨j, hj, rfl⟩ := line_eq_ok_iff.mp hline
    have hsame : j = .dict fields := Written.unique (Written.default hj) hwritten
    rw [hsame] at hj hr'
    exact ⟨hj, Option.some.inj (hr'.symm.trans hparse)⟩
  · rintro ⟨hj, rfl⟩
    exact ⟨(lineTree r (.dict fields)).write true, line_eq_ok_iff.mpr ⟨_, hj, rfl⟩, hparse⟩

end Reread

/-! ## 6. Signed records -/

section Signed

variable [Hmac] {self : WormAuditExporter} {records loaded : List WormAuditRecord}
  {r r' : WormAuditRecord} {prev : Text} {i : ℤ}

/-- The record is the `i`-th, follows `prev` and has the signature of what is signed. -/
structure Follows (exporter : WormAuditExporter) (prev : Text) (i : ℤ) (r : WormAuditRecord) :
    Prop where
  sequence : r.sequence = i
  previousHash : r.previousHash = prev
  critical : r.action ∈ CRITICAL_ACTIONS
  signed : ∃ raw, r.raw = .ok raw ∧ r.recordHash = Hmac.hexdigest exporter.key raw

variable (self) in
/-- What `verify` accepts. -/
def Signed : Text → ℤ → List WormAuditRecord → Prop
  | _, _, [] => True
  | prev, i, r :: rest => Follows self prev i r ∧ Signed r.recordHash (i + 1) rest

omit [Hmac] in
theorem compareDigest_eq_true_iff {a b : Text} (hb : ∀ c ∈ b, c.ord < 0x80) :
    compareDigest a b = .ok true ↔ a = b := by
  unfold compareDigest
  split_ifs with hascii
  · rw [Except.ok.injEq, beq_iff_eq]
  · refine iff_of_false (fun h => by cases h) ?_
    rintro rfl
    exact hascii ⟨hb, hb⟩

/-- **`verify`** accepts the signed records. -/
theorem verifyFrom_iff (records : List WormAuditRecord) :
    self.verifyFrom prev i records = .ok true ↔ Signed self prev i records := by
  induction records generalizing prev i with
  | nil => exact iff_of_true rfl trivial
  | cons r rest ih =>
    rw [WormAuditExporter.verifyFrom, Signed, ← ih]
    split_ifs with hplace
    · refine iff_of_false (fun h => by cases h) fun h => ?_
      rcases hplace with hne | hne | hne
      · exact hne h.1.sequence
      · exact hne h.1.previousHash
      · exact hne h.1.critical
    · simp only [not_or, not_not] at hplace
      obtain ⟨hsequence, hprevious, hcritical⟩ := hplace
      cases hraw : r.raw with
      | error e =>
        refine iff_of_false (fun h => by cases h) ?_
        rintro ⟨⟨-, -, -, raw, hok, -⟩, -⟩
        rw [hraw] at hok
        cases hok
      | ok raw =>
        have hcompare := compareDigest_eq_true_iff (a := r.recordHash) (Hmac.ascii self.key raw)
        have hfollows : Follows self prev i r ↔
            compareDigest r.recordHash (Hmac.hexdigest self.key raw) = .ok true := by
          rw [hcompare]
          constructor
          · rintro ⟨-, -, -, raw', hraw', hhash⟩
            rw [hraw] at hraw'
            rw [hhash, Except.ok.inj hraw']
          · exact fun hhash => ⟨hsequence, hprevious, hcritical, raw, hraw, hhash⟩
        rw [hfollows]
        dsimp only
        cases compareDigest r.recordHash (Hmac.hexdigest self.key raw) with
        | error e => simp [error_bind]
        | ok same => cases same <;> simp [pure_eq_ok]

/-- The signature that the next record follows. -/
def lastHash (prev : Text) (records : List WormAuditRecord) : Text :=
  (records.getLast?.map (·.recordHash)).getD prev

theorem signed_concat (records : List WormAuditRecord) (r : WormAuditRecord) :
    Signed self prev i (records ++ [r]) ↔
      Signed self prev i records ∧ Follows self (lastHash prev records) (i + records.length) r := by
  induction records generalizing prev i with
  | nil => simp [Signed, lastHash]
  | cons r' rest ih =>
    have hlast : lastHash prev (r' :: rest) = lastHash r'.recordHash rest := by
      rw [lastHash, lastHash, List.getLast?_cons]
      cases rest.getLast? <;> rfl
    have hplace : i + ((r' :: rest).length : ℕ) = i + 1 + (rest.length : ℕ) := by
      rw [List.length_cons]
      omega
    rw [List.cons_append, Signed, ih, Signed, hlast, hplace, and_assoc]

theorem append_eq_ok {action : Text} {payload : Dict} {records' : List WormAuditRecord}
    (h : self.append records action payload = .ok (r, records')) :
    records' = records ++ [r] ∧ Follows self (lastHash GENESIS records) (1 + records.length) r ∧
      r.payload = payload := by
  unfold WormAuditExporter.append at h
  split_ifs at h with hcritical
  dsimp only at h
  split at h
  · cases h
  · next raw hraw =>
    obtain ⟨rfl, rfl⟩ := Prod.mk.inj (Except.ok.inj h)
    exact ⟨rfl, ⟨add_comm _ _, rfl, hcritical, raw, hraw, rfl⟩, rfl⟩

section

variable [Loads.PyFloatRepr]

/-- **What `append` has made** is signed. -/
theorem Built.signed (h : Built self records) : Signed self GENESIS 1 records := by
  induction h with
  | nil => trivial
  | append _ action payload hfloats happend ih =>
    obtain ⟨rfl, hfollows, -⟩ := append_eq_ok happend
    exact (signed_concat _ _).mpr ⟨ih, hfollows⟩

theorem Built.floats (h : Built self records) : ∀ r ∈ records, RealFloats r.payload := by
  induction h with
  | nil => exact List.forall_mem_nil _
  | append _ action payload hfloats happend ih =>
    obtain ⟨rfl, -, rfl⟩ := append_eq_ok happend
    exact List.forall_mem_append.mpr ⟨ih, List.forall_mem_singleton.mpr hfloats⟩

end

theorem Signed.mem (h : Signed self prev i records) :
    ∀ r ∈ records, ∃ raw, r.raw = .ok raw ∧ r.recordHash = Hmac.hexdigest self.key raw := by
  induction records generalizing prev i with
  | nil => exact List.forall_mem_nil _
  | cons r rest ih => exact List.forall_mem_cons.mpr ⟨h.1.signed, ih h.2⟩

theorem Follows.ascii (hprev : ∀ c ∈ prev, c.ord < 0x80) (h : Follows self prev i r) : Ascii r := by
  have hcritical : ∀ action ∈ CRITICAL_ACTIONS, ∀ c ∈ action, c.ord < 0x80 := by decide
  obtain ⟨raw, -, hhash⟩ := h.signed
  exact ⟨hcritical _ h.critical, h.previousHash ▸ hprev, hhash ▸ Hmac.ascii self.key raw⟩

theorem Signed.ascii (hprev : ∀ c ∈ prev, c.ord < 0x80) (h : Signed self prev i records) :
    ∀ r ∈ records, Ascii r := by
  induction records generalizing prev i with
  | nil => exact List.forall_mem_nil _
  | cons r rest ih =>
    have hr := h.1.ascii hprev
    exact List.forall_mem_cons.mpr ⟨hr, ih hr.recordHash h.2⟩

/-! ## 7. Signed records read back -/

section Back

variable [Loads.PyFloatRepr]

variable (self) in
/-- The record is read back, with the signature it has. -/
def Survives (r : WormAuditRecord) : Prop :=
  ∃ r', Reread r r' ∧ ∃ raw', r'.raw = .ok raw' ∧ r.recordHash = Hmac.hexdigest self.key raw'

/-- **A record** survives if its payload reloads, or its signature is that of another text. -/
theorem survives_iff (hr : Ascii r) (hfloats : RealFloats r.payload)
    (hsigned : ∃ raw, r.raw = .ok raw ∧ r.recordHash = Hmac.hexdigest self.key raw) :
    Survives self r ↔ (PyValue.dict r.payload).Reloads ∨ Collides self r := by
  obtain ⟨raw, hraw, hhash⟩ := hsigned
  obtain ⟨j, hj, rfl⟩ := raw_eq_ok_iff.mp hraw
  obtain ⟨-, -, sorted, -, rfl⟩ := written_dict_iff.mp hj
  have hread : (JsonTree.dict sorted).FloatsRead := hfloats _ hj
  have hsame := raw_readPayload_iff hr hread
  rw [reloads_iff hj]
  constructor
  · rintro ⟨r', hreread, raw', hraw', hhash'⟩
    obtain ⟨hwritten, rfl⟩ := (reread_iff hr hread hj).mp hreread
    obtain rfl := Except.ok.inj ((raw_readPayload r sorted).symm.trans hraw')
    by_cases hstays : (JsonTree.dict sorted).Stays
    · exact .inl ⟨hwritten, hstays⟩
    · exact .inr ⟨_, _, _, hreread, hraw, hraw', fun heq => hstays (hsame.mp heq.symm),
        hhash.symm.trans hhash'⟩
  · rintro (⟨hwritten, hstays⟩ | ⟨r', raw, raw', hreread, hraw', hraw'', -, heq⟩)
    · refine ⟨_, (reread_iff hr hread hj).mpr ⟨hwritten, rfl⟩, _, raw_readPayload r sorted, ?_⟩
      rw [hsame.mpr hstays, hhash]
    · obtain rfl := Except.ok.inj (hraw.symm.trans hraw')
      exact ⟨r', hreread, raw', hraw'', hhash.trans heq⟩

omit [Hmac] in
theorem Reread.exists_payload (hr : Ascii r) (hfloats : RealFloats r.payload) (h : Reread r r') :
    ∃ payload, r' = { r with payload := payload } := by
  obtain ⟨line, hline, -⟩ := id h
  obtain ⟨j, hj, -⟩ := line_eq_ok_iff.mp hline
  obtain ⟨-, -, sorted, -, rfl⟩ := written_dict_iff.mp hj.default
  exact ⟨_, ((reread_iff hr (hfloats _ hj.default) hj.default).mp h).2⟩

/-- **The records read back** can be signed records if every one survives. -/
theorem signed_reread_iff (hascii : ∀ r ∈ records, Ascii r)
    (hfloats : ∀ r ∈ records, RealFloats r.payload) (h : Signed self prev i records) :
    (∃ loaded, List.Forall₂ Reread records loaded ∧ Signed self prev i loaded) ↔
      ∀ r ∈ records, Survives self r := by
  induction records generalizing prev i with
  | nil => exact iff_of_true ⟨[], .nil, trivial⟩ (List.forall_mem_nil _)
  | cons r rest ih =>
    obtain ⟨hr, hascii⟩ := List.forall_mem_cons.mp hascii
    obtain ⟨hreal, hfloats⟩ := List.forall_mem_cons.mp hfloats
    obtain ⟨hfollows, hrest⟩ := h
    rw [List.forall_mem_cons, ← ih hascii hfloats hrest]
    constructor
    · rintro ⟨_, hreread, hsigned⟩
      obtain ⟨r', loaded, hr', hloaded, rfl⟩ := List.forall₂_cons_left_iff.mp hreread
      obtain ⟨payload, rfl⟩ := hr'.exists_payload hr hreal
      exact ⟨⟨_, hr', hsigned.1.signed⟩, loaded, hloaded, hsigned.2⟩
    · rintro ⟨⟨r', hr', hagain⟩, loaded, hloaded, hsigned⟩
      obtain ⟨payload, rfl⟩ := hr'.exists_payload hr hreal
      exact ⟨_, .cons hr' hloaded,
        ⟨hfollows.sequence, hfollows.previousHash, hfollows.critical, hagain⟩, hsigned⟩

omit [Hmac] in
/-- They have the actions, sequence numbers and signatures of the records. -/
theorem map_reread (hascii : ∀ r ∈ records, Ascii r)
    (hfloats : ∀ r ∈ records, RealFloats r.payload) (h : List.Forall₂ Reread records loaded) :
    loaded.map (fun r => (r.action, r.sequence, r.recordHash)) =
      records.map fun r => (r.action, r.sequence, r.recordHash) := by
  induction h with
  | nil => rfl
  | cons hr' _ ih =>
    obtain ⟨hr, hascii⟩ := List.forall_mem_cons.mp hascii
    obtain ⟨hreal, hfloats⟩ := List.forall_mem_cons.mp hfloats
    obtain ⟨payload, rfl⟩ := hr'.exists_payload hr hreal
    rw [List.map_cons, List.map_cons, ih hascii hfloats]

/-! ## 8. Exports -/

omit [Hmac] [Loads.PyFloatRepr] in
theorem dumpLines_eq_ok_iff {lines : List Text} :
    dumpLines records = .ok lines ↔
      List.Forall₂ (fun r line => r.line = .ok line) records lines := by
  induction records generalizing lines with
  | nil => rw [dumpLines, List.forall₂_nil_left_iff, Except.ok.injEq, eq_comm]
  | cons r rest ih =>
    simp only [dumpLines, bind_eq_ok_iff, ih, List.forall₂_cons_left_iff, pure_eq_ok,
      Except.ok.injEq]
    constructor
    · rintro ⟨line, hline, lines, hlines, rfl⟩
      exact ⟨line, lines, hline, hlines, rfl⟩
    · rintro ⟨line, lines, hline, hlines, rfl⟩
      exact ⟨line, hline, lines, hlines, rfl⟩

omit [Hmac] in
theorem mapM_parseLine_eq_some_iff {lines : List Text} :
    lines.mapM parseLine = some loaded ↔
      List.Forall₂ (fun line r => parseLine line = some r) lines loaded := by
  induction lines generalizing loaded with
  | nil =>
    rw [List.mapM_nil, List.forall₂_nil_left_iff, Option.pure_def, Option.some.injEq, eq_comm]
  | cons line lines ih =>
    simp only [List.mapM_cons, Option.bind_eq_bind, Option.bind_eq_some_iff, ih, Option.pure_def,
      Option.some.injEq, List.forall₂_cons_left_iff]
    constructor
    · rintro ⟨r, hr, rest, hrest, rfl⟩
      exact ⟨r, rest, hr, hrest, rfl⟩
    · rintro ⟨r, rest, hr, hrest, rfl⟩
      exact ⟨r, hr, rest, hrest, rfl⟩

omit [Hmac] in
/-- Every record is written, and what is written is read. -/
theorem forall₂_reread_iff :
    List.Forall₂ Reread records loaded ↔
      ∃ lines, dumpLines records = .ok lines ∧ lines.mapM parseLine = some loaded := by
  simp only [dumpLines_eq_ok_iff, mapM_parseLine_eq_some_iff]
  constructor
  · intro h
    induction h with
    | nil => exact ⟨[], .nil, .nil⟩
    | cons hr' _ ih =>
      obtain ⟨line, hline, hparse⟩ := hr'
      obtain ⟨lines, hlines, hloaded⟩ := ih
      exact ⟨line :: lines, .cons hline hlines, .cons hparse hloaded⟩
  · rintro ⟨lines, hlines, hloaded⟩
    induction hlines generalizing loaded with
    | nil =>
      rw [List.forall₂_nil_left_iff.mp hloaded]
      exact .nil
    | cons hline _ ih =>
      obtain ⟨r', rest, hr', hrest, rfl⟩ := List.forall₂_cons_left_iff.mp hloaded
      exact .cons ⟨_, hline, hr'⟩ (ih hrest)

omit [Hmac] in
/-- A record is written on one line. -/
theorem written_line {line : Text} (hfloats : RealFloats r.payload) (h : r.line = .ok line) :
    line.Encodable ∧ line.OneLine ∧ line ≠ [] := by
  obtain ⟨j, hj, rfl⟩ := line_eq_ok_iff.mp h
  refine ⟨encodable_write _, oneLine_write ?_, ?_⟩
  · rw [JsonTree.FloatsRead, floats_lineTree]
    exact hfloats j hj.default
  · rw [lineTree, JsonTree.write, writeDict, List.append_assoc]
    exact List.cons_ne_nil _ _

omit [Hmac] in
theorem written_lines {lines : List Text} (hfloats : ∀ r ∈ records, RealFloats r.payload)
    (h : dumpLines records = .ok lines) :
    ∀ line ∈ lines, line.Encodable ∧ line.OneLine ∧ line ≠ [] := by
  rw [dumpLines_eq_ok_iff] at h
  induction h with
  | nil => exact List.forall_mem_nil _
  | cons hline _ ih =>
    obtain ⟨hreal, hfloats⟩ := List.forall_mem_cons.mp hfloats
    exact List.forall_mem_cons.mpr ⟨written_line hreal hline, ih hfloats⟩

/-- **What is parsed of an export** are the records read back. -/
theorem exported_iff (hfloats : ∀ r ∈ records, RealFloats r.payload)
    (h : Signed self GENESIS 1 records) :
    (∃ text, self.exportAppendOnlyJsonl records = .ok text ∧ parse text = some loaded) ↔
      List.Forall₂ Reread records loaded := by
  have hverify : self.verify records = .ok true := (verifyFrom_iff records).mpr h
  rw [forall₂_reread_iff, WormAuditExporter.exportAppendOnlyJsonl, hverify, ok_bind, if_pos rfl]
  cases hlines : dumpLines records with
  | error e =>
    constructor
    · rintro ⟨text, htext, -⟩
      cases htext
    · rintro ⟨lines, hok, -⟩
      cases hok
  | ok lines =>
    have hwritten := written_lines hfloats hlines
    have hencodable := encodable_joinLines fun line hline => (hwritten line hline).1
    have hparse : parse (joinLines lines).chars = lines.mapM parseLine := by
      rw [parse, of_chars hencodable, lines_joinLines (fun line hline => (hwritten line hline).2.1)
        fun line hline => (hwritten line hline).2.2]
    dsimp only
    rw [hencodable.encode]
    constructor
    · rintro ⟨text, htext, hloaded⟩
      obtain rfl := Except.ok.inj htext
      exact ⟨lines, rfl, hparse ▸ hloaded⟩
    · rintro ⟨lines', hsame, hloaded⟩
      obtain rfl := Except.ok.inj hsame
      exact ⟨_, rfl, hparse.trans hloaded⟩

end Back

/-! ## 9. The round trip -/

/-- **The round trip** works exactly for payloads that read back as the values that were signed,
HMAC collisions apart. -/
theorem round_trip_iff [Loads.PyFloatRepr] (self : WormAuditExporter)
    (records : List WormAuditRecord) (hbuilt : Built self records) :
    RoundTrips self records ↔
      ∀ r ∈ records, (PyValue.dict r.payload).Reloads ∨ Collides self r := by
  have hsigned := hbuilt.signed
  have hfloats := hbuilt.floats
  have hascii := hsigned.ascii (by decide)
  have hsurvives : (∀ r ∈ records, Survives self r) ↔
      ∀ r ∈ records, (PyValue.dict r.payload).Reloads ∨ Collides self r := by
    refine forall₂_congr fun r hr => survives_iff (hascii r hr) (hfloats r hr) ?_
    exact hsigned.mem r hr
  rw [← hsurvives, ← signed_reread_iff hascii hfloats hsigned]
  constructor
  · rintro ⟨text, loaded, htext, hparse, hverify, -⟩
    exact ⟨loaded, (exported_iff hfloats hsigned).mp ⟨text, htext, hparse⟩,
      (verifyFrom_iff loaded).mp hverify⟩
  · rintro ⟨loaded, hreread, hloaded⟩
    obtain ⟨text, htext, hparse⟩ := (exported_iff hfloats hsigned).mpr hreread
    exact ⟨text, loaded, htext, hparse, (verifyFrom_iff loaded).mpr hloaded,
      map_reread hascii hfloats hreread⟩

end Signed

/-- 64 digits that tell apart texts of different lengths. -/
@[reducible] def lengthDigits : Hmac where
  hexdigest _ raw := List.replicate 64 (.scalar (Nat.digitChar (raw.length % 16)))
  ascii _ raw c hc := by
    have hdigits : ∀ d < 16, (CodePoint.scalar (Nat.digitChar d)).ord < 0x80 := by decide
    rw [List.eq_of_mem_replicate hc]
    exact hdigits _ (Nat.mod_lt _ (by decide))

/-- Floats are written as they are. -/
@[reducible] def sameRepr : Loads.PyFloatRepr := ⟨id⟩

section

attribute [local instance] lengthDigits sameRepr

/-- An exporter with a key of 32 bytes. -/
def zeroKey : WormAuditExporter := ⟨List.replicate 32 0, le_of_eq List.length_replicate.symm⟩

/-- The record of a panic after `i` records, with what is signed of it. -/
def panicClose (i : ℕ) (prev : Text) (payload : Dict) (raw : String) : WormAuditRecord :=
  ⟨i + 1, Text.of "PANIC_CLOSE", payload, prev, Hmac.hexdigest zeroKey.key raw⟩

theorem built_panicClose {records : List WormAuditRecord} {prev : Text} {payload : Dict}
    {raw : String} (h : Built zeroKey records) (hfloats : RealFloats payload)
    (hprev : (records.getLast?.map (·.recordHash)).getD GENESIS = prev)
    (hraw : Worm.raw (records.length + 1) (Text.of "PANIC_CLOSE") payload prev = .ok raw) :
    Built zeroKey (records ++ [panicClose records.length prev payload raw]) := by
  have hcritical : Text.of "PANIC_CLOSE" ∈ CRITICAL_ACTIONS := by decide
  have happend : zeroKey.append records (Text.of "PANIC_CLOSE") payload =
      .ok (panicClose records.length prev payload raw,
        records ++ [panicClose records.length prev payload raw]) := by
    rw [WormAuditExporter.append, if_neg (not_not.mpr hcritical)]
    dsimp only
    rw [hprev, hraw]
    rfl
  exact .append h _ payload hfloats happend

/-- Who closed. -/
def closedBy (who : String) : Dict := [(.str (Text.of "who"), .str (Text.of who))]

/-- When it was closed; a time is no JSON value. -/
def atTime : Dict := [(.str (Text.of "at"), .other (Text.of "2026-01-01 00:00:00+00:00"))]

/-- What is signed then, around the payload. -/
def signedText (payload : String) : String :=
  "\x7b\"action\":\"PANIC_CLOSE\",\"payload\":" ++ payload ++
    ",\"previous_hash\":\"GENESIS\",\"sequence\":1\x7d"

theorem realFloats_closedBy (who : String) : RealFloats (closedBy who) := by
  intro _ hj repr hrepr
  obtain rfl := Except.ok.inj hj
  cases hrepr

theorem reloads_closedBy (who : String) : (PyValue.dict (closedBy who)).Reloads := by
  refine ⟨fun texts htexts => ?_, trivial, trivial⟩
  obtain rfl := Except.ok.inj htexts
  exact List.pairwise_singleton _ _

/-- A record of the operator, and one of the guard after it. -/
theorem round_trip_iff_twoRecords : ∃ records, Built zeroKey records ∧
    records.map (·.payload) = [closedBy "operator", closedBy "guard"] ∧
      RoundTrips zeroKey records := by
  have hfirst : Worm.raw 1 (Text.of "PANIC_CLOSE") (closedBy "operator") GENESIS =
      .ok (signedText "\x7b\"who\":\"operator\"\x7d") := rfl
  have hbuilt := built_panicClose .nil (realFloats_closedBy "operator") rfl hfirst
  obtain ⟨raw, hsecond⟩ := isOk_iff.mp (show (Worm.raw 2 (Text.of "PANIC_CLOSE") (closedBy "guard")
    (Hmac.hexdigest zeroKey.key (signedText "\x7b\"who\":\"operator\"\x7d"))).isOk = true by
      decide +kernel)
  have hbuilt' := built_panicClose hbuilt (realFloats_closedBy "guard") rfl hsecond
  refine ⟨_, hbuilt', rfl, (round_trip_iff zeroKey _ hbuilt').mpr fun r hr => .inl ?_⟩
  rcases List.mem_cons.mp hr with rfl | hr
  · exact reloads_closedBy "operator"
  · rw [List.mem_singleton.mp hr]
    exact reloads_closedBy "guard"

theorem built_atTime : Built zeroKey [panicClose 0 GENESIS atTime
    (signedText "\x7b\"at\":\"2026-01-01 00:00:00+00:00\"\x7d")] := by
  refine built_panicClose .nil ?_ rfl rfl
  intro _ hj repr hrepr
  obtain rfl := Except.ok.inj hj
  cases hrepr

/-- **A payload with a time** is signed and verified, and cannot be exported. -/
theorem time_not_exported :
    ¬ ∀ records, Built zeroKey records → RoundTrips zeroKey records := by
  intro h
  obtain ⟨text, -, htext, -⟩ := h _ built_atTime
  have hverify := (verifyFrom_iff _).mpr built_atTime.signed
  rw [WormAuditExporter.exportAppendOnlyJsonl, WormAuditExporter.verify, hverify] at htext
  cases htext

end

end Kripto.Audit.Worm
