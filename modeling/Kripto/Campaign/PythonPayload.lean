/-
# Payloads as Python values

A caller of the collector hands over a dictionary, and what is read back is JSON.  A payload of
text keys, lists and texts that can be encoded is read back as it was (`readBack_toValue`,
`Plain`); a tuple comes back as a list, and a key that is no text as a text.  The checks of
`_validate_event_payload` look at the dictionary: what they find in a plain payload they find in
its JSON (`validateEventPayload_toValue`), but they do not look into tuples.
-/
import Kripto.Campaign.Collection
import Kripto.Effect.Outcome
import Kripto.Python.Json

namespace Kripto.Campaign

open Effect Python

/-! ## 1. JSON values as Python values -/

mutual

def Json.toValue : Json → PyValue
  | .null => .none
  | .bool b => .bool b
  | .int n => .int n
  | .float repr => .float repr
  | .str s => .str (Text.of s)
  | .arr items => .list (itemsToValue items)
  | .obj fields => .dict (fieldsToValue fields)

def itemsToValue : List Json → List PyValue
  | [] => []
  | v :: items => v.toValue :: itemsToValue items

def fieldsToValue : List (String × Json) → Dict
  | [] => []
  | (k, v) :: fields => (.str (Text.of k), v.toValue) :: fieldsToValue fields

end

/-- The payload is a JSON object. -/
def Plain (payload : Dict) : Prop := ∃ p : Payload, fieldsToValue p = payload

theorem fieldsToValue_eq (fields : List (String × Json)) :
    fieldsToValue fields = fields.map fun e => (.str (Text.of e.1), e.2.toValue) := by
  induction fields with
  | nil => simp [fieldsToValue]
  | cons e fields ih =>
    obtain ⟨k, v⟩ := e
    simp [fieldsToValue, ih]

/-! ## 2. Writing and reading back -/

def ofDumpError : DumpError → Exc
  | .typeError => .other "TypeError"
  | .unicodeEncodeError => .other "UnicodeEncodeError"

/-- `text.encode("utf-8")`. -/
def encoded (t : Text) : Except Exc String :=
  match t.encode with
  | some s => .ok s
  | none => .error (ofDumpError .unicodeEncodeError)

@[simp] theorem encoded_of (s : String) : encoded (Text.of s) = .ok s := by simp [encoded]

/-- `_canonical_bytes`. -/
def canonicalBytes (v : PyValue) : Except Exc String :=
  match v.bytes { ensureAscii := false } with
  | .ok s => .ok s
  | .error e => .error (ofDumpError e)

def keyText : Key → Except Exc String
  | .none => .ok "null"
  | .number _ text => .ok text
  | .str s => encoded s
  | .other => .error (ofDumpError .typeError)

/-- The keys of a dictionary as they are read back.  Their order is not kept track of, but
sorting them may raise. -/
def readKeys (fields : List (Key × Json)) : Except Exc (List (String × Json)) :=
  match sortKeys fields with
  | .error e => .error (ofDumpError e)
  | .ok _ => fields.mapM fun e => return (← keyText e.1, e.2)

mutual

/-- `json.loads(json.dumps(v, sort_keys=True))`. -/
def readBack : PyValue → Except Exc Json
  | .none => .ok .null
  | .bool b => .ok (.bool b)
  | .int n => .ok (.int n)
  | .float repr => .ok (.float repr)
  | .str s => return .str (← encoded s)
  | .list items => return .arr (← readBackItems items)
  | .tuple items => return .arr (← readBackItems items)
  | .dict items => do return .obj (← readKeys (← readBackFields items))
  | .other _ => .error (ofDumpError .typeError)

def readBackItems : List PyValue → Except Exc (List Json)
  | [] => .ok []
  | v :: items => return (← readBack v) :: (← readBackItems items)

def readBackFields : Dict → Except Exc (List (Key × Json))
  | [] => .ok []
  | (k, v) :: items => return (k, ← readBack v) :: (← readBackFields items)

end

theorem readKeys_texts (fields : List (String × Json)) :
    readKeys (fields.map fun e => (.str (Text.of e.1), e.2)) = .ok fields := by
  have hsort := sortKeys_texts (fields.map fun e => (Text.of e.1, e.2))
  rw [List.map_map] at hsort
  have hkeys : ((fields.map fun e => (Key.str (Text.of e.1), e.2)).mapM fun e =>
      (return (← keyText e.1, e.2) : Except Exc (String × Json))) = .ok fields := by
    clear hsort
    induction fields with
    | nil => rfl
    | cons e fields ih =>
      rw [List.map_cons, List.mapM_cons, ih]
      simp [keyText]
  have hsort' : sortKeys (fields.map fun e => (Key.str (Text.of e.1), e.2)) = _ := hsort
  simp only [readKeys, hsort', hkeys]

mutual

/-- **A JSON value is read back as it was.** -/
theorem readBack_toValue : ∀ v : Json, readBack v.toValue = .ok v
  | .null => by simp [Json.toValue, readBack]
  | .bool _ => by simp [Json.toValue, readBack]
  | .int _ => by simp [Json.toValue, readBack]
  | .float _ => by simp [Json.toValue, readBack]
  | .str s => by simp [Json.toValue, readBack]
  | .arr items => by simp [Json.toValue, readBack, readBackItems_toValue items]
  | .obj fields => by
    simp [Json.toValue, readBack, readBackFields_toValue fields, readKeys_texts]

theorem readBackItems_toValue : ∀ items : List Json,
    readBackItems (itemsToValue items) = .ok items
  | [] => by simp [itemsToValue, readBackItems]
  | v :: items => by
    simp [itemsToValue, readBackItems, readBack_toValue v, readBackItems_toValue items]

theorem readBackFields_toValue : ∀ fields : List (String × Json),
    readBackFields (fieldsToValue fields) = .ok (fields.map fun e => (.str (Text.of e.1), e.2))
  | [] => by simp [fieldsToValue, readBackFields]
  | (k, v) :: fields => by
    simp [fieldsToValue, readBackFields, readBack_toValue v, readBackFields_toValue fields]

end

mutual

theorem dumps_toValue (options : DumpOptions) : ∀ v : Json,
    ∃ t, v.toValue.dumps options = .ok t ∧ t.Encodable
  | .null => ⟨_, by rw [Json.toValue, PyValue.dumps], Text.encodable_of _⟩
  | .bool _ => ⟨_, by rw [Json.toValue, PyValue.dumps], Text.encodable_of _⟩
  | .int _ => ⟨_, by rw [Json.toValue, PyValue.dumps], Text.encodable_of _⟩
  | .float _ => ⟨_, by rw [Json.toValue, PyValue.dumps], Text.encodable_of _⟩
  | .str s => ⟨_, by rw [Json.toValue, PyValue.dumps], encodable_quote (Text.encodable_of s)⟩
  | .arr items => by
    obtain ⟨parts, hparts, hencodable⟩ := dumpsItems_toValue options items
    exact ⟨_, by simp [Json.toValue, PyValue.dumps, hparts], encodable_writeList hencodable⟩
  | .obj fields => by
    obtain ⟨texts, htexts, hencodable⟩ := dumpsFields_toValue options fields
    refine ⟨writeDict options.ensureAscii (texts.insertionSort fun e e' => e.1.le e'.1), ?_, ?_⟩
    · simp only [Json.toValue, PyValue.dumps, htexts, ok_bind, sortKeys_texts, pure_eq_ok]
    · exact encodable_writeDict fun e he => hencodable e ((List.mem_insertionSort _).mp he)

theorem dumpsItems_toValue (options : DumpOptions) : ∀ items : List Json,
    ∃ parts, dumpsItems options (itemsToValue items) = .ok parts ∧
      ∀ part ∈ parts, part.Encodable
  | [] => ⟨[], by simp [itemsToValue, dumpsItems], by simp⟩
  | v :: items => by
    obtain ⟨t, ht, hencodable⟩ := dumps_toValue options v
    obtain ⟨parts, hparts, hrest⟩ := dumpsItems_toValue options items
    exact ⟨t :: parts, by simp [itemsToValue, dumpsItems, ht, hparts],
      List.forall_mem_cons.mpr ⟨hencodable, hrest⟩⟩

theorem dumpsFields_toValue (options : DumpOptions) : ∀ fields : List (String × Json),
    ∃ texts : List (Text × Text),
      dumpsFields options (fieldsToValue fields) = .ok (texts.map fun e => (.str e.1, e.2)) ∧
        ∀ e ∈ texts, e.1.Encodable ∧ e.2.Encodable
  | [] => ⟨[], by simp [fieldsToValue, dumpsFields], by simp⟩
  | (k, v) :: fields => by
    obtain ⟨t, ht, hencodable⟩ := dumps_toValue options v
    obtain ⟨texts, htexts, hrest⟩ := dumpsFields_toValue options fields
    refine ⟨(Text.of k, t) :: texts, by simp [fieldsToValue, dumpsFields, ht, htexts], ?_⟩
    intro e he
    rcases List.mem_cons.mp he with rfl | he
    · exact ⟨Text.encodable_of k, hencodable⟩
    · exact hrest e he

end

/-- A JSON value has canonical bytes. -/
theorem canonicalBytes_toValue (v : Json) : ∃ s, canonicalBytes v.toValue = .ok s := by
  obtain ⟨t, ht, hencodable⟩ := dumps_toValue { ensureAscii := false } v
  obtain ⟨s, rfl⟩ := hencodable.exists_of
  exact ⟨s, by simp [canonicalBytes, PyValue.bytes, ht]⟩

/-! ## 3. The checks -/

/-- What the code takes from Python besides: `str` of what is no text that can be encoded, and
the digests of bytes.  They make the encoding of the collection. -/
class PythonEncoding [PyRuntime] [CollectionEncoding] where
  strValue : PyValue → String
  strKey : Key → String
  sha256 : String → String
  hmacSha256 : String → String → String
  strValue_toValue : ∀ v : Json, (∀ s, v ≠ .str s) → strValue v.toValue = PyRuntime.str v
  recordDigest_eq : ∀ {row : Payload} {bytes : String},
    canonicalBytes (Json.obj row).toValue = .ok bytes →
      CollectionEncoding.recordDigest row = sha256 bytes
  hmac_eq : ∀ {key : String} {message : Payload} {bytes : String},
    canonicalBytes (Json.obj message).toValue = .ok bytes →
      CollectionEncoding.hmac key message = hmacSha256 key bytes

namespace OnDisk

variable [PyRuntime] [CollectionEncoding] [PythonEncoding]

open PythonEncoding

/-- `str(v)`. -/
def shown : PyValue → String
  | .str s => s.encode.getD (strValue (.str s))
  | v => strValue v

/-- `str(key)`. -/
def shownKey : Key → String
  | .str s => s.encode.getD (strKey (.str s))
  | k => strKey k

mutual

/-- `_contains_sensitive_key`. -/
def containsSensitiveKey : PyValue → Bool
  | .dict fields => fieldsContainSensitiveKey fields
  | .list items => itemsContainSensitiveKey items
  | _ => false

def fieldsContainSensitiveKey : Dict → Bool
  | [] => false
  | (key, nested) :: rest =>
    isSensitiveKey (shownKey key) || containsSensitiveKey nested || fieldsContainSensitiveKey rest

def itemsContainSensitiveKey : List PyValue → Bool
  | [] => false
  | item :: rest => containsSensitiveKey item || itemsContainSensitiveKey rest

end

/-- The fields that `payload.get` finds, as `str` shows them. -/
def shownFields (payload : Dict) : Payload :=
  payload.filterMap fun e => do
    let key ← e.1.text?
    return (← key.encode, .str (shown e.2))

def validateEventPayload (kind : String) (payload : Dict) : Except Exc Unit := do
  raiseIf (kind ∉ EVENT_KINDS)
    (.valueError ("unsupported campaign journal event kind: " ++ kind))
  raiseIf (containsSensitiveKey (.dict payload) = true)
    (.valueError "campaign journal payload contains a secret-like key")
  if kind = "paper_sample" then validatePaperSample (shownFields payload)
  else if kind = "live_shadow_observation" then validateLiveShadowObservation (shownFields payload)
  else if kind = "profitability_sample" then validateProfitabilitySample (shownFields payload)
  else return ()

theorem shown_toValue (v : Json) : shown v.toValue = v.text := by
  by_cases hstr : ∃ s, v = .str s
  · obtain ⟨s, rfl⟩ := hstr
    simp [Json.toValue, shown, Json.text]
  · have hnot : ∀ s, v ≠ .str s := fun s h => hstr ⟨s, h⟩
    have hshown := strValue_toValue v hnot
    cases v <;> simp_all [Json.toValue, shown, Json.text]

mutual

theorem containsSensitiveKey_toValue : ∀ v : Json,
    containsSensitiveKey v.toValue = Campaign.containsSensitiveKey v
  | .null => by simp [Json.toValue, containsSensitiveKey, Campaign.containsSensitiveKey]
  | .bool _ => by simp [Json.toValue, containsSensitiveKey, Campaign.containsSensitiveKey]
  | .int _ => by simp [Json.toValue, containsSensitiveKey, Campaign.containsSensitiveKey]
  | .float _ => by simp [Json.toValue, containsSensitiveKey, Campaign.containsSensitiveKey]
  | .str _ => by simp [Json.toValue, containsSensitiveKey, Campaign.containsSensitiveKey]
  | .arr items => by
    simp [Json.toValue, containsSensitiveKey, Campaign.containsSensitiveKey,
      itemsContainSensitiveKey_toValue items]
  | .obj fields => by
    simp [Json.toValue, containsSensitiveKey, Campaign.containsSensitiveKey,
      fieldsContainSensitiveKey_toValue fields]

theorem itemsContainSensitiveKey_toValue : ∀ items : List Json,
    itemsContainSensitiveKey (itemsToValue items) = Campaign.itemsContainSensitiveKey items
  | [] => by simp [itemsToValue, itemsContainSensitiveKey, Campaign.itemsContainSensitiveKey]
  | v :: items => by
    simp [itemsToValue, itemsContainSensitiveKey, Campaign.itemsContainSensitiveKey,
      containsSensitiveKey_toValue v, itemsContainSensitiveKey_toValue items]

theorem fieldsContainSensitiveKey_toValue : ∀ fields : List (String × Json),
    fieldsContainSensitiveKey (fieldsToValue fields) = Campaign.fieldsContainSensitiveKey fields
  | [] => by simp [fieldsToValue, fieldsContainSensitiveKey, Campaign.fieldsContainSensitiveKey]
  | (k, v) :: fields => by
    simp [fieldsToValue, fieldsContainSensitiveKey, Campaign.fieldsContainSensitiveKey, shownKey,
      containsSensitiveKey_toValue v, fieldsContainSensitiveKey_toValue fields]

end

theorem shownFields_toValue (p : Payload) :
    shownFields (fieldsToValue p) = p.map fun e => (e.1, .str e.2.text) := by
  rw [fieldsToValue_eq]
  induction p with
  | nil => rfl
  | cons e p ih =>
    simp only [shownFields, List.map_cons, List.filterMap_cons] at ih ⊢
    rw [ih]
    simp [Key.text?, shown_toValue]

/-- Each field is seen as in the JSON. -/
@[simp] theorem field_shownFields (p : Payload) (name default : String) :
    field (shownFields (fieldsToValue p)) name default = field p name default := by
  have hlookup : (p.map fun e => (e.1, Json.str e.2.text)).lookup name =
      (p.lookup name).map fun v => .str v.text := by
    induction p with
    | nil => rfl
    | cons e p ih =>
      rw [List.map_cons, List.lookup_cons, List.lookup_cons]
      split <;> simp_all
  rw [field, shownFields_toValue, hlookup]
  cases hv : p.lookup name <;> simp [field, hv, Json.text]

/-- **The checks of a plain payload** are those of its JSON. -/
theorem validateEventPayload_toValue (kind : String) (p : Payload) :
    validateEventPayload kind (fieldsToValue p) = Campaign.validateEventPayload kind p := by
  have hkeys := containsSensitiveKey_toValue (.obj p)
  rw [Json.toValue] at hkeys
  simp only [validateEventPayload, Campaign.validateEventPayload, hkeys, validatePaperSample,
    validateLiveShadowObservation, validateProfitabilitySample, floatField, field_shownFields]

end OnDisk

end Kripto.Campaign
