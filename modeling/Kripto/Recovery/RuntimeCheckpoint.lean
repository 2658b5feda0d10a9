/-
# Signed runtime checkpoints

`recovery/runtime_checkpoint.py`: a checkpoint of the running system carries the digest of its
canonical JSON and a signature of the digest, and it is restored only if these are right, it is
neither stale nor from the future, and the configuration and the event log are where it says.

* `signature_eq_iff`: the signature tells what a checkpoint has been created from, but not in which
  order dictionaries and order ids have been given;
* `restore_created_iff`: when a checkpoint that has been created is restored;
* `restore_sound`: what is restored under a signature that has been made says what has been signed.

A float is an element of any type that has the operations on floats.
-/
import Kripto.Effect.Sorting
import Kripto.Python.Lines
import Kripto.Python.ReadBack
import Kripto.Python.Reload

namespace Kripto.Recovery

open Effect Python Loads

/-! ## 1. Checkpoints -/

inductive Exc
  | valueError (msg : String)
  | typeError
  | dumpError (e : DumpError)
  deriving DecidableEq

/-- Floats.  JSON writes different ones differently, and reads what it has written. -/
class FloatRuntime (F : Type) [PyFloatRepr] where
  repr : F → String
  sub : F → F → F
  lt : F → F → Bool
  zero : F
  repr_injective : Function.Injective repr
  isFloatRepr : ∀ x, IsFloatRepr (repr x)

/-- Digests and signatures are written in ASCII. -/
class DigestRuntime extends Hashlib where
  /-- `hmac.new(secret, text.encode(), sha256).hexdigest()` -/
  hmac : Bytes → String → String
  isAscii_sha256 : ∀ text, (Text.of (sha256 text)).all (·.ord < 128) = true
  isAscii_hmac : ∀ secret text, (Text.of (hmac secret text)).all (·.ord < 128) = true

/-- A `dict[str, str]`. -/
structure TextDict where
  items : List (Text × Text)
  nodup : (items.map Prod.fst).Nodup

/-- `dict(sorted(d.items()))` -/
def TextDict.sorted (d : TextDict) : TextDict where
  items := d.items.insertionSort fun e e' => e.1.le e'.1
  nodup := ((List.perm_insertionSort _ _).map _).nodup_iff.mpr d.nodup

def TextDict.value (d : TextDict) : PyValue := .dict (d.items.map fun e => (.str e.1, .str e.2))

/-- What is signed. -/
structure Payload (F : Type) where
  version : ℤ
  createdAtUnix : F
  riskState : Text
  configHash : Text
  lastEventSequence : ℤ
  positions : TextDict
  openOrderIds : List Text
  reservations : TextDict
  eventChainHash : Text

structure RuntimeCheckpoint (F : Type) extends Payload F where
  payloadHash : Text
  signature : Text

structure RestoreDecision (F : Type) where
  allowed : Bool
  reasons : List String
  checkpointAgeSeconds : F

/-- `hmac.compare_digest` of texts. -/
def compareDigest (a b : Text) : Except Exc Bool :=
  if a.all (·.ord < 128) && b.all (·.ord < 128) then .ok (a == b) else .error .typeError

section Model

variable {F : Type} [PyFloatRepr] [FloatRuntime F] [DigestRuntime]

def Payload.value (p : Payload F) : PyValue :=
  .dict [(.str (Text.of "version"), .int p.version),
    (.str (Text.of "created_at_unix"), .float (FloatRuntime.repr p.createdAtUnix)),
    (.str (Text.of "risk_state"), .str p.riskState),
    (.str (Text.of "config_hash"), .str p.configHash),
    (.str (Text.of "last_event_sequence"), .int p.lastEventSequence),
    (.str (Text.of "positions"), p.positions.value),
    (.str (Text.of "open_order_ids"), .tuple (p.openOrderIds.map .str)),
    (.str (Text.of "reservations"), p.reservations.value),
    (.str (Text.of "event_chain_hash"), .str p.eventChainHash)]

/-- `sha256(_canonical(payload)).hexdigest()` -/
def Payload.hash (p : Payload F) : Except Exc String :=
  match p.value.bytes { ensureAscii := false } with
  | .ok text => .ok (Hashlib.sha256 text)
  | .error e => .error (.dumpError e)

/-- The arguments after they have been normalized. -/
def Payload.normalized (p : Payload F) : Payload F :=
  { p with
    positions := p.positions.sorted
    openOrderIds := p.openOrderIds.insertionSort Text.le
    reservations := p.reservations.sorted }

def createRuntimeCheckpoint (secret : Bytes) (p : Payload F) : Except Exc (RuntimeCheckpoint F) :=
  if secret = [] then .error (.valueError "checkpoint signing secret is required")
  else if p.lastEventSequence < 0 then
    .error (.valueError "last_event_sequence must be non-negative")
  else
    match p.normalized.hash with
    | .error e => .error e
    | .ok payloadHash => .ok {
        p.normalized with
        payloadHash := Text.of payloadHash
        signature := Text.of (DigestRuntime.hmac secret payloadHash) }

def verifyRuntimeCheckpoint (checkpoint : RuntimeCheckpoint F) (secret : Bytes) :
    Except Exc Bool := do
  let expectedHash ← checkpoint.toPayload.hash
  if !(← compareDigest (Text.of expectedHash) checkpoint.payloadHash) then return false
  else compareDigest (Text.of (DigestRuntime.hmac secret expectedHash)) checkpoint.signature

/-- Where the system is. -/
structure Current (F : Type) where
  nowUnix : F
  configHash : Text
  eventSequence : ℤ
  eventChainHash : Text
  maxCheckpointAgeSeconds : F

def evaluateRestore (checkpoint : RuntimeCheckpoint F) (secret : Bytes) (current : Current F) :
    Except Exc (RestoreDecision F) := do
  let age := FloatRuntime.sub current.nowUnix checkpoint.createdAtUnix
  let future :=
    if FloatRuntime.lt age (FloatRuntime.zero : F) then ["CHECKPOINT_FROM_FUTURE"] else []
  let stale :=
    if FloatRuntime.lt current.maxCheckpointAgeSeconds age then ["CHECKPOINT_STALE"] else []
  let verified ← verifyRuntimeCheckpoint checkpoint secret
  let signature := if !verified then ["CHECKPOINT_SIGNATURE_INVALID"] else []
  let config := if checkpoint.configHash ≠ current.configHash then ["CONFIG_HASH_MISMATCH"] else []
  let sequence := if checkpoint.lastEventSequence ≠ current.eventSequence then
    ["EVENT_SEQUENCE_MISMATCH"] else []
  let chain := if checkpoint.eventChainHash ≠ current.eventChainHash then
    ["EVENT_CHAIN_HASH_MISMATCH"] else []
  let reasons := future ++ stale ++ signature ++ config ++ sequence ++ chain
  return ⟨reasons.isEmpty, reasons, age⟩

end Model

/-! ## 2. What is signed -/

namespace TextDict

theorem items_inj {d d' : TextDict} : d.items = d'.items ↔ d = d' := by
  cases d
  cases d'
  simp

theorem antisymmOn (d : TextDict) :
    AntisymmOn (fun e e' : Text × Text => e.1.le e'.1) d.items := by
  intro e he e' he' hle hle'
  exact List.inj_on_of_nodup_map d.nodup he he' (Text.le_antisymm hle hle')

/-- Sorted, dictionaries are the same if their items are. -/
theorem sorted_inj {d d' : TextDict} : d.sorted = d'.sorted ↔ d.items.Perm d'.items := by
  constructor
  · intro h
    have hitems := congrArg items h
    exact ((List.perm_insertionSort _ _).symm.trans (.of_eq hitems)).trans
      (List.perm_insertionSort _ _)
  · intro h
    have hitems := insertionSort_congr h d.antisymmOn
    simp only [sorted, hitems]

theorem tree_value (d : TextDict) :
    d.value.tree false = .ok (.dict (d.sorted.items.map fun e => (e.1, .str e.2))) := by
  have hfields : treeFields false (d.items.map fun e => (.str e.1, .str e.2)) =
      .ok (d.items.map fun e => (Key.str e.1, JsonTree.str e.2)) :=
    @treeFields_map (Text × Text) (fun e => .str e.1) _ _ _ _ fun _ _ => rfl
  have hsort := sortKeys_texts (d.items.map fun e => (e.1, JsonTree.str e.2))
  have hsorted := List.map_insertionSort (fun e e' : Text × Text => e.1.le e'.1)
    (fun e e' : Text × JsonTree => e.1.le e'.1) (fun e => (e.1, .str e.2)) d.items
    fun _ _ _ _ => Iff.rfl
  rw [List.map_map] at hsort
  rw [value, PyValue.tree, hfields]
  simp only [ok_bind, Function.comp_def] at hsort ⊢
  rw [hsort, ← hsorted]
  rfl

end TextDict

theorem floats_texts (items : List (Text × Text)) :
    JsonTree.floatsFields (items.map fun e => (e.1, .str e.2)) = [] := by
  rw [JsonTree.floatsFields_eq, List.flatMap_map]
  simp [JsonTree.floats]

theorem floats_strs (ids : List Text) : JsonTree.floatsItems (ids.map .str) = [] := by
  rw [JsonTree.floatsItems_eq, List.flatMap_map]
  simp [JsonTree.floats]

theorem strs_injective : Function.Injective (List.map JsonTree.str) :=
  List.map_injective_iff.mpr fun _ _ h => JsonTree.str.inj h

theorem texts_injective : Function.Injective
    (List.map fun e : Text × Text => (e.1, JsonTree.str e.2)) :=
  List.map_injective_iff.mpr fun e e' h => by simpa [Prod.ext_iff] using h

section Signed

variable {F : Type} [PyFloatRepr] [FloatRuntime F]

def Payload.fields (p : Payload F) : List (Text × JsonTree) :=
  [(Text.of "version", .int p.version),
    (Text.of "created_at_unix", .float (FloatRuntime.repr p.createdAtUnix)),
    (Text.of "risk_state", .str p.riskState),
    (Text.of "config_hash", .str p.configHash),
    (Text.of "last_event_sequence", .int p.lastEventSequence),
    (Text.of "positions", .dict (p.positions.sorted.items.map fun e => (e.1, .str e.2))),
    (Text.of "open_order_ids", .list (p.openOrderIds.map .str)),
    (Text.of "reservations", .dict (p.reservations.sorted.items.map fun e => (e.1, .str e.2))),
    (Text.of "event_chain_hash", .str p.eventChainHash)]

theorem Payload.tree_value (p : Payload F) :
    p.value.tree false = .ok (.dict (p.fields.insertionSort fun e e' => e.1.le e'.1)) := by
  have hids : treeItems false (p.openOrderIds.map .str) = .ok (p.openOrderIds.map .str) :=
    treeItems_map fun _ _ => rfl
  have hsort := sortKeys_texts p.fields
  simp only [value, PyValue.tree, treeFields, TextDict.tree_value, hids, ok_bind, pure_eq_ok]
  simp only [fields, List.map_cons, List.map_nil] at hsort
  rw [hsort]
  rfl

/-- What is written about it has floats that are read. -/
theorem Payload.floatsRead (p : Payload F) : p.value.FloatsRead := by
  intro j hj
  obtain rfl := Except.ok.inj (p.tree_value.symm.trans hj)
  intro repr hrepr
  rw [JsonTree.floats, JsonTree.floatsFields_eq] at hrepr
  obtain ⟨e, he, hrepr⟩ := List.mem_flatMap.mp hrepr
  rw [List.mem_insertionSort] at he
  simp only [fields, List.mem_cons, List.not_mem_nil, or_false] at he
  rcases he with rfl | rfl | rfl | rfl | rfl | rfl | rfl | rfl | rfl <;>
    simp only [JsonTree.floats, floats_texts, floats_strs, List.mem_singleton, List.not_mem_nil]
      at hrepr
  exact hrepr ▸ FloatRuntime.isFloatRepr p.createdAtUnix

theorem Payload.keys_fields (p : Payload F) : p.fields.map Prod.fst =
    ["version", "created_at_unix", "risk_state", "config_hash", "last_event_sequence",
      "positions", "open_order_ids", "reservations", "event_chain_hash"].map Text.of := rfl

/-- Two payloads that say the same, in any order. -/
structure Payload.Alike (p p' : Payload F) : Prop where
  version : p.version = p'.version
  createdAtUnix : p.createdAtUnix = p'.createdAtUnix
  riskState : p.riskState = p'.riskState
  configHash : p.configHash = p'.configHash
  lastEventSequence : p.lastEventSequence = p'.lastEventSequence
  positions : p.positions.items.Perm p'.positions.items
  openOrderIds : p.openOrderIds.Perm p'.openOrderIds
  reservations : p.reservations.items.Perm p'.reservations.items
  eventChainHash : p.eventChainHash = p'.eventChainHash

theorem Payload.fields_inj {p p' : Payload F} :
    p.fields = p'.fields ↔ p.Alike p' ∧ p.openOrderIds = p'.openOrderIds := by
  simp only [fields, List.cons.injEq, Prod.mk.injEq, true_and, and_true, JsonTree.int.injEq,
    JsonTree.float.injEq, JsonTree.str.injEq, JsonTree.dict.injEq, JsonTree.list.injEq,
    FloatRuntime.repr_injective.eq_iff, texts_injective.eq_iff, strs_injective.eq_iff,
    TextDict.items_inj, TextDict.sorted_inj]
  constructor
  · rintro ⟨hversion, hcreated, hrisk, hconfig, hsequence, hpositions, hids, hreserved, hchain⟩
    exact ⟨⟨hversion, hcreated, hrisk, hconfig, hsequence, hpositions, .of_eq hids, hreserved,
      hchain⟩, hids⟩
  · rintro ⟨⟨hversion, hcreated, hrisk, hconfig, hsequence, hpositions, -, hreserved, hchain⟩, hids⟩
    exact ⟨hversion, hcreated, hrisk, hconfig, hsequence, hpositions, hids, hreserved, hchain⟩

/-- **The tree of a payload** tells what it says. -/
theorem Payload.tree_inj {p p' : Payload F} : p.value.tree false = p'.value.tree false ↔
    p.Alike p' ∧ p.openOrderIds = p'.openOrderIds := by
  rw [tree_value, tree_value, Except.ok.injEq, JsonTree.dict.injEq, ← fields_inj]
  constructor
  · intro h
    have hperm := List.perm_insertionSort (fun e e' : Text × JsonTree => e.1.le e'.1) p.fields
    have hperm' := List.perm_insertionSort (fun e e' : Text × JsonTree => e.1.le e'.1) p'.fields
    refine eq_of_perm_of_keys ((hperm.symm.trans (.of_eq h)).trans hperm') rfl ?_
    rw [keys_fields]
    decide
  · intro h
    rw [h]

omit [PyFloatRepr] [FloatRuntime F] in
theorem Payload.normalized_alike (p : Payload F) : p.normalized.Alike p :=
  ⟨rfl, rfl, rfl, rfl, rfl, List.perm_insertionSort _ _, List.perm_insertionSort _ _,
    List.perm_insertionSort _ _, rfl⟩

omit [PyFloatRepr] [FloatRuntime F] in
theorem Payload.Alike.symm {p p' : Payload F} (h : p.Alike p') : p'.Alike p :=
  ⟨h.version.symm, h.createdAtUnix.symm, h.riskState.symm, h.configHash.symm,
    h.lastEventSequence.symm, h.positions.symm, h.openOrderIds.symm, h.reservations.symm,
    h.eventChainHash.symm⟩

omit [PyFloatRepr] [FloatRuntime F] in
theorem Payload.Alike.trans {p p' p'' : Payload F} (h : p.Alike p') (h' : p'.Alike p'') :
    p.Alike p'' :=
  ⟨h.version.trans h'.version, h.createdAtUnix.trans h'.createdAtUnix,
    h.riskState.trans h'.riskState, h.configHash.trans h'.configHash,
    h.lastEventSequence.trans h'.lastEventSequence, h.positions.trans h'.positions,
    h.openOrderIds.trans h'.openOrderIds, h.reservations.trans h'.reservations,
    h.eventChainHash.trans h'.eventChainHash⟩

omit [PyFloatRepr] [FloatRuntime F] in
/-- Normalized, payloads are the same if they say the same. -/
theorem Payload.normalized_inj {p p' : Payload F} : p.normalized = p'.normalized ↔ p.Alike p' := by
  constructor
  · intro h
    exact p.normalized_alike.symm.trans (h ▸ p'.normalized_alike)
  · intro h
    have hids : p.openOrderIds.insertionSort Text.le = p'.openOrderIds.insertionSort Text.le :=
      insertionSort_congr h.openOrderIds fun _ _ _ _ => Text.le_antisymm
    simp only [normalized, hids, TextDict.sorted_inj.mpr h.positions,
      TextDict.sorted_inj.mpr h.reservations, h.version, h.createdAtUnix, h.riskState,
      h.configHash, h.lastEventSequence, h.eventChainHash]

end Signed

/-! ## 3. Creating and verifying -/

theorem compareDigest_eq_true_iff {a : String} (ha : (Text.of a).all (·.ord < 128) = true)
    {b : Text} : compareDigest (Text.of a) b = .ok true ↔ b = Text.of a := by
  rw [compareDigest, ha, Bool.true_and]
  constructor
  · intro h
    split at h
    · exact (eq_of_beq (Except.ok.inj h)).symm
    · exact nomatch h
  · rintro rfl
    rw [ha, if_pos rfl, beq_self_eq_true]

section Verified

variable {F : Type} [PyFloatRepr] [FloatRuntime F] [DigestRuntime] {secret : Bytes}

/-- What is written about a payload. -/
def Payload.Writes (p : Payload F) (text : String) : Prop :=
  p.value.bytes { ensureAscii := false } = .ok text

/-- No two texts that may be written about them have the same signature. -/
def TellsApart (secret : Bytes) (p p' : Payload F) : Prop :=
  ∀ text text', p.Writes text → p'.Writes text' →
    DigestRuntime.hmac secret (Hashlib.sha256 text) =
      DigestRuntime.hmac secret (Hashlib.sha256 text') → text = text'

theorem Payload.hash_eq_ok_iff {p : Payload F} {hash : String} :
    p.hash = .ok hash ↔ ∃ text, p.Writes text ∧ Hashlib.sha256 text = hash := by
  rw [Payload.hash]
  unfold Writes
  cases p.value.bytes { ensureAscii := false } with
  | ok text => simp
  | error e => simp

/-- What is in a checkpoint that has been created. -/
theorem createRuntimeCheckpoint_eq_ok_iff {p : Payload F} {c : RuntimeCheckpoint F} :
    createRuntimeCheckpoint secret p = .ok c ↔ secret ≠ [] ∧ 0 ≤ p.lastEventSequence ∧
      ∃ hash, p.normalized.hash = .ok hash ∧ c = {
        p.normalized with
        payloadHash := Text.of hash
        signature := Text.of (DigestRuntime.hmac secret hash) } := by
  unfold createRuntimeCheckpoint
  split_ifs with hsecret hsequence
  · simp [hsecret]
  · simp [hsequence]
  · cases p.normalized.hash with
    | error e => simp
    | ok hash => simp [hsecret, not_lt.mp hsequence, eq_comm]

theorem verifyRuntimeCheckpoint_eq_true_iff {c : RuntimeCheckpoint F} :
    verifyRuntimeCheckpoint c secret = .ok true ↔ ∃ hash, c.toPayload.hash = .ok hash ∧
      c.payloadHash = Text.of hash ∧ c.signature = Text.of (DigestRuntime.hmac secret hash) := by
  unfold verifyRuntimeCheckpoint
  cases hhash : c.toPayload.hash with
  | error e => simp
  | ok hash =>
    obtain ⟨text, -, rfl⟩ := Payload.hash_eq_ok_iff.mp hhash
    have hascii := DigestRuntime.isAscii_sha256 text
    have hascii' := DigestRuntime.isAscii_hmac secret (Hashlib.sha256 text)
    have hsame := @compareDigest_eq_true_iff _ hascii c.payloadHash
    simp only [ok_bind, Except.ok.injEq, exists_eq_left']
    rw [← hsame, ← compareDigest_eq_true_iff hascii']
    cases compareDigest (Text.of (Hashlib.sha256 text)) c.payloadHash with
    | error e => simp
    | ok same =>
      cases same with
      | false => simp
      | true => simp

/-- What has been created is verified. -/
theorem verify_created {p : Payload F} {c : RuntimeCheckpoint F}
    (h : createRuntimeCheckpoint secret p = .ok c) :
    verifyRuntimeCheckpoint c secret = .ok true := by
  obtain ⟨-, -, hash, hhash, rfl⟩ := createRuntimeCheckpoint_eq_ok_iff.mp h
  exact verifyRuntimeCheckpoint_eq_true_iff.mpr ⟨hash, hhash, rfl, rfl⟩

/-- **Signatures** of checkpoints are the same only if what is written about them is. -/
theorem writes_eq_of_signature {p p' : Payload F} {hash hash' : String}
    (happart : TellsApart secret p p') (hp : p.hash = .ok hash) (hp' : p'.hash = .ok hash')
    (h : Text.of (DigestRuntime.hmac secret hash) = Text.of (DigestRuntime.hmac secret hash')) :
    p.Alike p' ∧ p.openOrderIds = p'.openOrderIds := by
  obtain ⟨text, htext, rfl⟩ := Payload.hash_eq_ok_iff.mp hp
  obtain ⟨text', htext', rfl⟩ := Payload.hash_eq_ok_iff.mp hp'
  obtain rfl := happart text text' htext htext' (Text.of_injective h)
  exact Payload.tree_inj.mp (tree_eq_of_bytes p.floatsRead p'.floatsRead htext htext')

/-- **Two checkpoints** have the same signature if and only if they say the same. -/
theorem signature_eq_iff {p p' : Payload F} {c c' : RuntimeCheckpoint F}
    (happart : TellsApart secret p.normalized p'.normalized)
    (h : createRuntimeCheckpoint secret p = .ok c)
    (h' : createRuntimeCheckpoint secret p' = .ok c') :
    c.signature = c'.signature ↔ p.Alike p' := by
  obtain ⟨-, -, hash, hhash, rfl⟩ := createRuntimeCheckpoint_eq_ok_iff.mp h
  obtain ⟨-, -, hash', hhash', rfl⟩ := createRuntimeCheckpoint_eq_ok_iff.mp h'
  constructor
  · intro hsignature
    have halike := (writes_eq_of_signature happart hhash hhash' hsignature).1
    exact (p.normalized_alike.symm.trans halike).trans p'.normalized_alike
  · intro halike
    rw [Payload.normalized_inj.mpr halike] at hhash
    obtain rfl := Except.ok.inj (hhash.symm.trans hhash')
    rfl

end Verified

section Example

/-- A text is read as it is. -/
@[reducible] def verbatim : PyFloatRepr := ⟨id⟩

attribute [local instance] verbatim

/-- The floats of the examples. -/
inductive Second
  | before
  | zero
  | one

instance seconds : FloatRuntime Second where
  repr
    | .before => "-1.0"
    | .zero => "0.0"
    | .one => "1.0"
  sub
    | .zero, .one => .before
    | .before, .zero => .before
    | .before, .one => .before
    | .one, .zero => .one
    | .one, .before => .one
    | .zero, .before => .one
    | _, _ => .zero
  lt
    | .before, .zero => true
    | .before, .one => true
    | .zero, .one => true
    | _, _ => false
  zero := .zero
  repr_injective := by
    intro x y h
    cases x <;> cases y <;> first | rfl | exact absurd h (by decide)
  isFloatRepr x := by cases x <;> exact .inr ⟨List.all_eq_true.mp rfl, rfl⟩

/-- A text in quotes, in ASCII: no two texts have the same. -/
def asciiText (text : String) : String := (quote true (Text.of text)).chars

theorem of_asciiText (text : String) : Text.of (asciiText text) = quote true (Text.of text) := by
  obtain ⟨s, hs⟩ := (encodable_quote_ascii (Text.of text)).exists_of
  rw [asciiText, hs, Text.chars_of]

theorem isAscii_asciiText (text : String) :
    (Text.of (asciiText text)).all (·.ord < 128) = true := by
  rw [of_asciiText, List.all_eq_true]
  intro c hc
  have hprintable := (printable_quote (Text.of text) c hc).2
  exact decide_eq_true (by omega)

theorem asciiText_injective : Function.Injective asciiText := by
  intro text text' h
  have hquotes : quote true (Text.of text) ++ [] = quote true (Text.of text') ++ [] := by
    rw [← of_asciiText, ← of_asciiText, h]
  exact Text.of_injective (Text.units_inj (Text.encodable_of text).noPair
    (Text.encodable_of text').noPair (quote_append_inj hquotes).1)

instance digests : DigestRuntime where
  sha256 := asciiText
  hmac secret text := asciiText ((hex secret).chars ++ text)
  isAscii_sha256 := isAscii_asciiText
  isAscii_hmac _ _ := isAscii_asciiText _

theorem tellsApart (secret : Bytes) (p p' : Payload Second) : TellsApart secret p p' := by
  intro text text' _ _ h
  exact asciiText_injective ((String.append_right_inj _).mp (asciiText_injective h))

/-- The ids of the orders can be given in two orders. -/
def openOrders (ids : List String) : Payload Second where
  version := 1
  createdAtUnix := .zero
  riskState := Text.of "NORMAL"
  configHash := Text.of "c0"
  lastEventSequence := 7
  positions := ⟨[(Text.of "BTC", Text.of "1"), (Text.of "ADA", Text.of "2")], by decide⟩
  openOrderIds := ids.map Text.of
  reservations := ⟨[], by decide⟩
  eventChainHash := Text.of "e7"

theorem alike_openOrders : (openOrders ["a", "b"]).Alike (openOrders ["b", "a"]) :=
  ⟨rfl, rfl, rfl, rfl, rfl, .rfl, .swap _ _ _, .rfl, rfl⟩

theorem create_openOrders (ids : List String)
    (h : ∃ text, (openOrders ids).normalized.Writes text) :
    ∃ c, createRuntimeCheckpoint [1] (openOrders ids) = .ok c := by
  obtain ⟨text, htext⟩ := h
  exact ⟨_, createRuntimeCheckpoint_eq_ok_iff.mpr
    ⟨by decide, by simp [openOrders], _, Payload.hash_eq_ok_iff.mpr ⟨text, htext, rfl⟩, rfl⟩⟩

set_option maxRecDepth 4096 in
theorem create_two : ∃ c, createRuntimeCheckpoint [1] (openOrders ["a", "b"]) = .ok c :=
  create_openOrders _ ⟨_, rfl⟩

set_option maxRecDepth 4096 in
/-- Given in another order the ids are signed alike, and with a repetition they are not. -/
theorem signature_eq_iff_repeated : ∃ c c' d : RuntimeCheckpoint Second,
    createRuntimeCheckpoint [1] (openOrders ["a", "b"]) = .ok c ∧
      createRuntimeCheckpoint [1] (openOrders ["b", "a"]) = .ok c' ∧
      createRuntimeCheckpoint [1] (openOrders ["a", "b", "b"]) = .ok d ∧
      c.signature = c'.signature ∧ c.signature ≠ d.signature := by
  obtain ⟨c, hc⟩ := create_two
  obtain ⟨c', hc'⟩ := create_openOrders ["b", "a"] ⟨_, rfl⟩
  obtain ⟨d, hd⟩ := create_openOrders ["a", "b", "b"] ⟨_, rfl⟩
  refine ⟨c, c', d, hc, hc', hd, (signature_eq_iff (tellsApart _ _ _) hc hc').mpr
    alike_openOrders, fun hsignature => ?_⟩
  have halike := (signature_eq_iff (tellsApart _ _ _) hc hd).mp hsignature
  exact absurd halike.openOrderIds.length_eq (by decide)

end Example

/-! ## 4. Restoring -/

section Restored

variable {F : Type} [PyFloatRepr] [FloatRuntime F] [DigestRuntime] {secret : Bytes}

/-- It is where the system is, and neither stale nor from the future. -/
structure Payload.Due (p : Payload F) (current : Current F) : Prop where
  notFuture :
    FloatRuntime.lt (FloatRuntime.sub current.nowUnix p.createdAtUnix) (FloatRuntime.zero : F) =
      false
  notStale : FloatRuntime.lt current.maxCheckpointAgeSeconds
    (FloatRuntime.sub current.nowUnix p.createdAtUnix) = false
  configHash : p.configHash = current.configHash
  eventSequence : p.lastEventSequence = current.eventSequence
  eventChainHash : p.eventChainHash = current.eventChainHash

omit [DigestRuntime] in
theorem Payload.Due.of_alike {p p' : Payload F} {current : Current F} (h : p.Due current)
    (halike : p.Alike p') : p'.Due current where
  notFuture := halike.createdAtUnix ▸ h.notFuture
  notStale := halike.createdAtUnix ▸ h.notStale
  configHash := halike.configHash ▸ h.configHash
  eventSequence := halike.lastEventSequence ▸ h.eventSequence
  eventChainHash := halike.eventChainHash ▸ h.eventChainHash

/-- What the decision is, once it is known whether the checkpoint is verified. -/
theorem evaluateRestore_spec {c : RuntimeCheckpoint F} {current : Current F} {verified : Bool}
    (h : verifyRuntimeCheckpoint c secret = .ok verified) :
    ∃ d, evaluateRestore c secret current = .ok d ∧
      (d.allowed = true ↔ verified = true ∧ c.toPayload.Due current) := by
  unfold evaluateRestore
  simp only [h, ok_bind, pure_eq_ok, Except.ok.injEq, exists_eq_left', List.isEmpty_iff,
    List.append_eq_nil_iff, ite_eq_right_iff, List.cons_ne_nil, imp_false, Bool.not_eq_true,
    Bool.not_eq_false', ne_eq, not_not]
  constructor
  · rintro ⟨⟨⟨⟨⟨hfuture, hstale⟩, hverified⟩, hconfig⟩, hsequence⟩, hchain⟩
    exact ⟨hverified, hfuture, hstale, hconfig, hsequence, hchain⟩
  · rintro ⟨hverified, hfuture, hstale, hconfig, hsequence, hchain⟩
    exact ⟨⟨⟨⟨⟨hfuture, hstale⟩, hverified⟩, hconfig⟩, hsequence⟩, hchain⟩

/-- **What has been created** is restored where the system is as it was then, in time. -/
theorem restore_created_iff {p : Payload F} {c : RuntimeCheckpoint F} {current : Current F}
    (h : createRuntimeCheckpoint secret p = .ok c) :
    ∃ d, evaluateRestore c secret current = .ok d ∧ (d.allowed = true ↔ p.Due current) := by
  obtain ⟨d, hd, hallowed⟩ := @evaluateRestore_spec _ _ _ _ _ c current _ (verify_created h)
  obtain ⟨-, -, hash, -, rfl⟩ := createRuntimeCheckpoint_eq_ok_iff.mp h
  refine ⟨d, hd, hallowed.trans ?_⟩
  rw [eq_self, true_and]
  exact ⟨(·.of_alike p.normalized_alike), (·.of_alike p.normalized_alike.symm)⟩

end Restored

section Example

attribute [local instance] verbatim

/-- A second later, where the checkpoint has been made. -/
def afterwards : Current Second where
  nowUnix := .one
  configHash := Text.of "c0"
  eventSequence := 7
  eventChainHash := Text.of "e7"
  maxCheckpointAgeSeconds := .one

theorem due_afterwards : (openOrders ["a", "b"]).Due afterwards := ⟨rfl, rfl, rfl, rfl, rfl⟩

theorem restore_created_iff_afterwards : ∃ c d,
    createRuntimeCheckpoint [1] (openOrders ["a", "b"]) = .ok c ∧
      evaluateRestore c [1] afterwards = .ok d ∧ d.allowed = true := by
  obtain ⟨c, hc⟩ := create_two
  obtain ⟨d, hd, hallowed⟩ := restore_created_iff hc
  exact ⟨c, d, hc, hd, hallowed.mpr due_afterwards⟩

end Example

section Sound

variable {F : Type} [PyFloatRepr] [FloatRuntime F] [DigestRuntime] {secret : Bytes}

/-- **What is restored** with a signature that has been made, whoever hands it in. -/
theorem restore_sound {given : List (Payload F)} {c : RuntimeCheckpoint F} {current : Current F}
    {d : RestoreDecision F}
    (hsigned : ∃ p ∈ given, ∃ c', createRuntimeCheckpoint secret p = .ok c' ∧
      c.signature = c'.signature)
    (happart : ∀ p ∈ given, TellsApart secret c.toPayload p.normalized)
    (h : evaluateRestore c secret current = .ok d) (hallowed : d.allowed = true) :
    ∃ p ∈ given, c.toPayload.Alike p ∧ p.Due current := by
  obtain ⟨p, hp, c', hc', hsignature⟩ := hsigned
  obtain ⟨-, -, hash', hhash', rfl⟩ := createRuntimeCheckpoint_eq_ok_iff.mp hc'
  -- it is verified, or the decision would be another one
  have hverified : verifyRuntimeCheckpoint c secret = .ok true ∧ c.toPayload.Due current := by
    cases hverify : verifyRuntimeCheckpoint c secret with
    | error e => simp [evaluateRestore, hverify] at h
    | ok verified =>
      obtain ⟨d', hd', hallowed'⟩ := @evaluateRestore_spec _ _ _ _ _ c current _ hverify
      obtain rfl := Except.ok.inj (h.symm.trans hd')
      obtain ⟨rfl, hdue⟩ := hallowed'.mp hallowed
      exact ⟨rfl, hdue⟩
  obtain ⟨hash, hhash, -, hmac⟩ := verifyRuntimeCheckpoint_eq_true_iff.mp hverified.1
  have halike := (writes_eq_of_signature (happart p hp) hhash hhash' (hmac ▸ hsignature)).1
  have halike := halike.trans p.normalized_alike
  exact ⟨p, hp, halike, hverified.2.of_alike halike⟩

end Sound

section Example

attribute [local instance] verbatim

theorem restore_sound_afterwards : ∃ c : RuntimeCheckpoint Second,
    c.toPayload.Alike (openOrders ["a", "b"]) ∧ (openOrders ["a", "b"]).Due afterwards := by
  obtain ⟨c, hc⟩ := create_two
  obtain ⟨-, -, hash, -, hfields⟩ := createRuntimeCheckpoint_eq_ok_iff.mp hc
  have hpayload : c.toPayload = (openOrders ["a", "b"]).normalized := by rw [hfields]
  have hdue : c.toPayload.Due afterwards :=
    hpayload ▸ due_afterwards.of_alike (openOrders ["a", "b"]).normalized_alike.symm
  obtain ⟨d, hd, hallowed⟩ := @evaluateRestore_spec _ _ _ _ _ c afterwards _ (verify_created hc)
  obtain ⟨p, hp, halike⟩ := @restore_sound _ _ _ _ [1] [openOrders ["a", "b"]] c afterwards d
    ⟨_, List.mem_singleton_self _, c, hc, rfl⟩
    (fun p hp => by
      rw [List.mem_singleton.mp hp, hpayload]
      exact tellsApart _ _ _)
    hd (hallowed.mpr ⟨rfl, hdue⟩)
  rw [List.mem_singleton.mp hp] at halike
  exact ⟨c, halike⟩

end Example

end Kripto.Recovery
