/-
# Audit records

What an audit entry is hashed with: `core/audit.py` and `database/audit_store.py` write the same
eight fields as canonical JSON.
-/
import Kripto.Effect.Chain
import Kripto.Effect.Outcome
import Kripto.Python.Units

namespace Kripto.Audit

open Effect Python

/-- The eight fields. -/
structure Record where
  previousHash : Text
  actor : Text
  action : Text
  objectRef : Text
  correlationId : Text
  timestamp : Text
  reason : Text
  releaseVersion : Text

def Record.payload (r : Record) : Dict :=
  [(.str (Text.of "previous_hash"), .str r.previousHash), (.str (Text.of "actor"), .str r.actor),
    (.str (Text.of "action"), .str r.action), (.str (Text.of "object_ref"), .str r.objectRef),
    (.str (Text.of "correlation_id"), .str r.correlationId),
    (.str (Text.of "timestamp"), .str r.timestamp), (.str (Text.of "reason"), .str r.reason),
    (.str (Text.of "release_version"), .str r.releaseVersion)]

/-- The fields in the order of their keys. -/
def Record.sorted (r : Record) : List (Text × Text) :=
  [(Text.of "action", r.action), (Text.of "actor", r.actor),
    (Text.of "correlation_id", r.correlationId), (Text.of "object_ref", r.objectRef),
    (Text.of "previous_hash", r.previousHash), (Text.of "reason", r.reason),
    (Text.of "release_version", r.releaseVersion), (Text.of "timestamp", r.timestamp)]

theorem dumps_payload (r : Record) : (PyValue.dict r.payload).dumps {} =
    .ok (writeDict true (r.sorted.map fun e => (e.1, quote true e.2))) := by
  simp only [Record.payload, PyValue.dumps, dumpsFields]
  rfl

/-- The canonical JSON of a record. -/
def Record.json (r : Record) : String :=
  (writeDict true (r.sorted.map fun e => (e.1, quote true e.2))).chars

theorem encodable_record (r : Record) :
    (writeDict true (r.sorted.map fun e => (e.1, quote true e.2))).Encodable := by
  refine encodable_writeDict fun e he => ?_
  obtain ⟨field, hfield, rfl⟩ := List.mem_map.mp he
  refine ⟨?_, encodable_quote_ascii field.2⟩
  simp only [Record.sorted, List.mem_cons, List.not_mem_nil, or_false] at hfield
  rcases hfield with rfl | rfl | rfl | rfl | rfl | rfl | rfl | rfl <;> exact Text.encodable_of _

theorem bytes_payload (r : Record) : (PyValue.dict r.payload).bytes {} = .ok r.json := by
  rw [PyValue.bytes, dumps_payload, ok_bind, (encodable_record r).encode]
  rfl

/-- The code units of the fields. -/
def Record.units (r : Record) : List (List ℕ) := r.sorted.map fun e => e.2.units

/-- No two surrogates in a field make a pair. -/
def Record.NoPair (r : Record) : Prop := ∀ e ∈ r.sorted, e.2.NoPair

/-- **The canonical JSON** of a record determines the code units of its fields, and nothing else. -/
theorem Record.json_eq_iff {r r' : Record} : r.json = r'.json ↔ r.units = r'.units := by
  constructor
  · intro h
    refine writeDict_inj (by rfl) ?_
    obtain ⟨s, hs⟩ := (encodable_record r).exists_of
    obtain ⟨s', hs'⟩ := (encodable_record r').exists_of
    rw [Record.json, Record.json, hs, hs', Text.chars_of, Text.chars_of] at h
    rw [hs, hs', h]
  · intro h
    simp only [Record.units, Record.sorted, List.map_cons, List.map_nil, List.cons.injEq,
      and_true] at h
    obtain ⟨haction, hactor, hcorrelation, hobject, hprevious, hreason, hrelease, htime⟩ := h
    simp only [Record.json, Record.sorted, List.map_cons, List.map_nil, quote_congr haction,
      quote_congr hactor, quote_congr hcorrelation, quote_congr hobject, quote_congr hprevious,
      quote_congr hreason, quote_congr hrelease, quote_congr htime]

theorem Record.previousHash_units {r r' : Record} (h : r.units = r'.units) :
    r.previousHash.units = r'.previousHash.units :=
  Option.some.inj (congrArg (fun units => units[4]?) h)

theorem Record.eq_of_units {r r' : Record} (hr : r.NoPair) (hr' : r'.NoPair)
    (h : r.units = r'.units) : r = r' := by
  have hfields : r.sorted = r'.sorted := by
    refine List.ext_getElem (by rfl) fun i hi hi' => Prod.ext ?_ ?_
    · have hkeys : r.sorted.map Prod.fst = r'.sorted.map Prod.fst := rfl
      simpa [hi, hi'] using congrArg (fun keys => keys[i]?) hkeys
    · have hunits := congrArg (fun units => units[i]?) h
      simp only [Record.units, List.getElem?_map, List.getElem?_eq_getElem hi,
        List.getElem?_eq_getElem hi', Option.map_some, Option.some.injEq] at hunits
      exact Text.units_inj (hr _ (List.getElem_mem hi)) (hr' _ (List.getElem_mem hi')) hunits
  cases r
  cases r'
  simp only [Record.sorted, List.cons.injEq, Prod.mk.injEq, true_and, and_true] at hfields
  obtain ⟨rfl, rfl, rfl, rfl, rfl, rfl, rfl, rfl⟩ := hfields
  rfl

variable [Hashlib]

/-- `hashlib.sha256(json.dumps(payload, ..).encode()).hexdigest()`. -/
def Record.hash (r : Record) : Except DumpError String := do
  return Hashlib.sha256 (← (PyValue.dict r.payload).bytes {})

theorem Record.hash_eq (r : Record) : r.hash = .ok (Hashlib.sha256 r.json) := by
  rw [Record.hash, bytes_payload]
  rfl

end Kripto.Audit
