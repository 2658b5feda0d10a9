/-
# The metadata of a symbol through time

`universe/manager.py`, `SymbolMetadataHistory`: what was known of a symbol from which time on.  A
version is named by the beginning of a digest of its content, and what is recorded twice is kept
once.

* `json_alike`: the text that is hashed determines the content up to the code units of its texts;
* `RecordedFrom`: in a bucket the versions stand in the order of their times, one for each time at
  which one was recorded.
-/
import Kripto.Effect.Outcome
import Kripto.Effect.Sorting
import Kripto.Effect.Totals
import Kripto.Execution.PreTrade
import Kripto.Python.Units
import Kripto.Python.Parts

namespace Kripto.Universe

open Effect Python
open Execution (DateTime)

/-! ## 1. Contents -/

inductive Exc
  | valueError (msg : String)
  | lookupError (msg : Text)
  | dump (e : DumpError)
  deriving DecidableEq

class PyUpper where
  upper : Text → Text

/-- `str` of an object. -/
class PyObject (O : Type) where
  str : O → Text

/-- One of the filters in a list. -/
inductive FilterItem (O : Type)
  | dict (items : List (Text × O))
  | other (item : O)

/-- `filters`: a dict, or a list or tuple. -/
inductive Filters (O : Type)
  | dict (items : List (Text × O))
  | items (items : List (FilterItem O))

section Contents

variable {O : Type} [PyObject O]

/-- `items.append((f'{prefix}.{key}', str(value)))` for the items of a dict, by their keys. -/
def filterItems : FilterItem O → List (Text × Text)
  | .dict items =>
    let kind := match items.lookup (Text.of "filterType") with
      | some value => PyObject.str value
      | none => Text.of "FILTER"
    (items.insertionSort fun e e' => e.1.le e'.1).map fun e =>
      (kind ++ .scalar '.' :: e.1, PyObject.str e.2)
  | .other item => [(Text.of "value", PyObject.str item)]

/-- Pairs are compared by their first texts, then by their second. -/
def pairLe (e e' : Text × Text) : Prop := e.1 = e'.1 ∧ e.2.le e'.2 ∨ e.1 ≠ e'.1 ∧ e.1.le e'.1

instance pairLe.decidable : DecidableRel pairLe := fun e e' =>
  inferInstanceAs (Decidable (e.1 = e'.1 ∧ e.2.le e'.2 ∨ e.1 ≠ e'.1 ∧ e.1.le e'.1))

def canonicalFilters : Filters O → List (Text × Text)
  | .dict items => (items.map fun e => (e.1, PyObject.str e.2)).insertionSort pairLe
  | .items items => (items.flatMap filterItems).insertionSort pairLe

end Contents

/-- What a version is named after. -/
structure Content where
  symbol : Text
  metadataSource : Text
  pricePrecision : Option ℤ
  quantityPrecision : Option ℤ
  filters : List (Text × Text)
  deriving DecidableEq

namespace Content

def precision : Option ℤ → PyValue
  | none => .none
  | some n => .int n

def payload (c : Content) : PyValue :=
  .dict [(.str (Text.of "symbol"), .str c.symbol),
    (.str (Text.of "metadata_source"), .str c.metadataSource),
    (.str (Text.of "price_precision"), precision c.pricePrecision),
    (.str (Text.of "quantity_precision"), precision c.quantityPrecision),
    (.str (Text.of "filters"), .tuple (c.filters.map fun e => .tuple [.str e.1, .str e.2]))]

/-! ### The text of a content -/

def pairText (e : Text × Text) : Text :=
  (Text.of "[" ++ (quote true e.1 ++ Text.of ",")) ++ (quote true e.2 ++ Text.of "]")

def precisionText : Option ℤ → Text
  | none => Text.of "null"
  | some n => Text.of (toString n)

/-- A key, with what stands before it. -/
def start (before name : String) : Text :=
  Text.of before ++ (quote true (Text.of name) ++ Text.of ":")

/-- `json.dumps(payload, sort_keys=True, separators=(',', ':'))`, part by part. -/
def text (c : Content) : Text :=
  (start "\x7b" "filters" ++ writeList (c.filters.map pairText)) ++
    ((start "," "metadata_source" ++ quote true c.metadataSource) ++
      ((start "," "price_precision" ++ (precisionText c.pricePrecision ++ [.scalar ','])) ++
        ((start "" "quantity_precision" ++ (precisionText c.quantityPrecision ++ [.scalar ','])) ++
          (start "" "symbol" ++ (quote true c.symbol ++ Text.of "\x7d")))))

def json (c : Content) : String := c.text.chars

theorem dumps_precision (p : Option ℤ) : (precision p).dumps {} = .ok (precisionText p) := by
  cases p <;> rfl

theorem dumps_pairs (pairs : List (Text × Text)) :
    dumpsItems {} (pairs.map fun e => .tuple [.str e.1, .str e.2]) = .ok (pairs.map pairText) := by
  induction pairs with
  | nil => rfl
  | cons e pairs ih =>
    rw [List.map_cons, dumpsItems, ih]
    simp only [PyValue.dumps, dumpsItems, pure_eq_ok, ok_bind, writeList, commas, List.map_cons,
      pairText, List.append_assoc]
    rfl

theorem dumps_payload (c : Content) : c.payload.dumps {} = .ok c.text := by
  have hsorted : sortKeys [(Key.str (Text.of "symbol"), quote true c.symbol),
      (.str (Text.of "metadata_source"), quote true c.metadataSource),
      (.str (Text.of "price_precision"), precisionText c.pricePrecision),
      (.str (Text.of "quantity_precision"), precisionText c.quantityPrecision),
      (.str (Text.of "filters"), writeList (c.filters.map pairText))] =
      .ok [(Text.of "filters", writeList (c.filters.map pairText)),
        (Text.of "metadata_source", quote true c.metadataSource),
        (Text.of "price_precision", precisionText c.pricePrecision),
        (Text.of "quantity_precision", precisionText c.quantityPrecision),
        (Text.of "symbol", quote true c.symbol)] := rfl
  simp only [payload, PyValue.dumps, dumpsFields, dumps_precision, dumps_pairs, pure_eq_ok, ok_bind,
    hsorted]
  simp only [writeDict, text, start, commas, List.map_cons, List.map_nil, List.append_assoc,
    List.cons_append]
  rfl

theorem encodable_text (c : Content) : c.text.Encodable := by
  have hprecision : ∀ p, (precisionText p).Encodable := by
    intro p
    cases p <;> exact Text.encodable_of _
  have hquote := encodable_quote_ascii
  have hpair : ∀ e, (pairText e).Encodable := fun e =>
    ((Text.encodable_of _).append ((hquote e.1).append (Text.encodable_of _))).append
      ((hquote e.2).append (Text.encodable_of _))
  have hpairs : (writeList (c.filters.map pairText)).Encodable := by
    refine encodable_writeList fun part hpart => ?_
    obtain ⟨e, -, rfl⟩ := List.mem_map.mp hpart
    exact hpair e
  have hcomma : Text.Encodable [.scalar ','] := Text.encodable_of ","
  have hstart : ∀ before name, (start before name).Encodable := fun _ _ =>
    (Text.encodable_of _).append ((hquote _).append (Text.encodable_of _))
  exact ((hstart _ _).append hpairs).append (((hstart _ _).append (hquote _)).append
    (((hstart _ _).append ((hprecision _).append hcomma)).append
      (((hstart _ _).append ((hprecision _).append hcomma)).append
        ((hstart _ _).append ((hquote _).append (Text.encodable_of _))))))

theorem bytes_payload (c : Content) : c.payload.bytes {} = .ok c.json := by
  rw [PyValue.bytes, dumps_payload, ok_bind, c.encodable_text.encode]
  rfl

/-- The same, but for how a character beyond the 16-bit ones stands in a text. -/
structure Alike (c c' : Content) : Prop where
  symbol : c.symbol.units = c'.symbol.units
  metadataSource : c.metadataSource.units = c'.metadataSource.units
  pricePrecision : c.pricePrecision = c'.pricePrecision
  quantityPrecision : c.quantityPrecision = c'.quantityPrecision
  filters : List.Forall₂ (fun e e' => e.1.units = e'.1.units ∧ e.2.units = e'.2.units) c.filters
    c'.filters

theorem determines_precision :
    Determines (fun p => precisionText p ++ [.scalar ',']) (fun p p' : Option ℤ => p = p') := by
  have hmem : ∀ s : String, .scalar ',' ∈ Text.of s → ',' ∈ s.toList := by
    intro s h
    obtain ⟨c, hc, heq⟩ := List.mem_map.mp h
    cases heq
    exact hc
  refine determines_comma ?_ ?_
  · intro p hcomma
    cases p with
    | none => exact absurd (hmem _ hcomma) (by decide)
    | some n => exact not_mem_toString (by decide) (by decide) n (hmem _ hcomma)
  · have hnull : ∀ n : ℤ, Text.of (toString n) ≠ Text.of "null" := by
      intro n h
      refine not_mem_toString (c := 'u') (by decide) (by decide) n ?_
      rw [Text.of_injective h]
      decide
    intro p p' h
    cases p with
    | none =>
      cases p' with
      | none => rfl
      | some n' => exact absurd h.symm (hnull n')
    | some n =>
      cases p' with
      | none => exact absurd h (hnull n)
      | some n' => rw [toString_int_injective (Text.of_injective h)]

theorem determines_filters :
    Determines (fun filters => writeList (filters.map pairText))
      (List.Forall₂ fun e e' => e.1.units = e'.1.units ∧ e.2.units = e'.2.units) := by
  have hpair : Determines pairText fun e e' => e.1.units = e'.1.units ∧ e.2.units = e'.2.units :=
    ((determines_quote.before (Text.of ",")).after (Text.of "[")).append
      (determines_quote.before (Text.of "]"))
  exact determines_list hpair fun e => ⟨_, rfl⟩

/-- **The text that is hashed** determines the content. -/
theorem json_alike {c c' : Content} (h : c.json = c'.json) : Alike c c' := by
  have htext : c.text = c'.text := by
    obtain ⟨s, hs⟩ := c.encodable_text.exists_of
    obtain ⟨s', hs'⟩ := c'.encodable_text.exists_of
    rw [json, json, hs, hs', Text.chars_of, Text.chars_of] at h
    rw [hs, hs', h]
  have hparts := (determines_filters.after (start "\x7b" "filters")).append
    ((determines_quote.after (start "," "metadata_source")).append
      ((determines_precision.after (start "," "price_precision")).append
        ((determines_precision.after (start "" "quantity_precision")).append
          ((determines_quote.before (Text.of "\x7d")).after (start "" "symbol")))))
  obtain ⟨hfilters, hsource, hprice, hquantity, hsymbol⟩ := hparts.rel
    (c.filters, c.metadataSource, c.pricePrecision, c.quantityPrecision, c.symbol)
    (c'.filters, c'.metadataSource, c'.pricePrecision, c'.quantityPrecision, c'.symbol) htext
  exact ⟨hsymbol, hsource, hprice, hquantity, hfilters⟩

/-- No text has two surrogates that make a pair. -/
structure NoPair (c : Content) : Prop where
  symbol : c.symbol.NoPair
  metadataSource : c.metadataSource.NoPair
  filters : ∀ e ∈ c.filters, e.1.NoPair ∧ e.2.NoPair

theorem Alike.eq {c c' : Content} (h : Alike c c') (hc : c.NoPair) (hc' : c'.NoPair) : c = c' := by
  have hfilters : c.filters = c'.filters := by
    have hpairs : ∀ l l' : List (Text × Text),
        List.Forall₂ (fun e e' => e.1.units = e'.1.units ∧ e.2.units = e'.2.units) l l' →
        (∀ e ∈ l, e.1.NoPair ∧ e.2.NoPair) → (∀ e ∈ l', e.1.NoPair ∧ e.2.NoPair) → l = l' := by
      intro l l' hll'
      induction hll' with
      | nil => intros; rfl
      | cons hee' _ ih =>
        intro hl hl'
        obtain ⟨hfst, hsnd⟩ := hl _ List.mem_cons_self
        obtain ⟨hfst', hsnd'⟩ := hl' _ List.mem_cons_self
        rw [ih (fun e he => hl e (List.mem_cons_of_mem _ he))
          fun e he => hl' e (List.mem_cons_of_mem _ he),
          Prod.ext (Text.units_inj hfst hfst' hee'.1) (Text.units_inj hsnd hsnd' hee'.2)]
    exact hpairs _ _ h.filters hc.filters hc'.filters
  have hsymbol := Text.units_inj hc.symbol hc'.symbol h.symbol
  have hsource := Text.units_inj hc.metadataSource hc'.metadataSource h.metadataSource
  have hprice := h.pricePrecision
  have hquantity := h.quantityPrecision
  cases c
  cases c'
  subst hsymbol hsource hfilters hprice hquantity
  rfl

end Content

/-! ## 2. The history -/

structure SymbolMetadataVersion extends Content where
  effectiveAt : ℤ
  version : String
  deriving DecidableEq

/-- The arguments of `record`. -/
structure RecordArgs (O : Type) where
  symbol : Text
  effectiveAt : DateTime
  metadataSource : Text
  filters : Filters O
  pricePrecision : Option ℤ
  quantityPrecision : Option ℤ

/-- `_aware(value)`, as an instant; a time without a zone is one of UTC. -/
def aware (value : DateTime) : ℤ := value.micros

structure SymbolMetadataHistory where
  versions : Table Text (List SymbolMetadataVersion)

namespace SymbolMetadataHistory

def new : SymbolMetadataHistory := ⟨∅⟩

/-- `self._versions.get(key, ())` -/
def bucket (self : SymbolMetadataHistory) (key : Text) : List SymbolMetadataVersion :=
  (self.versions.lookup key).getD []

/-- The bucket with one more version. -/
def place (bucket : List SymbolMetadataVersion) (entry : SymbolMetadataVersion) :
    Except Exc (List SymbolMetadataVersion) :=
  if ∃ existing ∈ bucket, existing.effectiveAt = entry.effectiveAt ∧
      existing.version ≠ entry.version then
    .error (.valueError "conflicting metadata for same effective timestamp")
  else if ∃ existing ∈ bucket, existing.effectiveAt = entry.effectiveAt ∧
      existing.version = entry.version then
    .ok bucket
  else .ok ((bucket ++ [entry]).insertionSort (ByKey (·.effectiveAt)))

variable {O : Type} [PyUpper] [PyObject O]

/-- The last version that is in force. -/
def eligible (self : SymbolMetadataHistory) (key : Text) (current : ℤ) :
    Option SymbolMetadataVersion :=
  ((self.bucket key).filter (·.effectiveAt ≤ current)).getLast?

def versionAt (self : SymbolMetadataHistory) (symbol : Text) (asOf : DateTime) :
    Except Exc SymbolMetadataVersion :=
  match self.eligible (PyUpper.upper symbol) (aware asOf) with
  | none => .error (.lookupError
      (Text.of "no metadata version available as_of for " ++ PyUpper.upper symbol))
  | some e => .ok e

/-- What is recorded. -/
def content (a : RecordArgs O) : Content where
  symbol := PyUpper.upper a.symbol
  metadataSource := a.metadataSource
  pricePrecision := a.pricePrecision
  quantityPrecision := a.quantityPrecision
  filters := canonicalFilters a.filters

variable [Hashlib]

/-- `hashlib.sha256(json.dumps(..).encode()).hexdigest()[:16]` -/
def versionOf (c : Content) : Except Exc String :=
  match c.payload.bytes {} with
  | .ok raw => .ok (String.ofList ((Hashlib.sha256 raw).toList.take 16))
  | .error e => .error (.dump e)

def record (self : SymbolMetadataHistory) (a : RecordArgs O) :
    Except Exc (SymbolMetadataVersion × SymbolMetadataHistory) := do
  let version ← versionOf (content a)
  let entry : SymbolMetadataVersion :=
    { content a with effectiveAt := aware a.effectiveAt, version := version }
  let bucket ← place (self.bucket (content a).symbol) entry
  return (entry, ⟨self.versions.insert (content a).symbol bucket⟩)

/-- The history that successful calls make. -/
def recordAll (calls : List (RecordArgs O)) : Except Exc SymbolMetadataHistory :=
  calls.foldlM (fun self a => return (← self.record a).2) new

/-! ## 3. What is in a bucket -/

/-- The version of a content. -/
def digest16 (c : Content) : String := String.ofList ((Hashlib.sha256 c.json).toList.take 16)

/-- What `record` returns. -/
def entryOf (a : RecordArgs O) : SymbolMetadataVersion :=
  { content a with effectiveAt := aware a.effectiveAt, version := digest16 (content a) }

variable {bucket bucket' : List SymbolMetadataVersion} {entry : SymbolMetadataVersion}

omit [PyUpper] [Hashlib] in
/-- **A version is placed** if none of the same time has another name. -/
theorem place_isOk_iff : (∃ bucket', place bucket entry = .ok bucket') ↔
    ∀ e ∈ bucket, e.effectiveAt = entry.effectiveAt → e.version = entry.version := by
  unfold place
  split_ifs with hconflict hsame
  · obtain ⟨existing, hmem, htime, hversion⟩ := hconflict
    refine iff_of_false (by simp) fun h => hversion (h existing hmem htime)
  all_goals
    refine iff_of_true ⟨_, rfl⟩ fun e he htime => ?_
    by_contra hversion
    exact hconflict ⟨e, he, htime, hversion⟩

/-- What placing a version does to a bucket. -/
structure Placed (bucket : List SymbolMetadataVersion) (entry : SymbolMetadataVersion)
    (bucket' : List SymbolMetadataVersion) : Prop where
  increasing : Increasing (·.effectiveAt) bucket'
  old : ∀ e ∈ bucket, e ∈ bucket'
  new : ∀ e ∈ bucket', e ∈ bucket ∨ e = entry
  has : ∃ e ∈ bucket', e.effectiveAt = entry.effectiveAt ∧ e.version = entry.version

omit [PyUpper] [Hashlib] in
theorem placed (hbucket : Increasing (·.effectiveAt) bucket)
    (h : place bucket entry = .ok bucket') : Placed bucket entry bucket' := by
  have hagree := place_isOk_iff.mp ⟨bucket', h⟩
  unfold place at h
  split_ifs at h with hconflict hsame
  · obtain rfl := Except.ok.inj h
    exact ⟨hbucket, fun _ he => he, fun _ he => .inl he, hsame⟩
  · obtain rfl := Except.ok.inj h
    have hmem : ∀ e, e ∈ (bucket ++ [entry]).insertionSort (ByKey (·.effectiveAt)) ↔
        e ∈ bucket ∨ e = entry := by
      intro e
      rw [List.mem_insertionSort, List.mem_append, List.mem_singleton]
    refine ⟨increasing_insertionSort ?_, fun e he => (hmem e).mpr (.inl he),
      fun e he => (hmem e).mp he, entry, (hmem entry).mpr (.inr rfl), rfl, rfl⟩
    rw [List.map_append, List.nodup_append']
    refine ⟨List.pairwise_map.mpr (hbucket.imp fun hlt => hlt.ne), List.nodup_singleton _, ?_⟩
    intro time hold hnew
    obtain ⟨e, he, rfl⟩ := List.mem_map.mp hold
    have htime : e.effectiveAt = entry.effectiveAt := by simpa using hnew
    exact hsame ⟨e, he, htime, hagree e he htime⟩

/-! ## 4. What successful calls have made -/

section Runs

variable {self self' : SymbolMetadataHistory} {calls more : List (RecordArgs O)} {a : RecordArgs O}

omit [PyUpper] [PyObject O] in
theorem versionOf_eq (c : Content) : versionOf c = .ok (digest16 c) := by
  rw [versionOf, c.bytes_payload]
  rfl

/-- A call that succeeds puts its version into the bucket of its symbol. -/
theorem record_eq_ok_iff {entry : SymbolMetadataVersion} :
    self.record a = .ok (entry, self') ↔ entry = entryOf a ∧
      ∃ b, place (self.bucket (content a).symbol) (entryOf a) = .ok b ∧
        self' = ⟨self.versions.insert (content a).symbol b⟩ := by
  rw [record, versionOf_eq, ok_bind, bind_eq_ok_iff]
  simp only [pure_eq_ok, Except.ok.injEq, Prod.mk.injEq]
  constructor
  · rintro ⟨b, hb, rfl, rfl⟩
    exact ⟨rfl, b, hb, rfl⟩
  · rintro ⟨rfl, b, hb, rfl⟩
    exact ⟨b, hb, rfl, rfl⟩

omit [PyUpper] [PyObject O] [Hashlib] in
@[simp] theorem bucket_new (key : Text) : new.bucket key = [] := rfl

omit [PyUpper] [PyObject O] [Hashlib] in
theorem bucket_insert (versions : Table Text (List SymbolMetadataVersion)) (key key' : Text)
    (b : List SymbolMetadataVersion) :
    SymbolMetadataHistory.bucket ⟨versions.insert key b⟩ key' =
      if key' = key then b else SymbolMetadataHistory.bucket ⟨versions⟩ key' := by
  unfold SymbolMetadataHistory.bucket
  by_cases hkey : key' = key
  · subst hkey
    simp
  · simp [hkey, AList.lookup_insert_ne hkey]

theorem turn_eq_ok_iff : (do return (← self.record a).2 : Except Exc SymbolMetadataHistory) =
    .ok self' ↔ ∃ b, place (self.bucket (content a).symbol) (entryOf a) = .ok b ∧
      self' = ⟨self.versions.insert (content a).symbol b⟩ := by
  rw [bind_eq_ok_iff]
  constructor
  · rintro ⟨⟨entry, self''⟩, hrecord, heq⟩
    obtain rfl := Except.ok.inj heq
    exact (record_eq_ok_iff.mp hrecord).2
  · rintro ⟨b, hb, rfl⟩
    exact ⟨(entryOf a, _), record_eq_ok_iff.mpr ⟨rfl, b, hb, rfl⟩, rfl⟩

/-- The buckets after some calls: in order, with what was recorded and nothing else. -/
structure RecordedFrom (calls : List (RecordArgs O)) (history : SymbolMetadataHistory) : Prop where
  increasing : ∀ key, Increasing (·.effectiveAt) (history.bucket key)
  recorded : ∀ key, ∀ e ∈ history.bucket key, ∃ a ∈ calls, e = entryOf a ∧ (content a).symbol = key
  kept : ∀ a ∈ calls, ∃ e ∈ history.bucket (content a).symbol,
    e.effectiveAt = (entryOf a).effectiveAt ∧ e.version = (entryOf a).version

theorem RecordedFrom.record (h : RecordedFrom calls self) {b : List SymbolMetadataVersion}
    (hb : place (self.bucket (content a).symbol) (entryOf a) = .ok b) :
    RecordedFrom (calls ++ [a]) ⟨self.versions.insert (content a).symbol b⟩ := by
  have hplaced := placed (h.increasing _) hb
  constructor
  · intro key
    rw [bucket_insert]
    split_ifs
    · exact hplaced.increasing
    · exact h.increasing key
  · intro key e he
    rw [bucket_insert] at he
    have hold : ∀ key, e ∈ self.bucket key →
        ∃ a' ∈ calls ++ [a], e = entryOf a' ∧ (content a').symbol = key := by
      intro key he
      obtain ⟨a', ha', hentry⟩ := h.recorded key e he
      exact ⟨a', List.mem_append_left _ ha', hentry⟩
    split_ifs at he with hkey
    · rcases hplaced.new e he with he | rfl
      · exact hold key (hkey ▸ he)
      · exact ⟨a, by simp, rfl, hkey.symm⟩
    · exact hold key he
  · intro a' ha'
    rw [bucket_insert]
    rcases List.mem_append.mp ha' with hold | hlast
    · obtain ⟨e, he, hsame⟩ := h.kept a' hold
      split_ifs with hkey
      · exact ⟨e, hplaced.old e (hkey ▸ he), hsame⟩
      · exact ⟨e, he, hsame⟩
    · rw [List.mem_singleton.mp hlast, if_pos rfl]
      exact hplaced.has

theorem recordedFrom (h : recordAll calls = .ok self) : RecordedFrom calls self := by
  refine foldlM_keeps (I := fun calls self => RecordedFrom calls self) ?_ ?_ h
  · exact ⟨fun _ => List.Pairwise.nil, by simp, by simp⟩
  · intro calls a self self' hself hturn
    obtain ⟨b, hb, rfl⟩ := turn_eq_ok_iff.mp hturn
    exact hself.record hb

/-- **No look-ahead.**  What takes effect later does not change what is answered. -/
theorem versionAt_append {asOf : DateTime} (h : recordAll calls = .ok self)
    (h' : recordAll (calls ++ more) = .ok self')
    (hlater : ∀ a ∈ more, aware asOf < aware a.effectiveAt) (symbol : Text) :
    self'.versionAt symbol asOf = self.versionAt symbol asOf := by
  rw [recordAll, List.foldlM_append, bind_eq_ok_iff] at h'
  obtain ⟨middle, hmiddle, hmore⟩ := h'
  obtain rfl : self = middle := Except.ok.inj (h.symm.trans hmiddle)
  -- the calls so far are in force: the later ones leave the versions until `asOf` alone
  have hsame : (∀ a ∈ more, aware asOf < aware a.effectiveAt) → ∀ key,
      Increasing (·.effectiveAt) (self'.bucket key) ∧
        ∀ e, e.effectiveAt ≤ aware asOf → (e ∈ self'.bucket key ↔ e ∈ self.bucket key) := by
    refine foldlM_keeps (I := fun more self' => (∀ a ∈ more, aware asOf < aware a.effectiveAt) →
      ∀ key, Increasing (·.effectiveAt) (self'.bucket key) ∧
        ∀ e, e.effectiveAt ≤ aware asOf → (e ∈ self'.bucket key ↔ e ∈ self.bucket key)) ?_ ?_ hmore
    · exact fun _ key => ⟨(recordedFrom h).increasing key, fun _ _ => Iff.rfl⟩
    · intro more a t t' ht hturn hlater key
      obtain ⟨b, hb, rfl⟩ := turn_eq_ok_iff.mp hturn
      have hbefore := ht fun a' ha' => hlater a' (List.mem_append_left _ ha')
      have hplaced := placed (hbefore _).1 hb
      rw [bucket_insert]
      split_ifs with hkey
      · subst hkey
        refine ⟨hplaced.increasing, fun e he => ?_⟩
        rw [← (hbefore _).2 e he]
        refine ⟨fun hmem => (hplaced.new e hmem).resolve_right ?_, hplaced.old e⟩
        rintro rfl
        exact absurd he (hlater a (by simp)).not_ge
      · exact hbefore key
  have hfilter : (self'.bucket (PyUpper.upper symbol)).filter (·.effectiveAt ≤ aware asOf) =
      (self.bucket (PyUpper.upper symbol)).filter (·.effectiveAt ≤ aware asOf) := by
    obtain ⟨hincreasing, hmem⟩ := hsame hlater (PyUpper.upper symbol)
    refine eq_of_increasing (hincreasing.filter _)
      (((recordedFrom h).increasing _).filter _) fun e => ?_
    rw [List.mem_filter, List.mem_filter, decide_eq_true_eq]
    exact and_congr_left fun he => hmem e he
  simp only [versionAt, eligible, hfilter]

/-- No two calls name one symbol and time differently. -/
def Compatible (calls : List (RecordArgs O)) : Prop :=
  ∀ a ∈ calls, ∀ a' ∈ calls, (content a).symbol = (content a').symbol →
    (entryOf a).effectiveAt = (entryOf a').effectiveAt → (entryOf a).version = (entryOf a').version

/-- **All calls succeed** exactly if they are compatible, in whatever order. -/
theorem recordAll_isOk_iff : (∃ self, recordAll calls = .ok self) ↔ Compatible calls := by
  constructor
  · rintro ⟨self, h⟩ a ha a' ha' hsymbol htime
    have hself := recordedFrom h
    obtain ⟨e, he, hetime, heversion⟩ := hself.kept a ha
    obtain ⟨e', he', hetime', heversion'⟩ := hself.kept a' ha'
    rw [hsymbol] at he
    obtain rfl := (hself.increasing _).eq_of_key he he' (by rw [hetime, hetime', htime])
    rw [← heversion, ← heversion']
  · intro hcompatible
    have hreturns : ∃ self, recordAll calls = .ok self ∧ RecordedFrom calls self := by
      refine foldlM_returns (I := fun calls self => RecordedFrom calls self)
        ⟨fun _ => List.Pairwise.nil, by simp, by simp⟩ ?_
      intro earlier a t hearlier ht
      have ha : a ∈ calls := hearlier.subset (by simp)
      obtain ⟨b, hb⟩ := place_isOk_iff.mpr fun e he htime => by
        obtain ⟨a', ha', rfl, hsymbol⟩ := ht.recorded _ e he
        exact hcompatible a' (hearlier.subset (by simp [ha'])) a ha hsymbol htime
      exact ⟨_, turn_eq_ok_iff.mpr ⟨b, hb, rfl⟩, ht.record hb⟩
    obtain ⟨self, h, -⟩ := hreturns
    exact ⟨self, h⟩

/-- Which version is the last one in force. -/
theorem eligible_eq_some_iff (h : RecordedFrom calls self) {key : Text} {current : ℤ}
    {e : SymbolMetadataVersion} : self.eligible key current = some e ↔
      (e ∈ self.bucket key ∧ e.effectiveAt ≤ current) ∧
        ∀ e' ∈ self.bucket key, e'.effectiveAt ≤ current → e'.effectiveAt ≤ e.effectiveAt := by
  have hlast := ((h.increasing key).filter
    fun e => e.effectiveAt ≤ current).getLast?_eq_some_iff (a := e)
  simpa only [eligible, List.mem_filter, decide_eq_true_eq, and_imp] using hlast

/-- Calls in another order answer with a version of the same time and name. -/
theorem eligible_of_mem_iff {calls' : List (RecordArgs O)} (h : RecordedFrom calls self)
    (h' : RecordedFrom calls' self') (hmem : ∀ a, a ∈ calls ↔ a ∈ calls') {key : Text} {current : ℤ}
    {e : SymbolMetadataVersion} (he : self.eligible key current = some e) :
    ∃ e', self'.eligible key current = some e' ∧ e'.effectiveAt = e.effectiveAt ∧
      e'.version = e.version ∧ (∃ a ∈ calls, e = entryOf a) ∧ ∃ a ∈ calls, e' = entryOf a := by
  obtain ⟨⟨hbucket, htime⟩, hlast⟩ := (eligible_eq_some_iff h).mp he
  obtain ⟨a, ha, rfl, rfl⟩ := h.recorded _ e hbucket
  obtain ⟨e', he', htime', hversion'⟩ := h'.kept a ((hmem a).mp ha)
  obtain ⟨a', ha', heq', -⟩ := h'.recorded _ e' he'
  refine ⟨e', (eligible_eq_some_iff h').mpr ⟨⟨he', htime'.trans_le htime⟩, ?_⟩, htime', hversion',
    ⟨a, ha, rfl⟩, a', (hmem a').mpr ha', heq'⟩
  intro e'' he'' htime''
  obtain ⟨b, hb, rfl, hsymbol⟩ := h'.recorded _ e'' he''
  obtain ⟨e₀, he₀, htime₀, -⟩ := h.kept b ((hmem b).mpr hb)
  rw [htime', ← htime₀]
  exact hlast e₀ (hsymbol ▸ he₀) (htime₀.trans_le htime'')

end Runs

/-! ## 5. The order of the calls -/

/-- The first 16 digits of SHA-256 tell apart what is hashed for the calls. -/
def TellsApart (calls : List (RecordArgs O)) : Prop :=
  ∀ a ∈ calls, ∀ a' ∈ calls, digest16 (content a) = digest16 (content a') →
    (content a).json = (content a').json

/-- One version, but for how a character beyond the 16-bit ones stands in a text. -/
structure SameVersion (e e' : SymbolMetadataVersion) : Prop where
  effectiveAt : e.effectiveAt = e'.effectiveAt
  version : e.version = e'.version
  content : e.toContent.Alike e'.toContent

/-- **In another order** the calls answer with the same version. -/
theorem eligible_perm {calls calls' : List (RecordArgs O)} {self self' : SymbolMetadataHistory}
    (h : RecordedFrom calls self) (h' : RecordedFrom calls' self')
    (hmem : ∀ a, a ∈ calls ↔ a ∈ calls') (hhash : TellsApart calls) (key : Text) (current : ℤ) :
    self.eligible key current = none ∧ self'.eligible key current = none ∨
      ∃ e e', self.eligible key current = some e ∧ self'.eligible key current = some e' ∧
        SameVersion e e' ∧ (∃ a ∈ calls, e = entryOf a) ∧ ∃ a ∈ calls, e' = entryOf a := by
  cases he : self.eligible key current with
  | none =>
    cases he' : self'.eligible key current with
    | none => exact .inl ⟨rfl, rfl⟩
    | some e' =>
      obtain ⟨e, hsome, -⟩ := eligible_of_mem_iff h' h (fun a => (hmem a).symm) he'
      rw [he] at hsome
      cases hsome
  | some e =>
    obtain ⟨e', he', htime, hversion, ⟨a, ha, rfl⟩, a', ha', rfl⟩ :=
      eligible_of_mem_iff h h' hmem he
    refine .inr ⟨_, _, rfl, he', ⟨htime.symm, hversion.symm, ?_⟩, ⟨a, ha, rfl⟩, a', ha', rfl⟩
    exact Content.json_alike (hhash a ha a' ha' hversion.symm)

end SymbolMetadataHistory

end Kripto.Universe
