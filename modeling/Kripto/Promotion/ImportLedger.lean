/-
# The import ledger

`reports/acceptance_import/IMPORT_LEDGER.json` lists the bundles that were promoted.  Its events
are chained: each carries the hash of the one before it and the hash of itself.  A promotion
counts as committed exactly when its bundle is in this list, so the recovery asks the ledger and
nothing else which of two trees has to survive.

`loadImportLedger` is total on whatever the file holds; a ledger with problems vouches for
nothing.  The result of this module is `appended_intact`: appending an event for a fresh bundle to a
ledger without problems gives a ledger without problems that lists the bundle once.
-/
import Mathlib.Data.List.Sort
import Mathlib.Data.List.Dedup
import Mathlib.Data.List.Induction

namespace Kripto.Promotion

/-! ## 1. Events -/

/-- An event of the ledger without its own hash.  `none` in an optional field: the key is absent
or does not hold a string. -/
structure EventPayload where
  schemaVersion : String
  sourceGitCommitSha : String
  bundleManifestSha256 : Option String
  promotedFiles : List String
  artifactClasses : List String
  trustAnchor : List (String × String)
  recordedAtUtc : String
  previousEventHash : Option String
  deriving DecidableEq

structure LedgerEvent extends EventPayload where
  eventHash : Option String
  deriving DecidableEq

/-- What `PROMOTION_TRANSACTION.json` says about a promotion. -/
structure PromotionTransaction where
  sourceGitCommitSha : String
  stagedManifestSha256 : String
  promotedFiles : List String
  artifactClasses : List String
  deriving DecidableEq

/-- A SHA-256 in hexadecimal. -/
abbrev Digest : Type := { text : String // text.length = 64 }

/-- The encodings the code takes from `hashlib` and `json`. -/
class Encoding where
  sha256 : String → Digest
  dumpsEvent : EventPayload → String
  dumpsTransaction : PromotionTransaction → String

def ZERO_HASH : String := "0000000000000000000000000000000000000000000000000000000000000000"

/-! ## 2. Documents -/

/-- What stands under `"events"`.  In a list, an event that is not an object is `none`.  Anything
else has no events; a number, a truth value or `null` cannot even be looped over. -/
inductive Events : Type
  | list (es : List (Option LedgerEvent))
  | missingOrText
  | scalar
  deriving DecidableEq

structure LedgerDoc where
  schemaVersion : Option String
  classification : Option String
  events : Events
  deriving DecidableEq

/-- The ledger file.  `invalid`: its text is no JSON, with the exception that says so. -/
inductive LedgerFile : Type
  | absent
  | invalid (exc : String)
  | notObject
  | doc (d : LedgerDoc)
  deriving DecidableEq

def IMPORT_LEDGER_CLASSIFICATION : String := "EXTERNAL_ACCEPTANCE_IMPORT_REPLAY_LEDGER"

/-- `doc.get("events", [])`, read as a list. -/
def LedgerDoc.eventList (d : LedgerDoc) : List (Option LedgerEvent) :=
  match d.events with
  | .list es => es
  | _ => []

/-- The bundles a document lists, whether or not its chain is intact. -/
def LedgerDoc.bundles (d : LedgerDoc) : List String :=
  d.eventList.filterMap fun e => e.bind fun event => event.bundleManifestSha256

/-- The document a file stands for, as far as it can be loaded. -/
def LedgerFile.document : LedgerFile → LedgerDoc
  | .absent => ⟨some "1.0", some IMPORT_LEDGER_CLASSIFICATION, .list []⟩
  | .doc d => d
  | _ => ⟨none, none, .list []⟩

def LedgerFile.bundles (f : LedgerFile) : List String := f.document.bundles

/-- `sorted(set(problems))`. -/
def sortedSet (problems : List String) : List String :=
  problems.dedup.insertionSort (· ≤ ·)

theorem sortedSet_eq_nil {problems : List String} : sortedSet problems = [] ↔ problems = [] := by
  constructor
  · intro h
    have hperm := List.perm_insertionSort (· ≤ ·) problems.dedup
    rw [sortedSet] at h
    rw [h] at hperm
    exact (List.dedup_eq_nil _).mp hperm.symm.eq_nil
  · rintro rfl
    rfl

/-! ## 3. The chain -/

variable [Encoding]

/-- `_ledger_event_hash`: the hash covers every field but itself. -/
def ledgerEventHash (event : LedgerEvent) : String :=
  (Encoding.sha256 (Encoding.dumpsEvent event.toEventPayload)).1

/-- How far `_load_import_ledger` has come in its loop. -/
structure Scan where
  index : Nat
  previous : String
  seen : List String
  problems : List String

def Scan.start : Scan := ⟨0, ZERO_HASH, [], []⟩

/-- What the loop finds wrong with an event. -/
def Scan.findings (c : Scan) (event : LedgerEvent) : List String :=
  (if event.previousEventHash ≠ some c.previous then
    ["IMPORT_LEDGER_CHAIN_INVALID:" ++ toString c.index] else []) ++
  (if event.eventHash ≠ some (ledgerEventHash event) then
    ["IMPORT_LEDGER_HASH_INVALID:" ++ toString c.index] else []) ++
  match event.bundleManifestSha256 with
  | none => ["IMPORT_LEDGER_BUNDLE_INVALID:" ++ toString c.index]
  | some bundle =>
    if bundle.length ≠ 64 then ["IMPORT_LEDGER_BUNDLE_INVALID:" ++ toString c.index]
    else if bundle ∈ c.seen then ["IMPORT_LEDGER_DUPLICATE_BUNDLE:" ++ toString c.index]
    else []

/-- One round of the loop.  An event that is not an object leaves `previous` as it was. -/
def Scan.step (c : Scan) : Option LedgerEvent → Scan
  | none => { c with
      index := c.index + 1
      problems := c.problems ++ ["IMPORT_LEDGER_EVENT_INVALID:" ++ toString c.index] }
  | some event =>
    { index := c.index + 1
      previous := event.eventHash.getD ZERO_HASH
      seen := match event.bundleManifestSha256 with
        | some bundle =>
          if bundle.length ≠ 64 ∨ bundle ∈ c.seen then c.seen else c.seen ++ [bundle]
        | none => c.seen
      problems := c.problems ++ c.findings event }

def scan (events : List (Option LedgerEvent)) : Scan := events.foldl Scan.step .start

def LedgerDoc.problems (d : LedgerDoc) : List String :=
  (if d.schemaVersion ≠ some "1.0" then ["IMPORT_LEDGER_SCHEMA_INVALID"] else []) ++
  (if d.classification ≠ some IMPORT_LEDGER_CLASSIFICATION then
    ["IMPORT_LEDGER_CLASSIFICATION_INVALID"] else []) ++
  (if d.events ≠ .list d.eventList then ["IMPORT_LEDGER_EVENTS_INVALID"] else []) ++
  (scan d.eventList).problems

/-- What is wrong with the file, for a file that can be loaded. -/
def LedgerFile.problems : LedgerFile → List String
  | .absent => []
  | .invalid exc => ["IMPORT_LEDGER_INVALID:" ++ exc]
  | .notObject => []
  | .doc d => sortedSet d.problems

/-- A ledger that loads and has no problems. -/
def LedgerFile.Intact (f : LedgerFile) : Prop := f ≠ .notObject ∧ f.problems = []

/-! ## 4. What an intact ledger looks like -/

theorem scan_append (es : List (Option LedgerEvent)) (e : Option LedgerEvent) :
    scan (es ++ [e]) = (scan es).step e := by
  simp [scan]

/-- What the loop has seen are bundles of the list. -/
theorem mem_of_seen (es : List (Option LedgerEvent)) {bundle : String}
    (h : bundle ∈ (scan es).seen) :
    bundle ∈ es.filterMap fun e => e.bind fun event => event.bundleManifestSha256 := by
  induction es using List.reverseRecOn with
  | nil => simp [scan, Scan.start] at h
  | append_singleton es e ih =>
    rw [scan_append] at h
    rw [List.filterMap_append, List.mem_append]
    cases e with
    | none => exact Or.inl (ih h)
    | some event =>
      cases hb : event.bundleManifestSha256 with
      | none =>
        simp only [Scan.step, hb] at h
        exact Or.inl (ih h)
      | some b =>
        simp only [Scan.step, hb] at h
        split at h
        · exact Or.inl (ih h)
        · rcases List.mem_append.mp h with h | h
          · exact Or.inl (ih h)
          · right
            simpa [hb] using h

/-- `events[-1]["event_hash"] if events else ZERO_HASH`, for events the loop accepts. -/
def lastEventHash (es : List (Option LedgerEvent)) : Option String :=
  match es.getLast? with
  | none => some ZERO_HASH
  | some none => none
  | some (some event) => event.eventHash

/-- **The chain ends where the loop ended.**  In an intact list the last hash is there, and it is
what the next event has to point to. -/
theorem lastEventHash_of_scan {es : List (Option LedgerEvent)} (h : (scan es).problems = []) :
    lastEventHash es = some (scan es).previous := by
  induction es using List.reverseRecOn with
  | nil => rfl
  | append_singleton es e _ =>
    rw [scan_append] at h ⊢
    cases e with
    | none => simp [Scan.step] at h
    | some event =>
      have hfind : (scan es).findings event = [] := (List.append_eq_nil_iff.mp h).2
      have hhash : event.eventHash = some (ledgerEventHash event) := by
        by_contra hne
        simp [Scan.findings, hne] at hfind
      simp [lastEventHash, Scan.step, hhash]

theorem intact_doc_iff {d : LedgerDoc} : (LedgerFile.doc d).Intact ↔
    d.schemaVersion = some "1.0" ∧ d.classification = some IMPORT_LEDGER_CLASSIFICATION ∧
      d.events = .list d.eventList ∧ (scan d.eventList).problems = [] := by
  have hp : (LedgerFile.doc d).Intact ↔ d.problems = [] := by
    simp [LedgerFile.Intact, LedgerFile.problems, sortedSet_eq_nil]
  rw [hp, LedgerDoc.problems]
  simp only [List.append_eq_nil_iff, ite_eq_right_iff, reduceCtorEq, imp_false, ne_eq,
    Decidable.not_not, and_assoc]

theorem LedgerFile.Intact.scan {f : LedgerFile} (h : f.Intact) :
    (scan f.document.eventList).problems = [] := by
  cases f with
  | absent => rfl
  | invalid exc => exact absurd h.2 (by simp [LedgerFile.problems])
  | notObject => exact absurd rfl h.1
  | doc d => exact (intact_doc_iff.mp h).2.2.2

/-! ## 5. Appending -/

/-- The event `_append_import_ledger` writes. -/
def newEvent (bundle : Digest) (sourceSha : String) (files classes : List String)
    (anchor : List (String × String)) (now previous : String) : LedgerEvent :=
  let payload : EventPayload :=
    { schemaVersion := "1.0"
      sourceGitCommitSha := sourceSha
      bundleManifestSha256 := some bundle.1
      promotedFiles := files.insertionSort (· ≤ ·)
      artifactClasses := classes.insertionSort (· ≤ ·)
      trustAnchor := anchor
      recordedAtUtc := now
      previousEventHash := some previous }
  { payload with eventHash := some (ledgerEventHash ⟨payload, none⟩) }

/-- The document it replaces the old one by. -/
def LedgerDoc.appended (d : LedgerDoc) (event : LedgerEvent) : LedgerDoc :=
  ⟨some "1.0", some IMPORT_LEDGER_CLASSIFICATION, .list (d.eventList ++ [some event])⟩

/-- **Appending keeps the ledger intact**, and puts the bundle behind those that were there. -/
theorem appended_intact {f : LedgerFile} (hf : f.Intact) {bundle : Digest}
    (hfresh : bundle.1 ∉ f.bundles) {previous : String}
    (hprev : lastEventHash f.document.eventList = some previous) (sourceSha : String)
    (files classes : List String) (anchor : List (String × String)) (now : String) :
    (LedgerFile.doc (f.document.appended
      (newEvent bundle sourceSha files classes anchor now previous))).Intact ∧
    (LedgerFile.doc (f.document.appended
      (newEvent bundle sourceSha files classes anchor now previous))).bundles =
        f.bundles ++ [bundle.1] := by
  have hscan := hf.scan
  have hprev' : (scan f.document.eventList).previous = previous :=
    Option.some.inj ((lastEventHash_of_scan hscan).symm.trans hprev)
  have hseen : bundle.1 ∉ (scan f.document.eventList).seen := by
    intro hmem
    exact hfresh (mem_of_seen _ hmem)
  constructor
  · rw [intact_doc_iff]
    refine ⟨rfl, rfl, rfl, ?_⟩
    rw [LedgerDoc.appended, LedgerDoc.eventList, scan_append]
    simp [Scan.step, Scan.findings, newEvent, ledgerEventHash, hscan, hprev', hseen, bundle.2]
  · simp [LedgerFile.bundles, LedgerFile.document, LedgerDoc.bundles, LedgerDoc.appended,
      LedgerDoc.eventList, newEvent]

end Kripto.Promotion
