/-
# An appended ledger is a ledger

The verifier goes through the whole document; the appender makes one entry and looks only at the
last one before it.  `append_closure`: what an append leaves is the old entries and the new one,
and the verifier accepts it just when the manifest is new.  A manifest that stands in the ledger
already is appended all the same; the verifier reports the replay, and nothing can be appended
after it (`replayed_refused`).
-/
import Kripto.Release.EvidenceLedger

namespace Kripto.Release

open Effect Python

section Runtime

variable [Hashlib] [LedgerRuntime]

/-! ## 1. Clean scans -/

variable {scan scan' : Scan} {idx : ℕ} {entry : PyValue} {entries entries' : List PyValue}
  {problems : List String} {payload : Dict} {file file' : File} {args : Args} {now : ℤ}
  {place : Place} {faults : Faults}

theorem scanEntries_append :
    scanEntries scan idx (entries ++ entries') =
      scanEntries scan idx entries >>= fun scan =>
        scanEntries scan (idx + entries.length) entries' := by
  induction entries generalizing scan idx with
  | nil => rfl
  | cons entry entries ih =>
    simp only [List.cons_append, scanEntries, bind_assoc, ih, List.length_cons]
    refine bind_congr fun scan => bind_congr fun scan => ?_
    rw [Nat.add_right_comm, Nat.add_assoc]

theorem scanAll_concat : scanAll problems (entries ++ [entry]) =
    scanAll problems entries >>= fun scan => scanEntry scan (entries.length + 1) entry := by
  rw [scanAll, scanEntries_append]
  refine bind_congr fun scan => ?_
  simp [scanEntries, Nat.add_comm]

omit [Hashlib] [LedgerRuntime] in
theorem report_eq_nil_iff {c : Bool} {problem : String} :
    report c problem idx = [] ↔ c = false := by
  cases c <;> simp [report]

/-- What a clean turn of the loop has found. -/
structure CleanTurn (scan : Scan) (idx : ℕ) (entry : PyValue) (scan' : Scan) : Prop where
  before : scan.problems = []
  fields : ∃ fields expected, entry = .dict fields ∧ canonicalHash (core fields) = .ok expected ∧
    dictGet fields "entry_hash" = .str (Text.of expected) ∧
    scan'.prev = strOr (.str (Text.of expected)) scan.prev
  seen : scan'.seenManifest = scan.seenManifest ++ manifest entry

theorem clean_of_scanEntry (h : scanEntry scan idx entry = .ok scan')
    (hclean : scan'.problems = []) : CleanTurn scan idx entry scan' := by
  cases entry with
  | dict fields =>
    simp only [scanEntry, bind_eq_ok_iff, pure_eq_ok, Except.ok.injEq] at h
    obtain ⟨expected, hexpected, seen, -, rfl⟩ := h
    simp only [List.append_eq_nil_iff, report_eq_nil_iff, Bool.not_eq_false',
      PyValue.isText_iff] at hclean
    obtain ⟨hbefore, ⟨⟨-, -⟩, hhash⟩, -⟩ := hclean
    exact ⟨hbefore, ⟨fields, expected, rfl, hexpected, hhash, by rw [hhash]⟩, rfl⟩
  | _ =>
    simp only [scanEntry, pure_eq_ok, Except.ok.injEq] at h
    subst h
    simp [report] at hclean

omit [Hashlib] in
/-- A hash is what `str(hash or prev)` gives. -/
theorem strOr_hash {expected : String} {prev : Text} (h : expected.length = 64) :
    strOr (.str (Text.of expected)) prev = Text.of expected := by
  have hsome : Text.of expected ≠ [] := by
    intro hnil
    obtain rfl : expected = "" := by simpa [Text.of] using hnil
    simp at h
  simp [strOr, truthy, hsome]

omit [LedgerRuntime] in
theorem length_canonicalHash (hlength : ∀ text, (Hashlib.sha256 text).length = 64) {hash : String}
    (h : canonicalHash payload = .ok hash) : hash.length = 64 := by
  unfold canonicalHash at h
  split at h
  · cases h
    exact hlength _
  · cases h

omit [Hashlib] [LedgerRuntime] in
theorem lookup_of_dictGet {fields : Dict} {name : String} {text : Text}
    (h : dictGet fields name = .str text) :
    fields.lookup (.str (Text.of name)) = some (.str text) := by
  unfold dictGet at h
  cases hlookup : fields.lookup (.str (Text.of name)) with
  | none => simp [hlookup] at h
  | some v => simpa [hlookup] using h

/-- **A clean scan** ends at the hash that the appender goes on from, and has seen every
manifest. -/
theorem scanAll_clean (hlength : ∀ text, (Hashlib.sha256 text).length = 64)
    (h : scanAll [] entries = .ok scan) (hclean : scan.problems = []) :
    previousHash entries = .ok (.str scan.prev) ∧
      scan.seenManifest = entries.flatMap manifest ∧ scan.prev.Encodable := by
  induction entries using List.reverseRecOn generalizing scan with
  | nil =>
    cases h
    exact ⟨rfl, rfl, Text.encodable_of GENESIS⟩
  | append_singleton entries entry ih =>
    rw [scanAll_concat, bind_eq_ok_iff] at h
    obtain ⟨older, holder, hentry⟩ := h
    obtain ⟨hbefore, ⟨fields, expected, rfl, hexpected, hhash, hprev⟩, hseen⟩ :=
      clean_of_scanEntry hentry hclean
    rw [strOr_hash (length_canonicalHash hlength hexpected)] at hprev
    refine ⟨?_, ?_, ?_⟩
    · rw [hprev]
      simp [previousHash, lookup_of_dictGet hhash]
    · rw [hseen, (ih holder hbefore).2.1, List.flatMap_append]
      simp
    · rw [hprev]
      exact Text.encodable_of expected

omit [Hashlib] in
/-- What the verifier hashes of a new entry is what the appender has hashed. -/
theorem core_withHash (prev : PyValue) (hash : String) :
    core (withHash (newCore entries args now prev) hash) = newCore entries args now prev := rfl

/-- **The turn of a new entry** finds nothing but a manifest that is there already. -/
theorem scanEntry_new {hash : String} (hclean : scan.problems = [])
    (hhash : canonicalHash (newCore entries args now (.str scan.prev)) = .ok hash) :
    ∃ scan', scanEntry scan (entries.length + 1)
        (.dict (withHash (newCore entries args now (.str scan.prev)) hash)) = .ok scan' ∧
      (scan'.problems = [] ↔ args.manifestSha256 ∉ scan.seenManifest) := by
  obtain ⟨entry, hentry⟩ : ∃ entry,
      entry = withHash (newCore entries args now (.str scan.prev)) hash := ⟨_, rfl⟩
  have hcore : core entry = newCore entries args now (.str scan.prev) := by
    rw [hentry, core_withHash]
  have hsequence : dictGet entry "sequence" = .int (entries.length + 1) := by
    rw [hentry]
    rfl
  have hmanifest : dictGet entry "manifest_sha256" = .str args.manifestSha256 := by
    rw [hentry]
    rfl
  have hprevious : dictGet entry "previous_hash" = .str scan.prev := by
    rw [hentry]
    rfl
  have hown : dictGet entry "entry_hash" = .str (Text.of hash) := by
    rw [hentry]
    rfl
  rw [← hentry]
  simp only [scanEntry, hcore, hhash, ok_bind, hsequence, hmanifest, hprevious, hown, isIn,
    pure_eq_ok]
  refine ⟨_, rfl, ?_⟩
  simp [hclean, report, isInt]

/-! ## 2. Accepted files -/

/-- `verify_ledger` accepts the file. -/
def Accepted (file : File) : Prop :=
  ∃ report, verifyLedger false file = .ok report ∧ report.verified = true

theorem scanEntries_clean (h : scanEntries scan idx entries = .ok scan')
    (hclean : scan'.problems = []) : scan.problems = [] := by
  induction entries generalizing scan idx with
  | nil =>
    cases h
    exact hclean
  | cons entry entries ih =>
    rw [scanEntries, bind_eq_ok_iff] at h
    obtain ⟨next, hentry, hrest⟩ := h
    exact (clean_of_scanEntry hentry (ih hrest)).before

theorem scanAll_problems (h : scanAll problems entries = .ok scan)
    (hclean : scan.problems = []) : problems = [] :=
  scanEntries_clean h hclean

/-- What the verifier reports of a ledger that it accepts. -/
theorem scan_of_verified {report : Report}
    (h : verifyLedger false file = .ok report) (hverified : report.verified = true) :
    ∃ scan, scanAll [] (entriesOf file) = .ok scan ∧ scan.problems = [] ∧
      report.headHash = some scan.prev := by
  match file with
  | none =>
    cases h
    cases hverified
  | some (.unreadable exc) =>
    cases h
    cases hverified
  | some (.document doc) =>
    cases doc with
    | dict payload =>
      simp only [verifyLedger, Bool.false_eq_true, if_false] at h
      cases hentries : dictGet payload "entries" with
      | list entries =>
        simp only [hentries, bind_eq_ok_iff, pure_eq_ok, Except.ok.injEq] at h
        obtain ⟨scan, hscan, rfl⟩ := h
        have hclean : scan.problems = [] := List.isEmpty_iff.mp hverified
        rw [scanAll_problems hscan hclean] at hscan
        exact ⟨scan, by simpa [entriesOf, hentries] using hscan, hclean, rfl⟩
      | _ =>
        simp only [hentries, pure_eq_ok, Except.ok.injEq] at h
        rw [← h] at hverified
        cases hverified
    | _ => cases h

/-- The entries of an accepted file give a clean scan. -/
theorem Accepted.clean (h : Accepted file) :
    ∃ scan, scanAll [] (entriesOf file) = .ok scan ∧ scan.problems = [] := by
  obtain ⟨report, hreport, hverified⟩ := h
  obtain ⟨scan, hscan, hclean, -⟩ := scan_of_verified hreport hverified
  exact ⟨scan, hscan, hclean⟩

theorem accepted_ledger_iff : Accepted (some (.document (.dict (ledger entries)))) ↔
    ∃ scan, scanAll [] entries = .ok scan ∧ scan.problems = [] := by
  constructor
  · exact Accepted.clean
  · rintro ⟨scan, hscan, hclean⟩
    have hentries : dictGet (ledger entries) "entries" = .list entries := rfl
    have hschema : dictGet (ledger entries) "schema_version" = .str (Text.of "1.0") := rfl
    have hclass : dictGet (ledger entries) "classification" = .str (Text.of CLASSIFICATION) := rfl
    refine ⟨⟨true, [], entries.length, some scan.prev⟩, ?_, rfl⟩
    simp [verifyLedger, hentries, hschema, hclass, hscan, hclean, PyValue.isText]

/-! ## 3. Appends -/

/-- What the arguments of an append can be encoded. -/
structure Args.Encodable (args : Args) : Prop where
  manifestSha256 : args.manifestSha256.Encodable
  challengeId : args.challengeId.Encodable
  gitCommitSha : args.gitCommitSha.Encodable
  profile : args.profile.Encodable

/-- An append with texts that can be encoded returns, unless the path or the file system is in the
way. -/
def CanAppend (file : File) : Prop :=
  ∀ place args now, checkPlace place = .ok () → args.Encodable →
    ∃ entry, (appendEntry place {} file args now).1 = .ok entry

/-- The manifest stands in no entry. -/
def Fresh (file : File) (manifestSha256 : Text) : Prop :=
  ∀ entry ∈ entriesOf file, manifestSha256 ∉ manifest entry

/-- The fields of a new core in the order of their keys. -/
def sortedCore (entries : List PyValue) (args : Args) (now : ℤ) (prev : Text) :
    List (Text × Text) :=
  [(Text.of "challenge_id", quote false args.challengeId),
    (Text.of "git_commit_sha", quote false args.gitCommitSha),
    (Text.of "manifest_sha256", quote false args.manifestSha256),
    (Text.of "observed_at", quote false (Text.of (LedgerRuntime.isoformat now))),
    (Text.of "previous_hash", quote false prev), (Text.of "profile", quote false args.profile),
    (Text.of "sequence", Text.of (toString ((entries.length + 1 : ℕ) : ℤ)))]

omit [Hashlib] in
theorem dumps_newCore (entries : List PyValue) (args : Args) (now : ℤ) (prev : Text) :
    (PyValue.dict (newCore entries args now (.str prev))).dumps { ensureAscii := false } =
      .ok (writeDict false (sortedCore entries args now prev)) := by
  simp only [newCore, PyValue.dumps, dumpsFields]
  rfl

theorem canonicalHash_newCore (entries : List PyValue) (now : ℤ) {prev : Text}
    (hargs : args.Encodable) (hprev : prev.Encodable) :
    ∃ hash, canonicalHash (newCore entries args now (.str prev)) = .ok hash := by
  have hencodable : (writeDict false (sortedCore entries args now prev)).Encodable := by
    refine encodable_writeDict fun e he => ?_
    simp only [sortedCore, List.mem_cons, List.not_mem_nil, or_false] at he
    rcases he with rfl | rfl | rfl | rfl | rfl | rfl | rfl
    · exact ⟨Text.encodable_of _, encodable_quote hargs.challengeId⟩
    · exact ⟨Text.encodable_of _, encodable_quote hargs.gitCommitSha⟩
    · exact ⟨Text.encodable_of _, encodable_quote hargs.manifestSha256⟩
    · exact ⟨Text.encodable_of _, encodable_quote (Text.encodable_of _)⟩
    · exact ⟨Text.encodable_of _, encodable_quote hprev⟩
    · exact ⟨Text.encodable_of _, encodable_quote hargs.profile⟩
    · exact ⟨Text.encodable_of _, Text.encodable_of _⟩
  rw [canonicalHash, PyValue.bytes, dumps_newCore, ok_bind, hencodable.encode]
  exact ⟨_, rfl⟩

/-- What an append makes, if its checks pass. -/
theorem prepare_eq_ok {entry payload : Dict}
    (h : prepare faults file args now = .ok (entry, payload)) :
    (file = none ∨ Accepted file) ∧ ∃ prev hash,
      previousHash (entriesOf file) = .ok prev ∧
      canonicalHash (newCore (entriesOf file) args now prev) = .ok hash ∧
      entry = withHash (newCore (entriesOf file) args now prev) hash ∧
      payload = ledger (entriesOf file ++ [.dict entry]) := by
  simp only [prepare, bind_eq_ok_iff, pure_eq_ok, Except.ok.injEq, Prod.mk.injEq] at h
  obtain ⟨entries, hentries, prev, hprev, hash, hhash, rfl, rfl⟩ := h
  have hread : entries = entriesOf file ∧ (file = none ∨ Accepted file) := by
    cases file with
    | none =>
      cases hentries
      exact ⟨rfl, .inl rfl⟩
    | some content =>
      simp only [readEntries, bind_eq_ok_iff, pure_eq_ok, Except.ok.injEq] at hentries
      obtain ⟨report, hreport, _, hverified, _, -, rfl⟩ := hentries
      refine ⟨rfl, .inr ⟨report, hreport, ?_⟩⟩
      cases hv : report.verified with
      | true => rfl
      | false => simp [raiseIf, hv] at hverified
  obtain ⟨rfl, hfile⟩ := hread
  exact ⟨hfile, prev, hash, hprev, hhash, rfl, rfl⟩

omit [Hashlib] [LedgerRuntime] in
theorem atomicWriteJson_cases {result : Except Exc Unit}
    (h : atomicWriteJson faults payload file = (result, file')) :
    result = .ok () ∧ file' = some (.document (.dict payload)) ∨
      result.isOk = false ∧ file' = file := by
  unfold atomicWriteJson at h
  split at h
  · cases h
    exact .inr ⟨rfl, rfl⟩
  · split at h
    · split at h <;> cases h <;> exact .inr ⟨rfl, rfl⟩
    · cases h
      exact .inl ⟨rfl, rfl⟩

theorem appendLocked_cases {result : Except Exc Dict}
    (h : appendLocked faults file args now = (result, file')) :
    (∃ entry payload, prepare faults file args now = .ok (entry, payload) ∧ result = .ok entry ∧
      file' = some (.document (.dict payload))) ∨ result.isOk = false ∧ file' = file := by
  unfold appendLocked at h
  split at h
  · cases h
    exact .inr ⟨rfl, rfl⟩
  · rename_i entry payload hprepare
    split at h
    · rename_i written hwrite
      cases h
      rcases atomicWriteJson_cases hwrite with ⟨-, hfile⟩ | ⟨hok, -⟩
      · exact .inl ⟨entry, payload, hprepare, rfl, hfile⟩
      · cases hok
    · rename_i e written hwrite
      cases h
      rcases atomicWriteJson_cases hwrite with ⟨hok, -⟩ | ⟨-, hfile⟩
      · cases hok
      · exact .inr ⟨rfl, hfile⟩

/-- **What an append leaves**: the new document, or the file as it was. -/
theorem appendEntry_cases {result : Except Exc Dict}
    (h : appendEntry place faults file args now = (result, file')) :
    (∃ entry payload, prepare faults file args now = .ok (entry, payload) ∧
      file' = some (.document (.dict payload)) ∧
      (result = .ok entry ∨ result.isOk = false ∧ faults.unlock = true)) ∨
    result.isOk = false ∧ file' = file := by
  unfold appendEntry at h
  split at h
  · cases h
    exact .inr ⟨rfl, rfl⟩
  · split at h
    · cases h
      exact .inr ⟨rfl, rfl⟩
    · obtain ⟨done, written, hlocked⟩ : ∃ done written,
        appendLocked faults file args now = (done, written) := ⟨_, _, rfl⟩
      simp only [hlocked, Prod.mk.injEq] at h
      obtain ⟨hresult, rfl⟩ := h
      rcases appendLocked_cases hlocked with ⟨entry, payload, hprepare, rfl, hfile⟩ | ⟨hok, hfile⟩
      · refine .inl ⟨entry, payload, hprepare, hfile, ?_⟩
        cases hunlock : faults.unlock <;> rw [hunlock] at hresult
        · exact .inl hresult.symm
        · exact .inr ⟨by rw [← hresult]; rfl, rfl⟩
      · refine .inr ⟨?_, hfile⟩
        cases hunlock : faults.unlock <;> rw [hunlock] at hresult <;> rw [← hresult]
        · exact hok
        · rfl

/-! ## 4. Closure -/

/-- The entries of a file that can be appended to. -/
theorem clean_entries (h : file = none ∨ Accepted file) :
    ∃ scan, scanAll [] (entriesOf file) = .ok scan ∧ scan.problems = [] := by
  rcases h with rfl | h
  · exact ⟨_, rfl, rfl⟩
  · exact h.clean

omit [Hashlib] [LedgerRuntime] in
theorem fresh_iff {manifestSha256 : Text} :
    Fresh file manifestSha256 ↔ manifestSha256 ∉ (entriesOf file).flatMap manifest := by
  simp [Fresh]

/-- **A new document is accepted** just when its manifest is new. -/
theorem accepted_prepared_iff (hlength : ∀ text, (Hashlib.sha256 text).length = 64)
    {entry payload : Dict} (h : prepare faults file args now = .ok (entry, payload)) :
    Accepted (some (.document (.dict payload))) ↔ Fresh file args.manifestSha256 := by
  obtain ⟨hfile, prev, hash, hprev, hhash, rfl, rfl⟩ := prepare_eq_ok h
  obtain ⟨scan, hscan, hclean⟩ := clean_entries hfile
  obtain ⟨hprevious, hseen, -⟩ := scanAll_clean hlength hscan hclean
  obtain rfl : prev = .str scan.prev := by
    rw [hprevious, Except.ok.injEq] at hprev
    exact hprev.symm
  obtain ⟨scan', hturn, hproblems⟩ := scanEntry_new hclean hhash
  rw [accepted_ledger_iff, fresh_iff, ← hseen, ← hproblems, scanAll_concat, hscan, ok_bind, hturn]
  simp

theorem prepare_returns (hlength : ∀ text, (Hashlib.sha256 text).length = 64)
    (hfile : file = none ∨ Accepted file) (hargs : args.Encodable) (now : ℤ) :
    ∃ made, prepare {} file args now = .ok made := by
  obtain ⟨scan, hscan, hclean⟩ := clean_entries hfile
  obtain ⟨hprevious, -, hprev⟩ := scanAll_clean hlength hscan hclean
  obtain ⟨hash, hhash⟩ := canonicalHash_newCore (entriesOf file) now hargs hprev
  have hread : readEntries {} file = .ok (entriesOf file) := by
    cases file with
    | none => rfl
    | some content =>
      obtain ⟨report, hreport, hverified⟩ := hfile.resolve_left (by simp)
      simp [readEntries, hreport, hverified, raiseIf]
  simp only [prepare, hread, ok_bind, hprevious, hhash, pure_eq_ok]
  exact ⟨_, rfl⟩

/-- An append that nothing is in the way of. -/
theorem appendEntry_of_prepare {entry payload : Dict} (hplace : checkPlace place = .ok ())
    (h : prepare {} file args now = .ok (entry, payload)) :
    appendEntry place {} file args now = (.ok entry, some (.document (.dict payload))) := by
  simp [appendEntry, hplace, appendLocked, h, atomicWriteJson]

/-- **Further appends** are possible just when the file is accepted. -/
theorem canAppend_iff (hlength : ∀ text, (Hashlib.sha256 text).length = 64) (content : Content) :
    CanAppend (some content) ↔ Accepted (some content) := by
  constructor
  · intro h
    obtain ⟨entry, hentry⟩ := h ⟨false, false, false, false, false⟩ ⟨[], [], [], []⟩ 0 rfl
      ⟨Text.encodable_of "", Text.encodable_of "", Text.encodable_of "", Text.encodable_of ""⟩
    rcases appendEntry_cases (Prod.ext hentry rfl) with ⟨_, _, hprepare, -⟩ | ⟨hok, -⟩
    · exact (prepare_eq_ok hprepare).1.resolve_left (by simp)
    · cases hok
  · intro h place args now hplace hargs
    obtain ⟨⟨entry, payload⟩, hprepare⟩ := prepare_returns hlength (.inr h) hargs now
    exact ⟨entry, congrArg Prod.fst (appendEntry_of_prepare hplace hprepare)⟩

/-- **The closure of the ledger.**  An append that returns leaves the old entries and the new one;
the verifier accepts them, and more can be appended, just when the manifest was not there yet.  An
append that raises, otherwise than by releasing the lock, leaves the file as it was. -/
theorem append_closure (hlength : ∀ text, (Hashlib.sha256 text).length = 64) (place : Place)
    (faults : Faults) (file : File) (args : Args) (now : ℤ) :
    (∀ entry file', appendEntry place faults file args now = (.ok entry, file') →
      entriesOf file' = entriesOf file ++ [.dict entry] ∧
        (Accepted file' ↔ Fresh file args.manifestSha256) ∧
        (CanAppend file' ↔ Fresh file args.manifestSha256)) ∧
    ∀ e file', appendEntry place faults file args now = (.error e, file') →
      faults.unlock = false → file' = file := by
  constructor
  · intro entry file' h
    rcases appendEntry_cases h with ⟨entry', payload, hprepare, rfl, hresult⟩ | ⟨hok, -⟩
    · have hsame : entry = entry' := by
        rcases hresult with hresult | ⟨hok, -⟩
        · exact Except.ok.inj hresult
        · cases hok
      have haccepted := accepted_prepared_iff hlength hprepare
      refine ⟨?_, haccepted, (canAppend_iff hlength _).trans haccepted⟩
      obtain ⟨-, prev, hash, -, -, -, rfl⟩ := prepare_eq_ok hprepare
      rw [hsame]
      rfl
    · cases hok
  · intro e file' h hunlock
    rcases appendEntry_cases h with ⟨entry', payload, -, -, hresult⟩ | ⟨-, hfile⟩
    · rcases hresult with hresult | ⟨-, hunlock'⟩
      · cases hresult
      · simp [hunlock] at hunlock'
    · exact hfile

end Runtime

/-! ## 5. A manifest that is appended twice -/

@[reducible] def plainRuntime : LedgerRuntime :=
  ⟨fun _ _ => false, fun _ => [], fun _ => "2026-01-01T00:00:00+00:00"⟩

attribute [local instance] beginnings plainRuntime

def openPlace : Place := ⟨false, false, false, false, false⟩

def runtimeManifest : Args :=
  ⟨Text.of "aaaa", Text.of "c1", Text.of "g1", Text.of "runtime"⟩

theorem encodable_runtimeManifest : runtimeManifest.Encodable :=
  ⟨Text.encodable_of _, Text.encodable_of _, Text.encodable_of _, Text.encodable_of _⟩

theorem fresh_none (manifestSha256 : Text) : Fresh none manifestSha256 :=
  fun _ hentry => absurd hentry List.not_mem_nil

theorem append_closure_first : ∃ entry file',
    appendEntry openPlace {} none runtimeManifest 0 = (.ok entry, file') ∧ Accepted file' := by
  obtain ⟨⟨entry, payload⟩, hprepare⟩ :=
    prepare_returns length_beginnings (.inl rfl) encodable_runtimeManifest 0
  have happend : appendEntry openPlace {} none runtimeManifest 0 =
      (.ok entry, some (.document (.dict payload))) := appendEntry_of_prepare rfl hprepare
  have hclosure := (append_closure length_beginnings openPlace {} none runtimeManifest 0).1
  exact ⟨entry, _, happend, (hclosure entry _ happend).2.1.mpr (fresh_none _)⟩

/-- **A manifest is appended twice**: both appends return, and the verifier refuses the ledger. -/
theorem replayed_refused : ∃ entry file' entry' file'',
    appendEntry openPlace {} none runtimeManifest 0 = (.ok entry, file') ∧ Accepted file' ∧
      appendEntry openPlace {} file' runtimeManifest 1 = (.ok entry', file'') ∧
      ¬ Accepted file'' := by
  obtain ⟨⟨entry, payload⟩, hprepare⟩ :=
    prepare_returns length_beginnings (.inl rfl) encodable_runtimeManifest 0
  have haccepted := (accepted_prepared_iff length_beginnings hprepare).mpr (fresh_none _)
  obtain ⟨⟨entry', payload'⟩, hprepare'⟩ :=
    prepare_returns length_beginnings (.inr haccepted) encodable_runtimeManifest 1
  refine ⟨entry, _, entry', _, appendEntry_of_prepare rfl hprepare, haccepted,
    appendEntry_of_prepare rfl hprepare', fun haccepted' => ?_⟩
  obtain ⟨-, prev, hash, -, -, hentry, hpayload⟩ := prepare_eq_ok hprepare
  have hfresh := (accepted_prepared_iff length_beginnings hprepare').mp haccepted'
  have hmem : PyValue.dict entry ∈ entriesOf (some (.document (.dict payload))) := by
    rw [hpayload]
    exact List.mem_singleton_self _
  refine hfresh _ hmem ?_
  rw [hentry]
  exact List.mem_singleton_self _

end Kripto.Release
