/-
# The evidence ledger

`release/evidence_ledger.py`.  The ledger is one JSON document; `append_entry` verifies it, puts a
new entry behind the others and replaces the file, and `verify_ledger` lists what is wrong with
it.

A file is what `json.loads` makes of it, the order of keys aside; what `json.dump` writes is read
back as it was.  Every operation on the file system may raise (`Faults`).
-/
import Kripto.Effect.Outcome
import Kripto.Python.Json

namespace Kripto.Release

open Effect Python

/-! ## 1. Files and errors -/

def GENESIS : String := "0000000000000000000000000000000000000000000000000000000000000000"

def CLASSIFICATION : String := "EXTERNAL_ACCEPTANCE_APPEND_ONLY_EVIDENCE_LEDGER"

/-- What stands in the file: a document, or something that raises when it is read. -/
inductive Content
  | document (doc : PyValue)
  | unreadable (exc : String)

/-- The ledger file, if it is there. -/
abbrev File : Type := Option Content

inductive Exc
  | valueError (msg : String)
  | typeError
  | attributeError
  | keyError (name : String)
  | dumpError (e : DumpError)
  | osError (operation : String)

/-- What else the verifier does with values: whether a float, given by its text, equals an integer,
and `str` of what is no text; and the text of a time. -/
class LedgerRuntime where
  floatEq : String → ℕ → Bool
  str : PyValue → Text
  isoformat : ℤ → String

/-! ## 2. `verify_ledger` -/

structure Report where
  verified : Bool
  problems : List String
  entries : ℕ
  headHash : Option Text

/-- The variables of the loop. -/
structure Scan where
  problems : List String
  prev : Text
  seenManifest : List Text

/-- The fields that are hashed. -/
def CORE : List String :=
  ["sequence", "observed_at", "manifest_sha256", "challenge_id", "git_commit_sha", "profile",
    "previous_hash"]

def core (entry : Dict) : Dict := CORE.map fun name => (.str (Text.of name), dictGet entry name)

def report (c : Bool) (problem : String) (idx : ℕ) : List String :=
  if c then [problem ++ ":" ++ toString idx] else []

section Runtime

variable [Hashlib] [LedgerRuntime]

def canonicalHash (payload : Dict) : Except Exc String :=
  match (PyValue.dict payload).bytes { ensureAscii := false } with
  | .ok raw => .ok (Hashlib.sha256 raw)
  | .error e => .error (.dumpError e)

/-- `v == n`. -/
def isInt (v : PyValue) (n : ℕ) : Bool :=
  match v with
  | .int m => m = n
  | .bool b => b.toNat = n
  | .float repr => LedgerRuntime.floatEq repr n
  | _ => false

/-- `v in seen`: lists and dictionaries cannot be hashed. -/
def isIn (v : PyValue) (seen : List Text) : Except Exc Bool :=
  match v with
  | .str s => .ok (s ∈ seen)
  | .list _ => .error .typeError
  | .dict _ => .error .typeError
  | _ => .ok false

def truthy : PyValue → Bool
  | .none => false
  | .bool b => b
  | .int n => n ≠ 0
  | .float repr => !LedgerRuntime.floatEq repr 0
  | .str s => s ≠ []
  | .list items => !items.isEmpty
  | .tuple items => !items.isEmpty
  | .dict items => !items.isEmpty
  | .other _ => true

/-- `str(v or prev)`. -/
def strOr (v : PyValue) (prev : Text) : Text :=
  if truthy v then
    match v with
    | .str s => s
    | v => LedgerRuntime.str v
  else prev

/-- The manifest of an entry, if it is a text. -/
def manifest (entry : PyValue) : List Text :=
  match entry with
  | .dict entry =>
    match dictGet entry "manifest_sha256" with
    | .str s => [s]
    | _ => []
  | _ => []

/-- A turn of the loop. -/
def scanEntry (scan : Scan) (idx : ℕ) : PyValue → Except Exc Scan
  | .dict entry => do
    let sequence := report (!isInt (dictGet entry "sequence") idx) "LEDGER_SEQUENCE_INVALID" idx
    let previous := report (!(dictGet entry "previous_hash").isText scan.prev)
      "LEDGER_PREVIOUS_HASH_MISMATCH" idx
    let expected ← canonicalHash (core entry)
    let hash := report (!(dictGet entry "entry_hash").isText (Text.of expected))
      "LEDGER_ENTRY_HASH_MISMATCH" idx
    let seen ← isIn (dictGet entry "manifest_sha256") scan.seenManifest
    let replay := report seen "LEDGER_MANIFEST_REPLAY" idx
    return ⟨scan.problems ++ (sequence ++ previous ++ hash ++ replay),
      strOr (dictGet entry "entry_hash") scan.prev, scan.seenManifest ++ manifest (.dict entry)⟩
  | _ => return { scan with problems := scan.problems ++ report true "LEDGER_ENTRY_INVALID" idx }

/-- The loop. -/
def scanEntries (scan : Scan) (idx : ℕ) : List PyValue → Except Exc Scan
  | [] => return scan
  | entry :: entries => do scanEntries (← scanEntry scan idx entry) (idx + 1) entries

def scanAll (problems : List String) (entries : List PyValue) : Except Exc Scan :=
  scanEntries ⟨problems, Text.of GENESIS, []⟩ 1 entries

def verifyLedger (isSymlink : Bool) (file : File) : Except Exc Report :=
  if isSymlink then return ⟨false, ["LEDGER_SYMLINK_NOT_ALLOWED"], 0, none⟩
  else
    match file with
    | none => return ⟨false, ["LEDGER_MISSING"], 0, none⟩
    | some (.unreadable exc) => return ⟨false, ["LEDGER_INVALID_JSON:" ++ exc], 0, none⟩
    | some (.document (.dict payload)) => do
      let schema := if (dictGet payload "schema_version").isText (Text.of "1.0") then []
        else ["LEDGER_SCHEMA_VERSION_INVALID"]
      let classification :=
        if (dictGet payload "classification").isText (Text.of CLASSIFICATION) then []
        else ["LEDGER_INVALID_CLASSIFICATION"]
      match dictGet payload "entries" with
      | .list entries =>
        let scan ← scanAll (schema ++ classification) entries
        return ⟨scan.problems.isEmpty, scan.problems, entries.length, some scan.prev⟩
      | _ => return ⟨false, schema ++ classification ++ ["LEDGER_ENTRIES_NOT_LIST"], 0, none⟩
    | some (.document _) => .error .attributeError

/-! ## 3. `append_entry` -/

/-- The arguments. -/
structure Args where
  manifestSha256 : Text
  challengeId : Text
  gitCommitSha : Text
  profile : Text

/-- What the checks of the path find: whether a root is given, and whether the path escapes it, has
a symlink among its components or is one. -/
structure Place where
  root : Bool
  escapes : Bool
  symlinkComponent : Bool
  isSymlink : Bool
  resolvedEscapes : Bool

/-- The operations that raise: creating the directory or taking the lock, reading the ledger a
second time, making the temporary file, writing and flushing it, replacing the ledger, removing
the temporary file, and releasing the lock. -/
structure Faults where
  lock : Bool := false
  read : Bool := false
  mkstemp : Bool := false
  write : Bool := false
  replace : Bool := false
  unlink : Bool := false
  unlock : Bool := false

def raiseIf (c : Bool) (e : Exc) : Except Exc Unit := if c then .error e else .ok ()

def checkPlace (place : Place) : Except Exc Unit := do
  if place.root then
    raiseIf place.escapes (.valueError "ledger path escapes configured root")
    raiseIf place.symlinkComponent (.valueError "ledger path contains symlink component")
    raiseIf place.resolvedEscapes (.valueError "ledger path escapes configured root")
  else raiseIf place.isSymlink (.valueError "ledger path must not be a symlink")

/-- `_atomic_write_json`.  The file is as it was until it is replaced; that the directory cannot be
flushed afterwards is passed over. -/
def atomicWriteJson (faults : Faults) (payload : Dict) (file : File) : Except Exc Unit × File :=
  if faults.mkstemp then (.error (.osError "mkstemp"), file)
  else if faults.write ∨ faults.replace then
    if faults.unlink then (.error (.osError "unlink"), file)
    else (.error (.osError (if faults.write then "write" else "replace")), file)
  else (.ok (), some (.document (.dict payload)))

/-- The entries of the file. -/
def entriesOf : File → List PyValue
  | some (.document (.dict payload)) =>
    match dictGet payload "entries" with
    | .list entries => entries
    | _ => []
  | _ => []

/-- `entries[-1]["entry_hash"] if entries else GENESIS`. -/
def previousHash (entries : List PyValue) : Except Exc PyValue :=
  match entries.getLast? with
  | none => .ok (.str (Text.of GENESIS))
  | some (.dict entry) =>
    match entry.lookup (.str (Text.of "entry_hash")) with
    | some hash => .ok hash
    | none => .error (.keyError "entry_hash")
  | some _ => .error .typeError

/-- The core of a new entry. -/
def newCore (entries : List PyValue) (args : Args) (now : ℤ) (prev : PyValue) : Dict :=
  [(.str (Text.of "sequence"), .int (entries.length + 1)),
    (.str (Text.of "observed_at"), .str (Text.of (LedgerRuntime.isoformat now))),
    (.str (Text.of "manifest_sha256"), .str args.manifestSha256),
    (.str (Text.of "challenge_id"), .str args.challengeId),
    (.str (Text.of "git_commit_sha"), .str args.gitCommitSha),
    (.str (Text.of "profile"), .str args.profile), (.str (Text.of "previous_hash"), prev)]

/-- The entry with its hash. -/
def withHash (core : Dict) (hash : String) : Dict :=
  core ++ [(.str (Text.of "entry_hash"), .str (Text.of hash))]

/-- The document with these entries. -/
def ledger (entries : List PyValue) : Dict :=
  [(.str (Text.of "schema_version"), .str (Text.of "1.0")),
    (.str (Text.of "classification"), .str (Text.of CLASSIFICATION)),
    (.str (Text.of "entries"), .list entries)]

/-- What is appended to. -/
def readEntries (faults : Faults) (file : File) : Except Exc (List PyValue) :=
  match file with
  | none => return []
  | some _ => do
    let verified ← verifyLedger false file
    raiseIf (!verified.verified) (.valueError ("refusing to append to invalid evidence ledger: " ++
      ",".intercalate verified.problems))
    raiseIf faults.read (.osError "read")
    return entriesOf file

/-- The entry, and the document with it. -/
def prepare (faults : Faults) (file : File) (args : Args) (now : ℤ) : Except Exc (Dict × Dict) := do
  let entries ← readEntries faults file
  let prev ← previousHash entries
  let core := newCore entries args now prev
  let entry := withHash core (← canonicalHash core)
  return (entry, ledger (entries ++ [.dict entry]))

/-- What is done under the lock. -/
def appendLocked (faults : Faults) (file : File) (args : Args) (now : ℤ) : Except Exc Dict × File :=
  match prepare faults file args now with
  | .error e => (.error e, file)
  | .ok (entry, payload) =>
    match atomicWriteJson faults payload file with
    | (.ok (), file') => (.ok entry, file')
    | (.error e, file') => (.error e, file')

/-- `append_entry`: the entry, and the file it leaves. -/
def appendEntry (place : Place) (faults : Faults) (file : File) (args : Args) (now : ℤ) :
    Except Exc Dict × File :=
  match checkPlace place with
  | .error e => (.error e, file)
  | .ok () =>
    if faults.lock then (.error (.osError "lock"), file)
    else
      match appendLocked faults file args now with
      | (result, file') => (if faults.unlock then .error (.osError "unlock") else result, file')

end Runtime

end Kripto.Release
