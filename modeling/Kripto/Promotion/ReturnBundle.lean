/-
# Acceptance return bundles

`external/acceptance_return_bundle.py`, `verify` and `stage`, and `_load_staged` of
`acceptance_return_promotion.py`.  A bundle is a zip archive whose manifest lists its members.
`verify` compares their names as texts; `stage` writes them below a new directory, and
`_load_staged` reads them there, under the paths the names denote.

Zip files, JSON texts and regular expressions are those of the platform.  A dictionary that
`json.loads` returns is taken with its keys in order, so that equal ones are the same.  `stage`
makes no symbolic links, so `_load_staged` finds none; but the look for them raises where a path is
too long.
-/
import Kripto.Effect.DirTree
import Kripto.Python.Text
import Kripto.Python.Json
import Mathlib.Data.List.Dedup
import Mathlib.Data.List.Sort

namespace Kripto.Promotion.Return

open Effect Python

/-! ## 1. The platform -/

structure ZipInfo where
  filename : Text
  externalAttr : ℕ
  createSystem : ℕ

/-- An opened archive. -/
structure ZipFile where
  infolist : List ZipInfo
  read : Text → Except String Bytes

/-- What raises does so with the name of a class of exceptions. -/
class Platform where
  /-- `zipfile.ZipFile(archive, "r")` -/
  zipFile : Bytes → Except String ZipFile
  /-- `json.loads` -/
  loads : Bytes → Except String PyValue
  /-- `json.dumps(v, indent=2, sort_keys=True) + "\n"` -/
  dumps : PyValue → Bytes
  /-- the value of a finite float -/
  floatValue : String → Option ℚ
  /-- `re.compile(pattern).search(data)` -/
  search : String → Bytes → Bool
  /-- paths that can be made below the temporary directory: every name and the whole path are short
  enough, and can be encoded -/
  allows : List Text → Bool
  /-- paths that can be looked up below the staged directory, whose name is longer -/
  reaches : List Text → Bool

/-! ## 2. Constants and small helpers -/

def MANIFEST : Text := Text.of "ACCEPTANCE_RETURN_MANIFEST.json"

def CLASSIFICATION : String := "EXTERNAL_ACCEPTANCE_RETURN_TRANSPORT_NOT_ACCEPTANCE_BY_ITSELF"

/-- The patterns from the source, a brace as `\x7b` and `\x7d`. -/
def SECRET_PATTERNS : List String :=
  ["(?i)(api[_-]?key|api[_-]?secret|access[_-]?token|refresh[_-]?token|password|passwd)" ++
      "\\s*[:=]\\s*['\"]?[^\\s'\";,\x7d]\x7b8,\x7d",
    "(?i)authorization\\s*:\\s*(bearer|basic)\\s+[A-Za-z0-9._~+/=-]\x7b8,\x7d",
    "(?i)https?://[^\\s/:]+:[^\\s/@]+@"]

/-- `Path(value).parts`, for a path that is not absolute. -/
def parts (value : Text) : List Text :=
  (value.splitOn (.scalar '/')).filter fun part => part ≠ [] ∧ part ≠ [.scalar '.']

def isAbsolute (value : Text) : Bool := value.head? = some (.scalar '/')

def safeRel (value : Text) : Bool :=
  parts value ≠ [] ∧ ¬ isAbsolute value ∧ Text.of ".." ∉ parts value ∧
    CodePoint.scalar '\\' ∉ value ∧ CodePoint.scalar '\x00' ∉ value

/-- `sorted(set(problems))`. -/
def sortedSet (problems : List Text) : List Text :=
  problems.dedup.insertionSort fun a b => a.map CodePoint.ord ≤ b.map CodePoint.ord

section Checks

variable [Platform]

def secretHits (data : Bytes) : List Text :=
  (SECRET_PATTERNS.zipIdx 1).filterMap fun (pattern, idx) =>
    if Platform.search pattern data then some (Text.of ("SECRET_PATTERN:" ++ toString idx))
    else none

/-- `v == n`. -/
def equalsNat (v : PyValue) (n : ℕ) : Bool :=
  match v with
  | .int m => m = n
  | .bool b => (if b then 1 else 0) = n
  | .float repr => Platform.floatValue repr = some (n : ℚ)
  | _ => false

/-- `rows`, the list of `files` if it is one. -/
def rowsOf (manifest : Dict) : List PyValue :=
  match dictGet manifest "files" with
  | .list rows => rows
  | _ => []

/-- A row that is a dictionary with a text for a path. -/
def entry? : PyValue → Option (Dict × Text)
  | .dict row => match dictGet row "path" with
    | .str name => some (row, name)
    | _ => none
  | _ => none

variable [HashBytes]

/-- What is wrong with the data of a row. -/
def dataProblems (mark : String) (row : Dict) (name : Text) (data : Bytes) : List Text :=
  (if (dictGet row "sha256").isText (HashBytes.sha256 data).hex then []
    else [Text.of (mark ++ "HASH_MISMATCH:") ++ name]) ++
  (if equalsNat (dictGet row "size") data.length then []
    else [Text.of (mark ++ "SIZE_MISMATCH:") ++ name]) ++
  (secretHits data).map fun hit => hit ++ Text.of ":" ++ name

/-! ## 3. `verify` -/

structure Verification where
  verified : Bool
  problems : List Text
  sourceGitCommitSha : PyValue

def memberProblems (infos : List ZipInfo) : List Text :=
  (if (infos.map (·.filename)).Nodup then [] else [Text.of "DUPLICATE_MEMBER"]) ++
  infos.flatMap fun info =>
    (if safeRel info.filename then [] else [Text.of "UNSAFE_MEMBER:" ++ info.filename]) ++
    (let unixType := (info.externalAttr >>> 16) &&& 0o170000
      if info.createSystem = 3 ∧ unixType ≠ 0 ∧ unixType ≠ 0o100000 then
        [Text.of "SPECIAL_MEMBER:" ++ info.filename]
      else [])

def headerProblems (manifest : Dict) (expectedGitSha : Option Text) : List Text :=
  let sourceGit := dictGet manifest "source_git_commit_sha"
  (if (dictGet manifest "schema_version").isText (Text.of "1.0") then []
    else [Text.of "MANIFEST_SCHEMA_INVALID"]) ++
  (if (dictGet manifest "classification").isText (Text.of CLASSIFICATION) then []
    else [Text.of "MANIFEST_CLASSIFICATION_INVALID"]) ++
  (match dictGet manifest "secret_transport" with
    | .bool false => []
    | _ => [Text.of "SECRET_TRANSPORT_POLICY_INVALID"]) ++
  (match sourceGit with
    | .str sha => if sha.length = 40 then [] else [Text.of "SOURCE_GIT_INVALID"]
    | _ => [Text.of "SOURCE_GIT_INVALID"]) ++
  (if expectedGitSha.all fun sha => sha = [] ∨ sourceGit.isText sha then []
    else [Text.of "SOURCE_GIT_MISMATCH"]) ++
  (if equalsNat (dictGet manifest "file_count") (rowsOf manifest).length then []
    else [Text.of "FILE_COUNT_MISMATCH"])

/-- The loop over the rows: the problems, and the names seen unless a member could not be read. -/
def checkRows (zf : ZipFile) : List Text → List PyValue → List Text × Except String (List Text)
  | seen, [] => ([], .ok seen)
  | seen, row :: rows =>
    match entry? row with
    | none =>
      let rest := checkRows zf seen rows
      (Text.of "MANIFEST_ENTRY_INVALID" :: rest.1, rest.2)
    | some (row, name) =>
      if ¬ safeRel name then
        let rest := checkRows zf seen rows
        ((Text.of "MANIFEST_PATH_UNSAFE:" ++ name) :: rest.1, rest.2)
      else
        let twice := if name ∈ seen then [Text.of "MANIFEST_DUPLICATE:" ++ name] else []
        if name ∉ zf.infolist.map (·.filename) then
          let rest := checkRows zf (name :: seen) rows
          (twice ++ (Text.of "MEMBER_MISSING:" ++ name) :: rest.1, rest.2)
        else match zf.read name with
          | .error e => (twice, .error e)
          | .ok data =>
            let rest := checkRows zf (name :: seen) rows
            (twice ++ dataProblems "" row name data ++ rest.1, rest.2)

/-- The body of the `with`, once the manifest has been read. -/
def checkManifest (zf : ZipFile) (manifest : Dict) (expectedGitSha : Option Text) : List Text :=
  let checked := checkRows zf [] (rowsOf manifest)
  headerProblems manifest expectedGitSha ++ checked.1 ++
    match checked.2 with
    | .error e => [Text.of ("ARCHIVE_INVALID:" ++ e)]
    | .ok seen =>
      let names := zf.infolist.map (·.filename)
      (sortedSet (names.filter fun name => name ≠ MANIFEST ∧ name ∉ seen)).map
        fun name => Text.of "UNEXPECTED_MEMBER:" ++ name

def result (problems : List Text) (sourceGit : PyValue) : Verification :=
  ⟨problems.isEmpty, sortedSet problems, sourceGit⟩

def verify (archive : Bytes) (expectedGitSha : Option Text) : Except String Verification :=
  match Platform.zipFile archive with
  | .error e => .ok (result [Text.of ("ARCHIVE_INVALID:" ++ e)] .none)
  | .ok zf =>
    let problems := memberProblems zf.infolist
    if MANIFEST ∉ zf.infolist.map (·.filename) then
      .ok ⟨false, sortedSet (problems ++ [Text.of "MANIFEST_MISSING"]), .none⟩
    else match zf.read MANIFEST >>= Platform.loads with
      | .error e => .ok (result (problems ++ [Text.of ("ARCHIVE_INVALID:" ++ e)]) .none)
      | .ok (.dict manifest) =>
        .ok (result (problems ++ checkManifest zf manifest expectedGitSha)
          (dictGet manifest "source_git_commit_sha"))
      -- `manifest.get` raises, in the `try` and again in the `return`.
      | .ok _ => .error "AttributeError"

/-- `verify` says so. -/
def Verifies (archive : Bytes) (git : Text) : Prop :=
  (verify archive (some git)).map (·.verified) = .ok true

instance (archive : Bytes) (git : Text) : Decidable (Verifies archive git) :=
  inferInstanceAs (Decidable (_ = _))

/-! ## 4. `stage` -/

abbrev StagedTree : Type := DirTree Text Bytes

structure StageResult where
  staged : Bool
  idempotent : Option Bool
  bundleSha256 : Option Text
  problems : List Text

/-- A key, as a value; the keys of a JSON object are texts. -/
def keyValue : Key → PyValue
  | .str s => .str s
  | _ => .none

/-- `for row in files`, of what `json.loads` can return. -/
def iterate : PyValue → Except String (List PyValue)
  | .list rows => .ok rows
  | .str s => .ok (s.map fun c => .str [c])
  | .dict items => .ok (items.map fun item => keyValue item.1)
  | _ => .error "TypeError"

/-- `v[name]`. -/
def index (v : PyValue) (name : String) : Except String PyValue :=
  match v with
  | .dict items => match items.lookup (.str (Text.of name)) with
    | some v => .ok v
    | none => .error "KeyError"
  | _ => .error "TypeError"

/-- A file or a directory is written. -/
def orOSError : Option StagedTree → Except String StagedTree
  | some t => .ok t
  | none => .error "OSError"

/-- One row is written.  `verify` has read its member before. -/
def stageRow (zf : ZipFile) (t : StagedTree) (row : PyValue) : Except String StagedTree := do
  match ← index row "path" with
  | .str rel => do
    let data ← zf.read rel
    orOSError (t.put Platform.allows (parts rel, data))
  | _ => .error "TypeError"

/-- The tree that is moved to its place at the end. -/
def stagedTree (archive : Bytes) : Except String StagedTree := do
  let zf ← Platform.zipFile archive
  let manifest ← zf.read MANIFEST >>= Platform.loads
  let rows ← index manifest "files" >>= iterate
  let t ← rows.foldlM (stageRow zf) DirTree.empty
  orOSError (t.put Platform.allows ([MANIFEST], Platform.dumps manifest))

/-- The staging area: its directories by their names. -/
abbrev Incoming : Type := Text → Option StagedTree

def stage (archive : Bytes) (localGit : Option Text) (incoming : Incoming) :
    Except String StageResult × Incoming :=
  match localGit with
  | none => (.ok ⟨false, none, none, [Text.of "LOCAL_GIT_UNAVAILABLE"]⟩, incoming)
  | some expectedGit =>
    match verify archive (some expectedGit) with
    | .error e => (.error e, incoming)
    | .ok validation =>
      if ¬ validation.verified then (.ok ⟨false, none, none, validation.problems⟩, incoming)
      else
        let digest := (HashBytes.sha256 archive).hex
        match incoming digest with
        | some target => match target [MANIFEST] with
          | some (.file _) => (.ok ⟨true, some true, some digest, []⟩, incoming)
          | _ => (.ok ⟨false, none, none, [Text.of "STAGING_TARGET_COLLISION"]⟩, incoming)
        | none => match stagedTree archive with
          | .error e => (.error e, incoming)
          | .ok t => (.ok ⟨true, some false, some digest, []⟩,
              Function.update incoming digest (some t))

/-! ## 5. `_load_staged` -/

/-- The loop over the rows. -/
def loadRows (staged : StagedTree) : List Text → List PyValue → Except String (List Text)
  | _, [] => .ok []
  | seen, row :: rows =>
    match entry? row with
    | none => (loadRows staged seen rows).map fun rest => Text.of "STAGED_ENTRY_INVALID" :: rest
    | some (row, rel) =>
      if ¬ safeRel rel then
        (loadRows staged seen rows).map fun rest => (Text.of "STAGED_PATH_UNSAFE:" ++ rel) :: rest
      -- `is_symlink` raises what is not about a missing file.
      else if ¬ Platform.reaches (parts rel) then .error "OSError"
      else (loadRows staged (rel :: seen) rows).map fun rest =>
        (if rel ∈ seen then [Text.of "STAGED_DUPLICATE:" ++ rel] else []) ++
        (match staged (parts rel) with
          | some (.file data) => dataProblems "STAGED_" row rel data
          | _ => [Text.of "STAGED_FILE_MISSING:" ++ rel]) ++ rest

/-- `marker.read_text(..)`, then `json.loads`. -/
def readMarker (staged : StagedTree) : Except String PyValue :=
  if ¬ Platform.reaches [MANIFEST] then .error "OSError"
  else match staged [MANIFEST] with
    | some (.file text) => Platform.loads text
    | some .dir => .error "IsADirectoryError"
    | none => .error "FileNotFoundError"

def loadStaged (staged : StagedTree) (localGit : Option Text) :
    Except String (PyValue × List Text) :=
  match readMarker staged with
  | .error e => .ok (.dict [], [Text.of ("STAGED_MANIFEST_INVALID:" ++ e)])
  | .ok (.dict manifest) => (loadRows staged [] (rowsOf manifest)).map fun found =>
    (.dict manifest, sortedSet (
      (if localGit = none then [Text.of "LOCAL_GIT_UNAVAILABLE"] else []) ++
      (if localGit.any (dictGet manifest "source_git_commit_sha").isText then []
        else [Text.of "SOURCE_GIT_MISMATCH"]) ++
      (if equalsNat (dictGet manifest "file_count") (rowsOf manifest).length then []
        else [Text.of "FILE_COUNT_MISMATCH"]) ++ found))
  | .ok _ => .error "AttributeError"

end Checks

end Kripto.Promotion.Return
