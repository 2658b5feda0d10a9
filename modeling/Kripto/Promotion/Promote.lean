/-
# `acceptance_return_promotion.py`

Promoting a staged bundle swaps the canonical evidence directory for a copy with the bundle's
files in it, verifies the result in place, and records the bundle in the import ledger.  The
journal says that a swap is going on; `recover_pending_transaction` reads it after a crash and
either finishes the promotion (the ledger has the bundle) or undoes it (it has not).

The functions are in the order of the source.  What they return beside the disk is kept as far
as a later step or a caller reads it.
-/
import Kripto.Promotion.Disk
import Mathlib.Data.List.Infix

namespace Kripto.Promotion

open Effect

variable [Encoding]

/-! ## 1. Paths of a bundle -/

def CANONICAL_PREFIX : String := "reports/external_acceptance/"

def LOCKS : List String := ["uv.lock", "frontend/package-lock.json"]

def LOCK_PROMOTION_MANIFEST : String := "reports/lock-promotion/LOCK_PROMOTION_MANIFEST.json"

/-- `token in text`. -/
def occursIn (token text : String) : Bool := decide (token.toList <:+: text.toList)

def startsWith (text start : String) : Bool := start.toList.isPrefixOf text.toList

def endsWith (text tail : String) : Bool := tail.toList.isSuffixOf text.toList

/-- The classes one path stands for. -/
def classesOf (rel : String) : List String :=
  (if rel ∈ LOCKS ∨ rel = LOCK_PROMOTION_MANIFEST then ["DEPENDENCY_LOCK_CANDIDATE"] else []) ++
  (if rel = "reports/CI_BUILD_EVIDENCE_MANIFEST.json" then ["CI_BUILD_EVIDENCE"] else []) ++
  (if startsWith rel CANONICAL_PREFIX then ["CANONICAL_EXTERNAL_ACCEPTANCE"] else []) ++
  (if endsWith rel "manifest_frontend.json" || occursIn "browser" rel.toLower ||
      occursIn "frontend" rel.toLower then ["FRONTEND_BROWSER_EVIDENCE"] else []) ++
  (if ["sbom", "dependency_licenses", "supply_chain", "scanner_image", "provenance"].any
      (occursIn · rel) then ["SUPPLY_CHAIN_EVIDENCE"] else []) ++
  (if ["release_challenge", "evidence_ledger", "ledger_checkpoint"].any
      (occursIn · rel) then ["TRUST_CHAIN_EVIDENCE"] else [])

def artifactClasses (paths : List String) : List String := sortedSet (paths.flatMap classesOf)

/-- The parts of a path, without the empty ones and the dots. -/
def pathParts (rel : String) : List String :=
  ((rel.toList.splitOn '/').filter fun part => part ≠ [] ∧ part ≠ ['.']).map String.ofList

/-- `Path(rel).relative_to("reports/external_acceptance")`. -/
def suffix (rel : String) : String := "/".intercalate ((pathParts rel).drop 2)

/-- A staged bundle: the text of its manifest, and the files by the path the manifest gives. -/
structure Staged where
  manifest : Option String
  files : Tree

/-! ## 2. Reading the ledger -/

/-- `_load_import_ledger`. -/
def loadImportLedger : Prog diskSig (LedgerDoc × List String) := do
  let file ← perform .readLedger
  if file = .notObject then .raise "AttributeError" else pure (file.document, file.problems)

/-- `_ledger_contains_bundle`. -/
def ledgerContainsBundle (bundle : String) : Prog diskSig Bool := do
  let (doc, problems) ← loadImportLedger
  if problems ≠ [] then pure false else pure (decide (bundle ∈ doc.bundles))

/-! ## 3. Undoing a swap -/

/-- `shutil.rmtree(dir, ignore_errors=True)`. -/
def rmtree (dir : String) : Prog diskSig Unit := do
  perform (.rmtreeSome dir)
  perform (.rmtreeRest dir)

/-- `if canonical.exists(): rmtree(canonical)`. -/
def removeCanonical : Prog diskSig Unit := do
  if ← perform (.dirExists canonicalDir) then rmtree canonicalDir else pure ()

/-- `if look and backup.exists(): os.replace(backup, canonical)`. -/
def restore (look : Bool) (backup : String) : Prog diskSig Unit :=
  if look then do
    if ← perform (.dirExists backup) then perform (.replace backup canonicalDir) else pure ()
  else pure ()

def removeLockCandidate : Option String → Prog diskSig Unit
  | some dir => rmtree dir
  | none => pure ()

/-- What the recovery and the `except` branch of `promote` both do.  The recovery always looks
for a backup; `promote` only if there was a canonical tree. -/
def undoSwap (look : Bool) (backup replacement : String) (lockCandidate : Option String) :
    Prog diskSig Unit := do
  removeCanonical
  restore look backup
  rmtree replacement
  removeLockCandidate lockCandidate

/-- The last journal of a transaction, which is removed at once. -/
def closeJournal (doc : Journal) : Prog diskSig Unit := do
  perform (.writeJournal doc)
  perform .unlinkJournal

/-! ## 4. `recover_pending_transaction` -/

structure Recovery where
  recovered : Bool
  status : String
  problems : List String
  deriving DecidableEq

def finalizeCommit (doc : Journal) : Prog diskSig Recovery := do
  rmtree doc.backupRelpath
  rmtree doc.replacementRelpath
  closeJournal { doc with status := some "COMMITTED" }
  pure ⟨true, "FINALIZED_COMMIT", []⟩

/-- No ledger event exists: the canonical swap must not survive. -/
def rollBack (doc : Journal) : Prog diskSig Recovery :=
  let lockCandidate := doc.lockCandidateRelpath.filter fun dir => dir ≠ ""
  (do
    undoSwap true doc.backupRelpath doc.replacementRelpath
      (if doc.lockCandidatePreexisting then none else lockCandidate)
    closeJournal { doc with status := some "ROLLED_BACK" }
    pure ⟨true, "ROLLED_BACK", []⟩ : Prog diskSig Recovery).tryCatch fun exc =>
      pure ⟨false, "RECOVERY_FAILED", ["TRANSACTION_RECOVERY_FAILED:" ++ exc]⟩

def recoverDocument (doc : Journal) : Prog diskSig Recovery :=
  if doc.schemaVersion ≠ some "1.0" ∨
      doc.classification ≠ some TRANSACTION_JOURNAL_CLASSIFICATION then
    pure ⟨false, "JOURNAL_INVALID", ["TRANSACTION_JOURNAL_CONTRACT_INVALID"]⟩
  else if doc.status = some "COMMITTED" ∨ doc.status = some "ROLLED_BACK" then do
    perform .unlinkJournal
    pure ⟨true, "CLEANED_" ++ doc.status.getD "", []⟩
  else match doc.bundleManifestSha256 with
    | none => pure ⟨false, "JOURNAL_INVALID", ["TRANSACTION_JOURNAL_BUNDLE_INVALID"]⟩
    | some bundle =>
      if bundle.length ≠ 64 then
        pure ⟨false, "JOURNAL_INVALID", ["TRANSACTION_JOURNAL_BUNDLE_INVALID"]⟩
      else do
        if ← ledgerContainsBundle bundle then finalizeCommit doc else rollBack doc

def recoverPendingTransaction : Prog diskSig Recovery := do
  match ← perform .readJournal with
  | .absent => pure ⟨false, "NO_PENDING_TRANSACTION", []⟩
  | .invalid exc =>
    pure ⟨false, "JOURNAL_INVALID", ["TRANSACTION_JOURNAL_INVALID:" ++ exc]⟩
  | .unreadable exc => .raise exc
  | .doc doc => recoverDocument doc

/-! ## 5. `_append_import_ledger` -/

structure LedgerEntry where
  sourceSha : String
  promotedFiles : List String
  artifactClasses : List String
  trustAnchor : List (String × String)

def appendImportLedger (bundle : Digest) (entry : LedgerEntry) : Prog diskSig Unit := do
  let (doc, problems) ← loadImportLedger
  if problems ≠ [] then .raise "ValueError" else
    match lastEventHash doc.eventList with
    | none => .raise "KeyError"
    | some previous => do
      let now ← perform .utcNow
      perform (.writeLedger (doc.appended (newEvent bundle entry.sourceSha
        entry.promotedFiles entry.artifactClasses entry.trustAnchor now previous)))

/-! ## 6. `assess` -/

structure Assessment where
  verified : Bool
  sourceGitCommitSha : Option String
  canonicalEvidenceFiles : List String
  lockCandidateFiles : List String
  bundleManifestSha256 : Option Digest
  artifactClasses : List String
  problems : List String

/-- What the transport checks object to in the paths of a bundle. -/
def lockProblems (paths : List String) : List String :=
  let lockPaths := paths.filter (· ∈ LOCKS)
  (if lockPaths ≠ [] ∧ ¬ LOCKS ⊆ lockPaths then ["LOCK_SET_PARTIAL"] else []) ++
  (if lockPaths ≠ [] ∧ LOCK_PROMOTION_MANIFEST ∉ paths then
    ["LOCK_PROMOTION_MANIFEST_MISSING"] else [])

/-- `_semantic_verify_candidate`, as `assess` calls it. -/
def semanticVerdict (problems : List String) : Prog diskSig Verdict :=
  if problems = [] then
    (perform .semanticVerify).tryCatch fun exc =>
      pure ⟨false, ["SEMANTIC_ASSESSMENT_ERROR:" ++ exc]⟩
  else pure ⟨false, []⟩

def assess (staged : Staged) : Prog diskSig Assessment := do
  let loaded ← perform .loadStaged
  let bundle := staged.manifest.map Encoding.sha256
  let (ledger, ledgerProblems) ← loadImportLedger
  if bundle.isSome ∧ ledger.events = .scalar then .raise "TypeError" else do
  let replay : List String := match bundle with
    | some sha => if sha.1 ∈ ledger.bundles then ["RETURN_BUNDLE_REPLAY"] else []
    | none => []
  let problems := loaded.problems ++ lockProblems loaded.paths ++ ledgerProblems ++ replay
  let semantic ← semanticVerdict problems
  pure
    { verified := decide (problems ++ semantic.problems = []) && semantic.verified
      sourceGitCommitSha := loaded.sourceGitCommitSha
      canonicalEvidenceFiles := (loaded.paths.filter fun p =>
        startsWith p CANONICAL_PREFIX && !occursIn "/incoming/" p).insertionSort (· ≤ ·)
      lockCandidateFiles := (loaded.paths.filter (· ∈ LOCKS)).insertionSort (· ≤ ·)
      bundleManifestSha256 := bundle
      artifactClasses := artifactClasses loaded.paths
      problems := sortedSet (problems ++ semantic.problems) }

/-! ## 7. `_copy_lock_candidates` -/

/-- Copy those of the files that are there. -/
def copyPresent (staged : Staged) (dir : String) : List String → Prog diskSig Unit
  | [] => pure ()
  | rel :: rest =>
    match staged.files.lookup rel with
    | some content => do
      perform (.copyInto dir rel content)
      copyPresent staged dir rest
    | none => copyPresent staged dir rest

def copyLockCandidates (staged : Staged) (bundle : String) (paths : List String) :
    Prog diskSig (Option String) :=
  if paths = [] then pure none else do
  if ← perform (.dirExists (lockCandidateDir bundle)) then
    pure (some (lockCandidateDir bundle))
  else do
    rmtree (lockTempDir bundle)
    copyPresent staged (lockTempDir bundle) (paths ++ [LOCK_PROMOTION_MANIFEST])
    perform (.replace (lockTempDir bundle) (lockCandidateDir bundle))
    pure (some (lockCandidateDir bundle))

/-! ## 8. `promote`: the replacement -/

/-- Copy the files of the bundle; one that is not there stops the promotion. -/
def copyFiles (staged : Staged) (dir : String) : List String → Prog diskSig Unit
  | [] => pure ()
  | rel :: rest =>
    match staged.files.lookup rel with
    | some content => do
      perform (.copyInto dir (suffix rel) content)
      copyFiles staged dir rest
    | none => .raise "FileNotFoundError"

/-- The promoted files over the old tree. -/
def overlay (staged : Staged) (files : List String) (t : Tree) : Tree :=
  files.foldl (fun t rel => t.insert (suffix rel) ((staged.files.lookup rel).getD "")) t

/-- **The promoted tree**, from the tree that was there. -/
def promotedTree (staged : Staged) (files : List String) (transaction : PromotionTransaction)
    (old : Option Tree) : Tree :=
  (overlay staged files (old.getD ∅)).insert "PROMOTION_TRANSACTION.json"
    (Encoding.dumpsTransaction transaction)

/-- The copy of the canonical tree the promoted files are put into. -/
def seedReplacement (replacement : String) : Prog diskSig Unit := do
  if ← perform (.dirExists canonicalDir) then do
    perform (.copytreeSome canonicalDir replacement)
    perform (.copytreeRest canonicalDir replacement)
  else perform (.mkdir replacement)

/-- Build the promoted tree beside the canonical one. -/
def prepare (staged : Staged) (bundle : String) (files : List String)
    (transaction : PromotionTransaction) : Prog diskSig Unit := do
  rmtree (replacementDir bundle)
  rmtree (backupDir bundle)
  seedReplacement (replacementDir bundle)
  copyFiles staged (replacementDir bundle) files
  perform (.copyInto (replacementDir bundle) "PROMOTION_TRANSACTION.json"
    (Encoding.dumpsTransaction transaction))

/-! ## 9. `promote`: the transaction -/

/-- What a transaction knows when it begins. -/
structure Transaction where
  staged : Staged
  bundle : Digest
  lockFiles : List String
  hadCanonical : Bool
  lockPreexisting : Bool
  entry : LedgerEntry

/-- `journal_base`. -/
def Transaction.journal (x : Transaction) (status : String) : Journal :=
  { schemaVersion := some "1.0"
    classification := some TRANSACTION_JOURNAL_CLASSIFICATION
    status := some status
    bundleManifestSha256 := some x.bundle.1
    backupRelpath := backupDir x.bundle.1
    replacementRelpath := replacementDir x.bundle.1
    lockCandidateRelpath := if x.lockFiles = [] then none else some (lockCandidateDir x.bundle.1)
    lockCandidatePreexisting := x.lockPreexisting }

/-- The variables of `promote` that the `except` branch reads. -/
structure Locals where
  post : Verdict
  lockCandidate : Option String
  deriving DecidableEq

/-- A part of the `try` block.  If it raises, the block ends with the locals it has now. -/
def during {α : Type} (locals : Locals) (part : Prog diskSig α)
    (rest : α → Prog diskSig (Except Exc Unit × Locals)) :
    Prog diskSig (Except Exc Unit × Locals) :=
  part.attempt >>= fun
    | .ok a => rest a
    | .error exc => pure (.error exc, locals)

/-- `if had_canonical: os.replace(canonical_dir, backup)`. -/
def Transaction.moveAside (x : Transaction) : Prog diskSig Unit :=
  if x.hadCanonical then perform (.replace canonicalDir (backupDir x.bundle.1)) else pure ()

def Transaction.swap (x : Transaction) : Prog diskSig Verdict := do
  x.moveAside
  perform (.replace (replacementDir x.bundle.1) canonicalDir)
  perform (.writeJournal (x.journal "CANONICAL_SWAPPED"))
  perform .postVerify

def Transaction.checkAndCopy (x : Transaction) (post : Verdict) :
    Prog diskSig (Option String) :=
  if post.verified then copyLockCandidates x.staged x.bundle.1 x.lockFiles
  else .raise "RuntimeError"

def Transaction.commit (x : Transaction) : Prog diskSig Unit := do
  perform (.writeJournal (x.journal "POST_VERIFIED"))
  appendImportLedger x.bundle x.entry
  perform (.writeJournal (x.journal "LEDGER_COMMITTED"))

/-- The `try` block. -/
def Transaction.body (x : Transaction) : Prog diskSig (Except Exc Unit × Locals) :=
  let post₀ : Verdict := ⟨false, ["POST_PROMOTION_NOT_RUN"]⟩
  during ⟨post₀, none⟩ x.swap fun post =>
  during ⟨post, none⟩ (x.checkAndCopy post) fun lockCandidate =>
  during ⟨post, lockCandidate⟩ x.commit fun _ => pure (.ok (), ⟨post, lockCandidate⟩)

/-- The `except` branch. -/
def Transaction.abort (x : Transaction) (locals : Locals) : Prog diskSig Unit := do
  undoSwap x.hadCanonical (backupDir x.bundle.1) (replacementDir x.bundle.1)
    (if x.lockPreexisting then none else locals.lockCandidate)
  closeJournal (x.journal "ROLLED_BACK")

/-- The `else` branch. -/
def Transaction.finish (x : Transaction) : Prog diskSig Unit := do
  rmtree (backupDir x.bundle.1)
  closeJournal (x.journal "COMMITTED")

/-- What `promote` returns. -/
structure Promoted where
  verified : Bool
  promoted : Bool
  rolledBack : Option Bool
  recovery : Recovery
  problems : List String
  deriving DecidableEq

/-- From the `PREPARED` journal on. -/
def Transaction.run (x : Transaction) (assessment : Assessment) (recovery : Recovery) :
    Prog diskSig Promoted := do
  perform (.writeJournal (x.journal "PREPARED"))
  let (outcome, locals) ← x.body
  match outcome with
  | .error exc => do
    x.abort locals
    pure ⟨assessment.verified, false, some true, recovery, sortedSet (assessment.problems ++
      locals.post.problems ++ ["PROMOTION_TRANSACTION_ROLLED_BACK:" ++ exc])⟩
  | .ok _ => do
    x.finish
    pure ⟨assessment.verified, true, some false, recovery, assessment.problems⟩

/-- The transaction of a bundle that was assessed and found good. -/
def promoteVerified (staged : Staged) (assessment : Assessment) (localGit : Option String)
    (recovery : Recovery) : Prog diskSig Promoted :=
  match assessment.bundleManifestSha256 with
  | none => .raise "TypeError"
  | some bundle => do
    let sourceSha := localGit.getD ""
    prepare staged bundle.1 assessment.canonicalEvidenceFiles
      ⟨sourceSha, bundle.1, assessment.canonicalEvidenceFiles, assessment.artifactClasses⟩
    let hadCanonical ← perform (.dirExists canonicalDir)
    let lockPreexisting ← perform (.dirExists (lockCandidateDir bundle.1))
    let anchor ← perform .trustAnchor
    Transaction.run
      { staged := staged
        bundle := bundle
        lockFiles := assessment.lockCandidateFiles
        hadCanonical := hadCanonical
        lockPreexisting := lockPreexisting
        entry := ⟨sourceSha, assessment.canonicalEvidenceFiles,
          assessment.artifactClasses, anchor⟩ }
      assessment recovery

/-- `promote`, once no transaction is pending. -/
def promoteRecovered (staged : Staged) (confirmSourceSha : String) (recovery : Recovery) :
    Prog diskSig Promoted := do
  let assessment ← assess staged
  let localGit ← perform .gitSha
  if some confirmSourceSha ≠ localGit ∨ assessment.sourceGitCommitSha ≠ localGit then
    pure ⟨assessment.verified, false, none, recovery,
      sortedSet (assessment.problems ++ ["PROMOTION_SOURCE_CONFIRMATION_MISMATCH"])⟩
  else if assessment.verified then promoteVerified staged assessment localGit recovery
  else pure ⟨assessment.verified, false, none, recovery, assessment.problems⟩

def promote (staged : Staged) (confirmSourceSha : String) : Prog diskSig Promoted := do
  let recovery ← recoverPendingTransaction
  if recovery.problems ≠ [] then
    pure ⟨false, false, none, recovery, recovery.problems⟩
  else promoteRecovered staged confirmSourceSha recovery

end Kripto.Promotion
