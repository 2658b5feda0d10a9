/-
# Replacing a release

`scripts/transactional_release_update.py`: a new release is extracted beside the active one,
checked, and put in its place; the old one is kept as a rollback directory.  The journal is
written before the active directory is touched; while it is there, the directory of before is
put back.  `rollback_last_update` puts a kept directory back later, and has no journal.

A tree stands for its content and for the digest of it.  A directory keeps its identity when it
is renamed, so it knows the update it was extracted for.  What `uuid4` and `mkdtemp` come up with
are arguments; the lock around all of this is not a part of it.
-/
import Kripto.Deploy.AuditFile
import Mathlib.Data.Nat.Notation

namespace Kripto.Deploy.ReleaseUpdate

open Effect Effect.Files

/-! ## 1. The files -/

/-- A directory.  `origin`: the update whose candidate it was. -/
structure Dir (T : Type) where
  origin : Option ℕ
  tree : T

/-- The update journal.  `candidate` and `backup`: `none` if it is no name of such a directory
beside the active one. -/
structure Journal where
  schemaVersion : String
  classification : String
  status : String
  activeName : String
  candidate : Option ℕ
  backup : Option ℕ

/-- `sealed`: `provenance_sha256` is the digest of the rest. -/
structure Acceptance (T : Type) where
  schemaVersion : String
  classification : String
  transactionId : ℕ
  preUpdateTree : T
  postUpdateTree : T
  migrationReceipt : Option String
  isSealed : Bool
  deriving DecidableEq

/-- `acceptance`: `none` if it is no name of an acceptance receipt. -/
structure RollbackReceipt (T : Type) where
  schemaVersion : String
  classification : String
  backup : ℕ
  backupTree : T
  acceptance : Option ℕ
  acceptanceDigest : Acceptance T
  deriving DecidableEq

structure RollbackAcceptance (T : Type) where
  sourceAcceptance : Acceptance T
  sourceRollback : RollbackReceipt T
  activeTree : T
  deriving DecidableEq

inductive Event (T : Type)
  | updateAccepted (acceptance : ℕ) (acceptanceDigest : Acceptance T) (rollback : ℕ)
      (rollbackDigest : RollbackReceipt T) (postUpdateTree : T)
  | rollbackAccepted (acceptance : ℕ) (acceptanceDigest : RollbackAcceptance T) (activeTree : T)
  | other (eventType : String)
  deriving DecidableEq

/-- Updates are told apart by their token.  `extracted`: the project in the extraction
directory. -/
inductive Place
  | active
  | journal
  | audit
  | extraction (t : ℕ)
  | extracted (t : ℕ)
  | candidate (t : ℕ)
  | backup (t : ℕ)
  | failed (u : ℕ)
  | acceptance (t : ℕ)
  | rollbackReceipt (t : ℕ)
  | rollbackAcceptance (u : ℕ)
  deriving DecidableEq

inductive Node (T : Type)
  | dir (d : Dir T)
  | workdir
  | journal (j : Journal)
  | audit (a : ChainFile (Event T))
  | acceptance (r : Acceptance T)
  | rollbackReceipt (r : RollbackReceipt T)
  | rollbackAcceptance (r : RollbackAcceptance T)

/-- What is asked of the world around, and of code that only reads: are there journals of other
transactions; the project in the package; is a source identity verified; the migration receipt
bound to the update, if the migrations are in order; is a release accepted after its cutover; is
the database compatible with a rollback. -/
inductive Ask (T : Type)
  | conflict
  | extract
  | identity (d : Dir T)
  | migration (active candidate : T)
  | acceptance (d : Dir T)
  | compatible (active rollback : Dir T)

abbrev Ask.Answer {T : Type} : Ask T → Type
  | .extract => Option T
  | .migration .. => Option (Option String)
  | _ => Bool

abbrev releases (T : Type) : Files where
  Place := Place
  Node := Node T
  Ask := Ask T
  Answer := Ask.Answer
  Exc := Raised
  solid n := match n with
    | .dir _ | .workdir => true
    | _ => false
  osError := .osError
  interrupts e := e = .interrupt

abbrev Program (T α : Type) : Type := Prog (sig (releases T)) α

abbrev Disk (T : Type) : Type := Store (releases T)

variable {T : Type}

def audit : ChainPlace (releases T) (Event T) where
  place := .audit
  wrap := .audit
  unwrap n := match n with
    | .audit a => some a
    | _ => none
  unwrap_wrap _ := rfl
  error := .runtimeError

def look (p : Place) : Program T (Option (Node T)) := perform (F := releases T) (.look p)

def present (p : Place) : Program T Bool := perform (F := releases T) (.present p)

def put (p : Place) (n : Node T) : Program T Unit := perform (F := releases T) (.put p n)

def move (src dst : Place) : Program T Unit := perform (F := releases T) (.move src dst)

def remove (p : Place) (missingOk : Bool) : Program T Unit :=
  perform (F := releases T) (.remove p missingOk)

def ask (q : Ask T) : Program T q.Answer := perform (F := releases T) (.ask q)

def rmtreeAt (p : Place) : Program T Unit := rmtree (F := releases T) fun q => q = p

def raiseError {α : Type} (msg : String) : Program T α := .raise (.runtimeError msg)

/-- The directory at a place. -/
def directory (p : Place) (msg : String) : Program T (Dir T) := do
  let found ← look p
  match found with
  | some (.dir d) => pure d
  | _ => raiseError msg

def validateActive : Program T Unit := do
  let _ ← directory .active "UPDATE_ACTIVE_DIRECTORY_UNSAFE"

def treeOf (p : Place) : Program T T := do
  let d ← directory p "UPDATE_TREE_UNSAFE"
  return d.tree

/-! ## 2. Recovery -/

def journalOf (found : Option (Node T)) : Program T Journal :=
  match found with
  | some (.journal j) =>
    if j.schemaVersion ≠ "1.0" ∨ j.classification ≠ "RELEASE_UPDATE_TRANSACTION" then
      raiseError "UPDATE_TRANSACTION_JOURNAL_CONTRACT_INVALID"
    else pure j
  | _ => raiseError "UPDATE_TRANSACTION_JOURNAL_UNSAFE"

def readJournal : Program T Journal := do
  let found ← look .journal
  journalOf found

def safeSibling (raw : Option ℕ) : Program T ℕ :=
  match raw with
  | some t => pure t
  | none => raiseError "UPDATE_TRANSACTION_PATH_INVALID"

/-- Put `backup` in the place of `active`, which is moved out of the way; if that fails, it is
moved back. -/
def swapIn (backup failed : Place) : Program T Unit := do
  move .active failed
  (move backup .active).tryCatch fun e => do
    move failed .active
    .raise e

/-- The directory of before the update is put back. -/
def restoreBackup (b : ℕ) (status : String) (u : ℕ) : Program T Unit := do
  let kept ← present (.backup b)
  if kept then do
    let _ ← directory (.backup b) "UPDATE_TRANSACTION_BACKUP_UNSAFE"
    let there ← present .active
    if there then do
      swapIn (.backup b) (.failed u)
      rmtreeAt (.failed u)
    else move (.backup b) .active
  else if status ≠ "PREPARED" then raiseError "UPDATE_TRANSACTION_BACKUP_MISSING"

/-- `if path.exists(): shutil.rmtree(path, ignore_errors=True)`. -/
def rmtreeIfPresent (p : Place) : Program T Unit := do
  let there ← present p
  if there then rmtreeAt p

inductive Recovery
  | noTransaction
  | rolledBack
  deriving DecidableEq

/-- What a recovery does with the journal it has read. -/
def rollBack (backup candidate : ℕ) (status : String) (u : ℕ) : Program T Recovery := do
  restoreBackup backup status u
  rmtreeIfPresent (.candidate candidate)
  remove (.rollbackReceipt backup) true
  remove .journal false
  validateActive
  pure .rolledBack

/-- Any surviving journal means that the cutover did not reach its commit.  `u` names the
directory that what is active is moved to. -/
def recoverIncompleteUpdate (active : String) (u : ℕ) : Program T Recovery := do
  let pending ← present .journal
  if pending then do
    let j ← readJournal
    if j.activeName ≠ active then raiseError "UPDATE_TRANSACTION_ACTIVE_MISMATCH"
    else do
      let backup ← safeSibling j.backup
      let candidate ← safeSibling j.candidate
      rollBack backup candidate j.status u
  else pure .noTransaction

/-! ## 3. Updates -/

/-- The extraction directory of an update. -/
def inExtraction (t : ℕ) : Place → Bool
  | .extraction t' | .extracted t' => t' = t
  | _ => false

/-- `extract` and the rename that makes the project the candidate. -/
def stageCandidate (t : ℕ) : Program T Unit := do
  perform (F := releases T) (.spoil fun p => decide (p = .extracted t))
  let project : Option T ← ask .extract
  match project with
  | none => raiseError "UPDATE_SOURCE_PACKAGE_ROOT_INVALID"
  | some tree => do
    put (.extracted t) (.dir ⟨some t, tree⟩)
    move (.extracted t) (.candidate t)
    rmtree (F := releases T) (inExtraction t)

def verifyIdentity (p : Place) (msg : String) : Program T Unit := do
  let d ← directory p "UPDATE_TREE_UNSAFE"
  let verified : Bool ← ask (.identity d)
  if verified then pure () else raiseError msg

/-- The checks before the cutover: the tree of before, and the migration receipt. -/
def checkCandidate (t : ℕ) : Program T (T × Option String) := do
  verifyIdentity (.candidate t) "UPDATE_CANDIDATE_IDENTITY_INVALID"
  let pre ← treeOf .active
  let candidate ← treeOf (.candidate t)
  let migration : Option (Option String) ← ask (.migration pre candidate)
  match migration with
  | none => raiseError "UPDATE_DATABASE_MIGRATION_RECEIPT_REQUIRED"
  | some receipt => pure (pre, receipt)

/-- The journal of an update. -/
def opened (active : String) (t : ℕ) (status : String) : Journal where
  schemaVersion := "1.0"
  classification := "RELEASE_UPDATE_TRANSACTION"
  status := status
  activeName := active
  candidate := some t
  backup := some t

def writeJournal (active : String) (t : ℕ) (status : String) : Program T Unit :=
  put .journal (.journal (opened active t status))

def cutOver (active : String) (t : ℕ) : Program T Unit := do
  writeJournal active t "PREPARED"
  move .active (.backup t)
  writeJournal active t "ACTIVE_MOVED_TO_BACKUP"
  move (.candidate t) .active
  writeJournal active t "CANDIDATE_PROMOTED"

/-- `run_post_cutover_acceptance`, whose command may raise. -/
def runPostCutoverAcceptance : Program T Bool := do
  let d ← directory .active "UPDATE_TREE_UNSAFE"
  ask (.acceptance d)

/-- `_write_acceptance_receipt` and `_write_rollback_receipt`. -/
def writeReceipts (t : ℕ) (pre : T) (migration : Option String) :
    Program T (Acceptance T × RollbackReceipt T) := do
  let post ← treeOf .active
  let acceptance : Acceptance T := {
    schemaVersion := "1.0"
    classification := "VERIFIED_RELEASE_UPDATE_ACCEPTANCE_RECEIPT"
    transactionId := t
    preUpdateTree := pre
    postUpdateTree := post
    migrationReceipt := migration
    isSealed := true }
  put (.acceptance t) (.acceptance acceptance)
  let receipt : RollbackReceipt T := {
    schemaVersion := "1.0"
    classification := "VERIFIED_RELEASE_ROLLBACK_RECEIPT"
    backup := t
    backupTree := pre
    acceptance := some t
    acceptanceDigest := acceptance }
  put (.rollbackReceipt t) (.rollbackReceipt receipt)
  return (acceptance, receipt)

variable [DecidableEq T]

/-- What follows the cutover, up to the commit. -/
def accept (t : ℕ) (pre : T) (migration : Option String) : Program T Unit := do
  verifyIdentity .active "UPDATE_POST_CUTOVER_IDENTITY_INVALID"
  let accepted : Bool ← runPostCutoverAcceptance
  if accepted then do
    let (acceptance, receipt) ← writeReceipts t pre migration
    let tree ← treeOf .active
    audit.appendEvent (.updateAccepted t acceptance t receipt tree)
  else raiseError "UPDATE_POST_CUTOVER_ACCEPTANCE_FAILED"

/-- The part of `apply_update` inside its `try`. -/
def update (active : String) (t : ℕ) : Program T Unit := do
  stageCandidate t
  let (pre, migration) ← checkCandidate t
  cutOver active t
  accept t pre migration
  remove .journal false

/-- `except BaseException` of `apply_update`. -/
def recoverAndRaise (active : String) (u : ℕ) (e : Raised) : Program T Unit := do
  let pending ← present .journal
  if pending then do
    let _ ← recoverIncompleteUpdate active u
    .raise e
  else .raise e

/-- `finally` of `apply_update`. -/
def discard (t : ℕ) : Program T Unit := do
  rmtree (F := releases T) (inExtraction t)
  let staged ← present (.candidate t)
  if staged then do
    let pending ← present .journal
    if pending then pure () else rmtreeAt (.candidate t)

/-- The names an update makes up: its token, and the directories its recoveries would move the
active one to. -/
structure Names where
  token : ℕ
  failedBefore : ℕ
  failedAfter : ℕ

def applyUpdate (active : String) (n : Names) : Program T Recovery := do
  validateActive
  let clear : Bool ← ask .conflict
  if clear then do
    let recovery ← recoverIncompleteUpdate active n.failedBefore
    perform (F := releases T) (.create (.extraction n.token) .workdir)
    ((update active n.token).tryCatch (recoverAndRaise active n.failedAfter)).finally_
      (discard n.token)
    return recovery
  else raiseError "DEPLOYMENT_TRANSACTION_CONFLICT"

/-! ## 4. Running the smallest parts -/

section Steps

variable {γ : Type} {O : Observer (releases T) γ} {mayFail : Bool} {inv : Disk T × γ → Prop}
  {s : Disk T} {g : γ} {p : Place}

omit [DecidableEq T] in
/-- A directory is read. -/
theorem wp_directory (ho : O.Ignores (.look p)) {msg : String}
    {Q : Except Raised (Dir T) → Disk T × γ → Prop} (hs : inv (s, g))
    (hok : ∀ d, s p = some (.dir d) → Q (.ok d) (s, g))
    (hbad : mayFail = true ∨ (∀ d, s p ≠ some (.dir d)) → ∀ e, Q (.error e) (s, g)) :
    wp (handler O mayFail) (.keeping inv) () (directory p msg) Q (s, g) := by
  refine wp_bind.mpr (wp_look ho hs ?_ fun hmay e => hbad (.inl hmay) e)
  rw [onOk_ok]
  split
  · rename_i d hd
    exact hok d hd
  · rename_i hnot
    exact hbad (.inr fun d hd => hnot d hd) _

omit [DecidableEq T] in
theorem wp_rmtreeAt (hspoil : ∀ part, O.Ignores (.spoil part))
    (hclear : ∀ part, O.Ignores (.clear part)) {Q : Except Raised Unit → Disk T × γ → Prop}
    (hinv : ∀ s', (∀ q, q ≠ p → s' q = s q) → inv (s', g))
    (hQ : ∀ s', (∀ q, q ≠ p → s' q = s q) → Q (.ok ()) (s', g) ∧
      (mayFail = true → ∀ e, Q (.error e) (s', g))) :
    wp (handler O mayFail) (.keeping inv) () (rmtreeAt p) Q (s, g) :=
  wp_rmtree (hspoil _) (hclear _)
    (fun s' hs' => hinv s' fun q hq => hs' q (decide_eq_false hq))
    fun s' hs' => hQ s' fun q hq => hs' q (decide_eq_false hq)

end Steps

section Within

variable {A : Op (releases T) → Prop} {p : Place} {msg : String}

omit [DecidableEq T]

theorem within_directory (h : A (.look p)) : (directory (T := T) p msg).Within A := by
  refine Prog.Within.bind (Prog.within_perform.mpr h) fun found => ?_
  split
  · exact Prog.within_pure _
  · exact Prog.within_raise _

theorem within_validateActive (h : A (.look .active)) : (validateActive (T := T)).Within A :=
  Prog.Within.bind (within_directory h) fun _ => Prog.within_pure _

theorem within_treeOf (h : A (.look p)) : (treeOf (T := T) p).Within A :=
  Prog.Within.bind (within_directory h) fun _ => Prog.within_pure _

theorem within_verifyIdentity (h : A (.look p)) (hask : ∀ q, A (.ask q)) :
    (verifyIdentity (T := T) p msg).Within A := by
  refine Prog.Within.bind (within_directory h) fun d => ?_
  refine Prog.Within.bind (Prog.within_perform.mpr (hask _)) fun verified => ?_
  split
  · exact Prog.within_pure _
  · exact Prog.within_raise _

theorem within_runPostCutoverAcceptance (h : A (.look .active)) (hask : ∀ q, A (.ask q)) :
    (runPostCutoverAcceptance (T := T)).Within A :=
  Prog.Within.bind (within_directory h) fun _ => Prog.within_perform.mpr (hask _)

theorem within_rmtreeAt (hspoil : A (.spoil fun q => decide (q = p)))
    (hclear : A (.clear fun q => decide (q = p))) : (rmtreeAt (T := T) p).Within A :=
  within_rmtree hspoil hclear

end Within

end Kripto.Deploy.ReleaseUpdate
