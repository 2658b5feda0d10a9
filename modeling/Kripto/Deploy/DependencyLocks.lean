/-
# Promoting two lock files

`scripts/bootstrap_dependency_locks.py`: new versions of `uv.lock` and `package-lock.json` are
resolved in a directory of their own and then take the places of the old ones, both or none.
The journal is written after the backups are complete and before the first target is touched;
while it is there, the targets are rolled back to what it says was there before.

A file is its content, and a digest stands for the content it is of.  Directories are not places
of their own, except the one of the transaction, which `mkdtemp` makes and which the recovery
looks for.
-/
import Kripto.Effect.Files
import Mathlib.Data.Nat.Notation

namespace Kripto.Deploy.DependencyLocks

open Effect Effect.Files

/-! ## 1. The files -/

/-- The keys of `TARGETS`, in its order. -/
inductive Key
  | uv | npm
  deriving DecidableEq

/-- The entry of a target in the `before` of a journal. -/
structure Row (C : Type) where
  present : Bool
  sha256 : Option C

/-- The transaction journal.  `transactionDir`: `none` if it is no name of a directory of this
kind under the root.  `before`: `none` if there is no entry of the right shape. -/
structure Journal (C : Type) where
  schemaVersion : String
  classification : String
  status : String
  transactionDir : Option ℕ
  before : Key → Option (Row C)
  candidates : Key → C

/-- Transactions are told apart by the name `mkdtemp` gave them.  `resolved`: the lock file the
resolver left in the working directory. -/
inductive Place
  | target (k : Key)
  | journal
  | txDir (t : ℕ)
  | resolved (t : ℕ) (k : Key)
  | backup (t : ℕ) (k : Key)
  | candidate (t : ℕ) (k : Key)
  | restoreTemp (k : Key)
  deriving DecidableEq

inductive Node (C : Type)
  | file (c : C)
  | journal (j : Journal C)
  | directory

/-- `_digest`. -/
def Node.digest {C : Type} : Node C → Option C
  | .file c => some c
  | _ => none

/-- `resolve k`: run the resolver of a target; is it ok? -/
inductive Ask
  | resolve (k : Key)

abbrev lockFiles (C : Type) : Files where
  Place := Place
  Node := Node C
  Ask := Ask
  Answer := fun _ => Bool
  Exc := Raised
  solid n := match n with
    | .directory => true
    | _ => false
  osError := .osError
  interrupts e := e = .interrupt

abbrev Program (C α : Type) : Type := Prog (sig (lockFiles C)) α

abbrev Disk (C : Type) : Type := Store (lockFiles C)

variable {C : Type}

/-- The files of a transaction. -/
def inTxDir (t : ℕ) : Place → Bool
  | .txDir t' | .resolved t' _ | .backup t' _ | .candidate t' _ => t' = t
  | _ => false

/-- What the resolvers of a transaction write. -/
def isResolved (t : ℕ) : Place → Bool
  | .resolved t' _ => t' = t
  | _ => false

/-- `for key, rel in TARGETS.items()`. -/
def forTargets (f : Key → Program C Unit) : Program C Unit := do
  f .uv
  f .npm

def look (p : Place) : Program C (Option (Node C)) := perform (F := lockFiles C) (.look p)

def put (p : Place) (n : Node C) : Program C Unit := perform (F := lockFiles C) (.put p n)

def move (src dst : Place) : Program C Unit := perform (F := lockFiles C) (.move src dst)

def remove (p : Place) (missingOk : Bool) : Program C Unit :=
  perform (F := lockFiles C) (.remove p missingOk)

def digest (p : Place) : Program C (Option C) := do
  let found ← look p
  return found.bind Node.digest

def raiseError (msg : String) : Program C Unit := .raise (.runtimeError msg)

/-! ## 2. Rolling back -/

variable [DecidableEq C]

/-- The copy is made beside the target and renamed. -/
def restoreCopy (source : Place) (k : Key) : Program C Unit :=
  (do
    copy (F := lockFiles C) source (.restoreTemp k)
    move (.restoreTemp k) (.target k)).finally_ (remove (.restoreTemp k) true)

/-- One target, as its row says it was. -/
def restoreTarget (t : ℕ) (j : Journal C) (k : Key) : Program C Unit :=
  match j.before k with
  | none => raiseError "LOCK_TRANSACTION_BEFORE_ROW_INVALID"
  | some row =>
    if row.present then do
      let saved ← digest (.backup t k)
      if saved.isNone ∨ saved ≠ row.sha256 then raiseError "LOCK_TRANSACTION_BACKUP_INVALID"
      else restoreCopy (.backup t k) k
    else do
      let found ← look (.target k)
      if found.isSome ∧ (found.bind Node.digest).isNone then
        raiseError "LOCK_TRANSACTION_TARGET_TYPE_INVALID"
      else remove (.target k) true

def verifyTarget (j : Journal C) (k : Key) : Program C Unit :=
  match j.before k with
  | none => raiseError "LOCK_TRANSACTION_BEFORE_ROW_INVALID"
  | some row =>
    if row.present then do
      let now ← digest (.target k)
      if now ≠ row.sha256 then raiseError "LOCK_TRANSACTION_ROLLBACK_VERIFY_FAILED"
    else do
      let found ← look (.target k)
      if found.isSome then raiseError "LOCK_TRANSACTION_ROLLBACK_ABSENCE_FAILED"

def restorePreTransactionState (t : ℕ) (j : Journal C) : Program C Unit := do
  forTargets (restoreTarget t j)
  forTargets (verifyTarget j)

def validateTransactionDir (raw : Option ℕ) : Program C ℕ :=
  match raw with
  | none => .raise (.runtimeError "LOCK_TRANSACTION_DIR_OUTSIDE_ROOT")
  | some t => do
    let found ← look (.txDir t)
    match found with
    | some .directory => pure t
    | _ => .raise (.runtimeError "LOCK_TRANSACTION_DIR_MISSING")

inductive Recovery
  | noTransaction
  | rolledBack
  deriving DecidableEq

def recoverIncompleteTransaction : Program C Recovery := do
  let found ← look .journal
  match found with
  | none => pure .noTransaction
  | some .directory => .raise (.runtimeError "LOCK_TRANSACTION_JOURNAL_INVALID_TYPE")
  | some (.file _) => .raise (.runtimeError "LOCK_TRANSACTION_JOURNAL_INVALID")
  | some (.journal j) =>
    if j.schemaVersion ≠ "1.0" ∨
        j.classification ≠ "DEPENDENCY_LOCK_PROMOTION_TRANSACTION" then
      .raise (.runtimeError "LOCK_TRANSACTION_JOURNAL_CONTRACT_INVALID")
    else do
      let t ← validateTransactionDir j.transactionDir
      restorePreTransactionState t j
      remove .journal false
      rmtree (F := lockFiles C) (inTxDir t)
      pure .rolledBack

/-! ## 3. Promotion -/

/-- The row of a target that held `previous`. -/
def Row.of (previous : Option C) : Row C := ⟨previous.isSome, previous⟩

/-- The backup of one target. -/
def backUp (t : ℕ) (before : Key → Option C) (k : Key) : Program C Unit :=
  match before k with
  | none => pure ()
  | some previous => do
    copy (F := lockFiles C) (.target k) (.backup t k)
    let saved ← digest (.backup t k)
    if saved ≠ some previous then raiseError "LOCK_TRANSACTION_BACKUP_VERIFY_FAILED"

/-- The candidate of one target, and its digest. -/
def stage (t : ℕ) (k : Key) : Program C C := do
  copy (F := lockFiles C) (.resolved t k) (.candidate t k)
  let staged ← digest (.candidate t k)
  match staged with
  | some c => pure c
  | none => .raise (.runtimeError "LOCK_TRANSACTION_CANDIDATE_MISSING")

/-- One value for each target. -/
def Key.pick {α : Type} (uv npm : α) : Key → α
  | .uv => uv
  | .npm => npm

def prepareTransaction (t : ℕ) (before : Key → Option C) : Program C (Journal C) := do
  backUp t before .uv
  let uv ← stage t .uv
  backUp t before .npm
  let npm ← stage t .npm
  let journal : Journal C := {
    schemaVersion := "1.0"
    classification := "DEPENDENCY_LOCK_PROMOTION_TRANSACTION"
    status := "PREPARED"
    transactionDir := some t
    before := fun k => some (.of (before k))
    candidates := Key.pick uv npm }
  put .journal (.journal journal)
  return journal

def promoted : Key → String := Key.pick "PROMOTED_UV" "PROMOTED_NPM"

def promoteTarget (t : ℕ) (j : Journal C) (k : Key) : Program C Unit := do
  let staged ← digest (.candidate t k)
  if staged ≠ some (j.candidates k) then raiseError "LOCK_TRANSACTION_CANDIDATE_CHANGED"
  else do
    move (.candidate t k) (.target k)
    put .journal (.journal { j with status := promoted k })

def checkPromoted (j : Journal C) (k : Key) : Program C Unit := do
  let now ← digest (.target k)
  if now ≠ some (j.candidates k) then raiseError "LOCK_TRANSACTION_COMMIT_VERIFY_FAILED"

def commitTransaction (t : ℕ) (j : Journal C) : Program C Unit := do
  forTargets (promoteTarget t j)
  forTargets (checkPromoted j)
  put .journal (.journal { j with status := "VERIFIED_BOTH" })
  remove .journal false

/-- A failed commit is rolled back at once; if that fails too, the journal stays. -/
def commitOrRollBack (t : ℕ) (j : Journal C) : Program C Unit :=
  exceptException (commitTransaction t j) fun e => do
    exceptException
      (do
        restorePreTransactionState t j
        remove .journal true)
      fun _ => pure ()
    .raise e

/-- Run the resolvers; are there two new lock files? -/
def resolveAll (t : ℕ) : Program C Bool := do
  perform (F := lockFiles C) (.spoil (isResolved t))
  let uvOk : Bool ← perform (F := lockFiles C) (.ask (.resolve .uv))
  let uv ← digest (.resolved t .uv)
  let npmOk : Bool ← perform (F := lockFiles C) (.ask (.resolve .npm))
  let npm ← digest (.resolved t .npm)
  return uvOk && uv.isSome && npmOk && npm.isSome

/-- The part of `bootstrap` inside its `try`: is it committed? -/
def promote (t : ℕ) (before : Key → Option C) : Program C Bool := do
  let allOk ← resolveAll t
  if allOk then do
    let journal ← prepareTransaction t before
    commitOrRollBack t journal
    pure true
  else pure false

structure Result where
  recovery : Recovery
  committed : Bool

/-- `bootstrap`, where `mkdtemp` comes up with the name `t`. -/
def bootstrap (t : ℕ) : Program C Result := do
  let recovery ← recoverIncompleteTransaction
  let uv ← digest (.target .uv)
  let npm ← digest (.target .npm)
  perform (F := lockFiles C) (.create (.txDir t) .directory)
  let committed ← (promote t (Key.pick uv npm)).finally_ (do
    let found ← look .journal
    if found.isNone then rmtree (F := lockFiles C) (inTxDir t))
  return ⟨recovery, committed⟩

end Kripto.Deploy.DependencyLocks
