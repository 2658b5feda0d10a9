/-
# A guarded database migration

`scripts/database_migration_guard.py`, from `_read_journal` on.  The database is outside: a command
migrates it and a probe tells its head, and either may say anything.  Inside there are three
commits: the receipt of the migration, its event in the deployment audit chain, and the removal of
the journal.  `recover_migration_transaction` closes a transaction that was interrupted.

What the comparison of the two releases comes to, and what the verification of the backup does, is
asked for as a whole.  A receipt stands for its content and for the digest of it.
-/
import Kripto.Deploy.AuditFile
import Mathlib.Data.Nat.Notation

namespace Kripto.Deploy.MigrationGuard

open Effect Effect.Files

/-! ## 1. The files -/

/-- `compare_release_migrations`, where a migration is required. -/
structure Plan where
  fromHead : String
  toHead : String
  pending : List String
  targetContract : String

/-- `verify_backup_receipt`. -/
structure Backup where
  receipt : String
  restoreDrillReceipt : String
  restoreDrillProvenance : String
  environmentFingerprint : Option String
  deriving DecidableEq

/-- What a transaction is about.  The journal and the receipt both have it. -/
structure Migration where
  fromHead : String
  toHead : String
  pendingRevisions : List String
  activeTree : String
  candidateTree : String
  candidateGitCommit : Option String
  compatibilityContract : String
  backup : Backup
  deriving DecidableEq

structure Journal where
  schemaVersion : String
  classification : String
  status : String
  transactionId : ℕ
  migration : Migration

structure Receipt where
  schemaVersion : String
  classification : String
  transactionId : ℕ
  migration : Migration
  observedHead : String
  completedAt : String
  deriving DecidableEq

inductive Event
  | migrationCommitted (receipt : ℕ) (digest : Receipt) (fromHead toHead candidateTree : String)
  | other (eventType : String)
  deriving DecidableEq

inductive Place
  | journal
  | audit
  | receipt (t : ℕ)
  deriving DecidableEq

inductive Node
  | journal (j : Journal)
  | audit (a : ChainFile Event)
  | receipt (r : Receipt)

/-- What is asked of the world around, and of code that only reads: are there no journals of other
transactions; the plan, if a migration is required; the digests of the two trees; the backup, if it
is one of this head and this tree; the head of the database; the exit status of the migration
command; the time. -/
inductive Ask
  | conflict
  | plan
  | trees
  | backup (fromHead activeTree : String)
  | probe
  | command
  | now

abbrev Ask.Answer : Ask → Type
  | .conflict => Bool
  | .plan => Option Plan
  | .trees => String × String
  | .backup .. => Backup
  | .probe => String
  | .command => Int
  | .now => String

abbrev stateDir : Files where
  Place := Place
  Node := Node
  Ask := Ask
  Answer := Ask.Answer
  Exc := Raised
  solid _ := false
  osError := .osError
  interrupts e := e = .interrupt

abbrev Program (α : Type) : Type := Prog (sig stateDir) α

abbrev Disk : Type := Store stateDir

def audit : ChainPlace stateDir Event where
  place := .audit
  wrap := .audit
  unwrap n := match n with
    | .audit a => some a
    | _ => none
  unwrap_wrap _ := rfl
  error := .runtimeError

def look (p : Place) : Program (Option Node) := perform (F := stateDir) (.look p)

def present (p : Place) : Program Bool := perform (F := stateDir) (.present p)

def put (p : Place) (n : Node) : Program Unit := perform (F := stateDir) (.put p n)

def unlink (p : Place) : Program Unit := perform (F := stateDir) (.remove p false)

def ask (q : Ask) : Program q.Answer := perform (F := stateDir) (.ask q)

def raiseError {α : Type} (msg : String) : Program α := .raise (.runtimeError msg)

/-! ## 2. Recovery -/

def journalOf (found : Option Node) : Program Journal :=
  match found with
  | some (.journal j) =>
    if j.schemaVersion ≠ "1.0" ∨ j.classification ≠ "DATABASE_MIGRATION_TRANSACTION" then
      raiseError "DATABASE_MIGRATION_JOURNAL_CONTRACT_INVALID"
    else pure j
  | _ => raiseError "DATABASE_MIGRATION_JOURNAL_UNSAFE"

def readJournal : Program Journal := do
  let found ← look .journal
  journalOf found

/-- `_finalize_receipt`. -/
def finalizeReceipt (j : Journal) (observed : String) : Program Unit := do
  let now : String ← ask .now
  put (.receipt j.transactionId) (.receipt {
    schemaVersion := "1.0"
    classification := "VERIFIED_DATABASE_MIGRATION_RECEIPT"
    transactionId := j.transactionId
    migration := j.migration
    observedHead := observed
    completedAt := now })

inductive Recovery
  | noTransaction
  | notApplied
  | completed
  deriving DecidableEq

/-- What a recovery does with the head it observes. -/
def closeTransaction (j : Journal) (observed : String) : Program Recovery :=
  if observed = j.migration.fromHead then do
    unlink .journal
    pure .notApplied
  else if observed = j.migration.toHead then do
    finalizeReceipt j observed
    unlink .journal
    pure .completed
  else raiseError "DATABASE_MIGRATION_STATE_AMBIGUOUS"

def recoverMigrationTransaction : Program Recovery := do
  let pending ← present .journal
  if pending then do
    let j ← readJournal
    let observed : String ← ask .probe
    closeTransaction j observed
  else pure .noTransaction

/-! ## 3. The migration -/

/-- `_sha256_file` of a receipt. -/
def digestReceipt (t : ℕ) : Program Receipt := do
  let found ← look (.receipt t)
  match found with
  | some (.receipt r) => pure r
  | _ => .raise .osError

/-- The journal of a migration. -/
def opened (t : ℕ) (m : Migration) (status : String) : Journal where
  schemaVersion := "1.0"
  classification := "DATABASE_MIGRATION_TRANSACTION"
  status := status
  transactionId := t
  migration := m

def writeJournal (t : ℕ) (m : Migration) (status : String) : Program Unit :=
  put .journal (.journal (opened t m status))

/-- The checks before the journal is written. -/
def prepare (plan : Plan) (commit : Option String) : Program Migration := do
  let trees : String × String ← ask .trees
  let backup : Backup ← ask (.backup plan.fromHead trees.1)
  let observed : String ← ask .probe
  if observed ≠ plan.fromHead then raiseError "DATABASE_MIGRATION_PRE_HEAD_MISMATCH"
  else pure {
    fromHead := plan.fromHead
    toHead := plan.toHead
    pendingRevisions := plan.pending
    activeTree := trees.1
    candidateTree := trees.2
    candidateGitCommit := commit
    compatibilityContract := plan.targetContract
    backup := backup }

/-- The command, between the two journals. -/
def migrateDatabase (t : ℕ) (m : Migration) : Program Unit := do
  writeJournal t m "PREPARED"
  let status : Int ← ask .command
  if status ≠ 0 then raiseError "DATABASE_MIGRATION_COMMAND_FAILED_RECOVERY_REQUIRED"
  else writeJournal t m "COMMAND_COMPLETED"

/-- The three commits. -/
def commitMigration (t : ℕ) (m : Migration) (observed : String) : Program Unit := do
  finalizeReceipt (opened t m "PREPARED") observed
  let digest ← digestReceipt t
  audit.appendEvent (.migrationCommitted t digest m.fromHead m.toHead m.candidateTree)
  unlink .journal

def migrate (t : ℕ) (m : Migration) : Program Unit := do
  migrateDatabase t m
  let observed : String ← ask .probe
  if observed ≠ m.toHead then
    raiseError "DATABASE_MIGRATION_POST_HEAD_MISMATCH_RECOVERY_REQUIRED"
  else commitMigration t m observed

/-- `t` is the token the migration makes up. -/
def runGuardedMigration (t : ℕ) (commit : Option String) : Program Recovery := do
  let clear : Bool ← ask .conflict
  if clear then do
    let recovery ← recoverMigrationTransaction
    let plan : Option Plan ← ask .plan
    match plan with
    | none => pure recovery
    | some plan => do
      let m ← prepare plan commit
      migrate t m
      pure recovery
  else raiseError "DEPLOYMENT_TRANSACTION_CONFLICT"

end Kripto.Deploy.MigrationGuard
