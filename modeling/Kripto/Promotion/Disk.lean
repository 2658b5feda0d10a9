/-
# What a promotion works on

Directory trees under the root of the repository, the transaction journal and the import
ledger.  A tree is named by its path from the root; the four trees of a promotion -- the
canonical one, its backup, its replacement and the lock candidate -- are siblings or live
under different parents, so no one contains another.

`os.replace` and the JSON writes are atomic.  `rmtree` and `copytree` are not: each is two
operations, and between them a tree may have lost any of its files, or have got only some.
-/
import Kripto.Effect.Prog
import Kripto.Promotion.ImportLedger
import Mathlib.Data.List.AList
import Mathlib.Logic.Function.Basic

namespace Kripto.Promotion

open Effect

/-! ## 1. Trees and their names -/

/-- The files of a directory tree: contents by the path from the top of the tree. -/
abbrev Tree : Type := AList fun _ : String => String

instance : DecidableEq Tree := fun a b =>
  decidable_of_iff (a.entries = b.entries) AList.ext_iff.symm

def canonicalDir : String := "reports/external_acceptance"

/-- `bundle_sha[:16]`. -/
def short (bundle : String) : String := String.ofList (bundle.toList.take 16)

def replacementDir (bundle : String) : String :=
  "reports/.external_acceptance.promote-" ++ short bundle

def backupDir (bundle : String) : String :=
  "reports/.external_acceptance.rollback-" ++ short bundle

def lockCandidateDir (bundle : String) : String :=
  "reports/lock-promotion/candidates/" ++ bundle

/-- Where `_copy_lock_candidates` collects the files. -/
def lockTempDir (bundle : String) : String :=
  "reports/lock-promotion/candidates/." ++ (bundle ++ ".tmp")

/-- Texts that differ within their first `n` characters go on to differ. -/
theorem append_ne_append {p q : String} (n : Nat) (hp : n ≤ p.toList.length)
    (hq : n ≤ q.toList.length) (h : p.toList.take n ≠ q.toList.take n) (x y : String) :
    p ++ x ≠ q ++ y := by
  intro heq
  apply h
  have htake := congrArg (fun s : String => s.toList.take n) heq
  simpa only [String.toList_append, List.take_append_of_le_length hp,
    List.take_append_of_le_length hq] using htake

/-- The canonical directory is none of the others. -/
theorem ne_canonicalDir {p : String} (hp : 9 ≤ p.toList.length)
    (h : p.toList.take 9 ≠ canonicalDir.toList.take 9) (x : String) : p ++ x ≠ canonicalDir := by
  have hne := append_ne_append 9 hp (by decide) h x ""
  rwa [String.append_empty] at hne

@[simp] theorem replacementDir_ne_canonicalDir (b : String) : replacementDir b ≠ canonicalDir :=
  ne_canonicalDir (by decide) (by decide) _

@[simp] theorem backupDir_ne_canonicalDir (b : String) : backupDir b ≠ canonicalDir :=
  ne_canonicalDir (by decide) (by decide) _

@[simp] theorem lockCandidateDir_ne_canonicalDir (b : String) :
    lockCandidateDir b ≠ canonicalDir :=
  ne_canonicalDir (by decide) (by decide) _

@[simp] theorem lockTempDir_ne_canonicalDir (b : String) : lockTempDir b ≠ canonicalDir :=
  ne_canonicalDir (by decide) (by decide) _

@[simp] theorem replacementDir_ne_backupDir (b b' : String) : replacementDir b ≠ backupDir b' :=
  append_ne_append 30 (by decide) (by decide) (by decide) _ _

@[simp] theorem lockCandidateDir_ne_backupDir (b b' : String) :
    lockCandidateDir b ≠ backupDir b' :=
  append_ne_append 9 (by decide) (by decide) (by decide) _ _

@[simp] theorem lockTempDir_ne_backupDir (b b' : String) : lockTempDir b ≠ backupDir b' :=
  append_ne_append 9 (by decide) (by decide) (by decide) _ _

/-! ## 2. The journal and the disk -/

def TRANSACTION_JOURNAL_CLASSIFICATION : String :=
  "EXTERNAL_ACCEPTANCE_IMPORT_CRASH_RECOVERY_JOURNAL"

/-- The fields of a transaction journal that are read back.  `none`: not there, or no string; a
relative path is kept as the string it is used as. -/
structure Journal where
  schemaVersion : Option String
  classification : Option String
  status : Option String
  bundleManifestSha256 : Option String
  backupRelpath : String
  replacementRelpath : String
  lockCandidateRelpath : Option String
  lockCandidatePreexisting : Bool
  deriving DecidableEq

/-- The journal file.  `invalid`: no JSON.  `unreadable`: JSON the checks themselves raise on,
such as a list. -/
inductive JournalFile : Type
  | absent
  | invalid (exc : String)
  | unreadable (exc : String)
  | doc (j : Journal)
  deriving DecidableEq

structure Disk where
  dirs : String → Option Tree
  journal : JournalFile
  ledger : LedgerFile

def Disk.setDir (s : Disk) (dir : String) (t : Option Tree) : Disk :=
  { s with dirs := Function.update s.dirs dir t }

section SetDir

variable (s : Disk) (dir : String) (t : Option Tree)

@[simp] theorem Disk.setDir_self : (s.setDir dir t).dirs dir = t := by simp [Disk.setDir]

variable {dir}

theorem Disk.setDir_of_ne {other : String} (h : other ≠ dir) :
    (s.setDir dir t).dirs other = s.dirs other := by
  simp [Disk.setDir, Function.update_of_ne h]

end SetDir

/-! ## 3. Operations -/

/-- The name of an exception's type, as the code reports it. -/
abbrev Exc : Type := String

/-- What `_load_staged` reads off the manifest of a staged bundle, and what is wrong with it. -/
structure Loaded where
  sourceGitCommitSha : Option String
  paths : List String
  problems : List String

/-- A verdict of one of the two semantic verifications. -/
structure Verdict where
  verified : Bool
  problems : List String
  deriving DecidableEq

inductive Op : Type
  | readJournal
  | writeJournal (j : Journal)
  | unlinkJournal
  | readLedger
  | writeLedger (d : LedgerDoc)
  | dirExists (dir : String)
  | rmtreeSome (dir : String)
  | rmtreeRest (dir : String)
  | copytreeSome (src dst : String)
  | copytreeRest (src dst : String)
  | mkdir (dir : String)
  | copyInto (dir path content : String)
  | replace (src dst : String)
  | gitSha
  | loadStaged
  | semanticVerify
  | trustAnchor
  | postVerify
  | utcNow
  deriving DecidableEq

abbrev Op.Val : Op → Type
  | .readJournal => JournalFile
  | .readLedger => LedgerFile
  | .dirExists _ => Bool
  | .gitSha => Option String
  | .loadStaged => Loaded
  | .semanticVerify => Verdict
  | .trustAnchor => List (String × String)
  | .postVerify => Verdict
  | .utcNow => String
  | _ => Unit

abbrev diskSig : Sig where
  Op := Op
  Val := Op.Val
  Exc := Exc

/-- One operation of the program. -/
abbrev perform (o : Op) : Prog diskSig o.Val := Prog.perform (S := diskSig) o

/-- `os.replace` moves a directory that exists onto one that does not, or that is empty. -/
def Disk.CanReplace (s : Disk) (src dst : String) : Prop :=
  (s.dirs src).isSome ∧ (s.dirs dst).getD ∅ = ∅

instance (s : Disk) (src dst : String) : Decidable (s.CanReplace src dst) :=
  inferInstanceAs (Decidable (_ ∧ _))

/-- **What an operation does.**  The git commands, the verifications, the anchor of trust and the
clock are outside: they answer anything and leave the disk alone.  The verifications and the
anchor may also raise. -/
def Disk.Effect : (o : Op) → Disk → diskSig.Ans o → Disk → Prop
  | .readJournal, s, r, s' => r = .ok s.journal ∧ s' = s
  | .writeJournal j, s, r, s' => r = .ok () ∧ s' = { s with journal := .doc j }
  | .unlinkJournal, s, r, s' => r = .ok () ∧ s' = { s with journal := .absent }
  | .readLedger, s, r, s' => r = .ok s.ledger ∧ s' = s
  | .writeLedger d, s, r, s' => r = .ok () ∧ s' = { s with ledger := .doc d }
  | .dirExists dir, s, r, s' => r = .ok (s.dirs dir).isSome ∧ s' = s
  | .rmtreeSome dir, s, r, s' => r = .ok () ∧ (s.dirs dir = none ∧ s' = s ∨
      ∃ t left : Tree, s.dirs dir = some t ∧ left.entries.Sublist t.entries ∧
        s' = s.setDir dir (some left))
  | .rmtreeRest dir, s, r, s' => r = .ok () ∧ s' = s.setDir dir none
  | .copytreeSome src dst, s, r, s' =>
      s.dirs src = none ∧ r = .error "FileNotFoundError" ∧ s' = s ∨
      r = .ok () ∧ ∃ t part : Tree, s.dirs src = some t ∧ part.entries.Sublist t.entries ∧
        s' = s.setDir dst (some part)
  | .copytreeRest src dst, s, r, s' => r = .ok () ∧ s' = s.setDir dst (s.dirs src)
  | .mkdir dir, s, r, s' => r = .ok () ∧ s' = s.setDir dir (some ∅)
  | .copyInto dir path content, s, r, s' => r = .ok () ∧
      s' = s.setDir dir (some (((s.dirs dir).getD ∅).insert path content))
  | .replace src dst, s, r, s' =>
      s.CanReplace src dst ∧ r = .ok () ∧ s' = (s.setDir src none).setDir dst (s.dirs src) ∨
      ¬ s.CanReplace src dst ∧ r = .error "OSError" ∧ s' = s
  | .gitSha, s, r, s' => (∃ sha, r = .ok sha) ∧ s' = s
  | .loadStaged, s, r, s' => (∃ loaded, r = .ok loaded) ∧ s' = s
  | .utcNow, s, r, s' => (∃ now, r = .ok now) ∧ s' = s
  | .semanticVerify, s, _, s' => s' = s
  | .trustAnchor, s, _, s' => s' = s
  | .postVerify, s, _, s' => s' = s

/-- The disk, where the operations in `mayFail` may also raise and do nothing. -/
def diskHandler (mayFail : Op → Prop) : Handler diskSig Disk :=
  fun o s r s' => s.Effect o r s' ∨ mayFail o ∧ (∃ exc, r = .error exc) ∧ s' = s

end Kripto.Promotion
