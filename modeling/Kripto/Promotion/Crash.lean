/-
# Crashes and recoveries

Histories of `promote` and `recover_pending_transaction` over one disk, any of them cut short
anywhere.  What a recovery has to decide is which of two trees survives; it goes by the ledger.
An interrupted transaction without a ledger event is undone by removing the canonical tree and
putting the backup in its place.

The journal does not say whether the canonical tree has been moved aside.  Between the
`PREPARED` journal and the first `os.replace` -- and again between the `os.replace` of a rollback
and its `ROLLED_BACK` journal -- the canonical tree is the old one and there is no backup, and a
recovery that starts there removes the only copy.  In all histories in which no recovery starts
in such a state, crashes are harmless.
-/
import Kripto.Promotion.Prepare
import Kripto.Promotion.Script
import Kripto.Effect.Session

namespace Kripto.Promotion

open Effect

/-! ## 1. Histories -/

inductive Call : Type
  | promote (staged : Staged) (confirmSourceSha : String)
  | recover

inductive Outcome : Type
  | promoted (res : Promoted)
  | recovered (res : Recovery)

/-- What may raise while nothing is wrong with the disk: copying the files of a bundle. -/
def CopyStep : Op → Prop
  | .copyInto .. => True
  | .replace src dst => ∃ b, src = lockTempDir b ∧ dst = lockCandidateDir b
  | _ => False

theorem CopyStep.tryStep (o : Op) (h : CopyStep o) : TryStep o := by
  cases o with
  | copyInto dir path content => trivial
  | replace src dst => exact Or.inr (Or.inr h)
  | _ => exact h.elim

section Encoded

variable [Encoding]

/-- Calls, one after the other, over one disk.  A crash keeps what is on the disk. -/
def crashing : Session.System diskSig (Disk × Seen) Outcome Call Empty where
  body := fun
    | .promote staged sha => promote staged sha >>= fun res => pure (.promoted res)
    | .recover => recoverPendingTransaction >>= fun res => pure (.recovered res)
  handler := fun _ => observed CopyStep
  lose := fun _ s => s
  idle := fun _ _ _ => False

/-- The canonical tree is the one the ledger asks for. -/
def Txn.Right (t : Txn) (s : Disk) : Prop :=
  s.dirs canonicalDir = if t.bundle ∈ s.ledger.bundles then some t.next else t.pre

/-- The tree the ledger asks for is there, if only as the backup. -/
def Txn.Kept (t : Txn) (s : Disk) : Prop :=
  if t.bundle ∈ s.ledger.bundles then s.dirs canonicalDir = some t.next
  else t.pre = none ∨ s.dirs canonicalDir = t.pre ∨ s.dirs t.journal.backupRelpath = t.pre

/-- **Promotion is atomic under crashes.**  In every history from a disk without a journal: no tree
is lost at any point, and once a recovery runs to its end, without problems, the canonical tree
is the promoted one or the one from before, as the ledger says. -/
def CrashAtomic (Y : Session.System diskSig (Disk × Seen) Outcome Call Empty) : Prop :=
  ∀ (s : Disk) (tr : List (Event diskSig Outcome Call Empty)) (s₁ : Disk × Seen),
    s.journal = .absent → Session Y (s, .nothing) tr s₁ →
    (∀ t, s₁.2.txn = some t → t.Kept s₁.1) ∧
    ∀ r s₂, Runs (Y.handler .recover) (Y.body .recover) s₁ r s₂ →
      (∃ res, r = .ok (.recovered res) ∧ res.problems = []) ∧
      ∀ t, s₂.2.txn = some t → t.Right s₂.1

/-! ## 2. The condition -/

/-- **A recovery may start here**: if it is going to undo a transaction that found a canonical
tree, then the backup of that tree exists. -/
def Recoverable (s : Disk × Seen) : Prop :=
  ∀ t j status, s.2.txn = some t → s.1.journal = .doc j → j.status = some status →
    status ∈ pending → t.bundle ∉ s.1.ledger.bundles → t.pre.isSome →
    (s.1.dirs t.journal.backupRelpath).isSome

/-- Every recovery starts by reading the journal. -/
def Guarded (_ : Call) : (o : Op) → Disk × Seen → diskSig.Ans o → Prop
  | .readJournal, s, _ => Recoverable s
  | _, _, _ => True

/-! ## 3. The invariant -/

/-- No transaction yet, or one somewhere on its path. -/
inductive Consistent (s : Disk × Seen) : Prop
  | fresh (txn : s.2.txn = none) (journal : s.1.journal = .absent)
  | onPath (x : Transaction) (t : Txn) (h : OnPath x t s)

theorem watch_consistent (x : Transaction) (t : Txn) : Watch CopyStep Consistent x t where
  path := fun _ h => .onPath x t h
  lax := by
    rintro (⟨b, h, -⟩ | h)
    · exact absurd h.symm (lockTempDir_ne_canonicalDir b)
    · exact h.elim

section OnPath

variable {x : Transaction} {t : Txn} {s : Disk × Seen}

/-- Where a transaction is, no tree is lost. -/
theorem OnPath.kept_tree (h : OnPath x t s) : s.2.txn = some t ∧ t.Kept s.1 := by
  have hcase : ∀ {logged : Bool}, Logged x.bundle.1 logged s.1.ledger →
      t.journal = x.journal "PREPARED" → (t.bundle ∈ s.1.ledger.bundles ↔ logged = true) := by
    intro logged hlogged hopened
    rw [Txn.bundle, hopened]
    exact hlogged.mem_iff
  have hbackup : ∀ {b : Option Tree}, t.journal = x.journal "PREPARED" →
      s.1.dirs (backupDir x.bundle.1) = b → s.1.dirs t.journal.backupRelpath = b := by
    intro b hopened hb
    rw [hopened]
    exact hb
  rw [Txn.Kept]
  cases h with
  | kept hp h =>
    rw [if_neg (by simp [hcase h.ledger h.opened])]
    exact ⟨by rw [h.seen], Or.inr (Or.inr (hbackup h.opened h.backup))⟩
  | untouched hp h =>
    rw [if_neg (by simp [hcase h.ledger h.opened])]
    exact ⟨by rw [h.seen], Or.inr (Or.inl h.canonical)⟩
  | logged hp h =>
    rw [if_pos ((hcase h.ledger h.opened).mpr rfl)]
    exact ⟨by rw [h.seen], h.canonical⟩
  | rolledBack h =>
    rw [if_neg (by simp [hcase h.ledger h.opened])]
    exact ⟨by rw [h.seen], Or.inr (Or.inl h.canonical)⟩
  | committed h =>
    rw [if_pos ((hcase h.ledger h.opened).mpr rfl)]
    exact ⟨by rw [h.seen], h.canonical⟩
  | undone h =>
    rw [if_neg (by simp [hcase h.ledger h.opened])]
    exact ⟨by rw [h.seen], Or.inr (Or.inl h.canonical)⟩
  | promoted h =>
    rw [if_pos ((hcase h.ledger h.opened).mpr rfl)]
    exact ⟨by rw [h.seen], h.canonical⟩

/-- On its path, a transaction without a journal is over. -/
theorem OnPath.closed (h : OnPath x t s) (hj : s.1.journal = .absent) :
    ∃ logged, Closed x t (if logged then some t.next else t.pre) logged s.2.raised s := by
  cases h with
  | kept hp h => rw [h.journal] at hj; cases hj
  | untouched hp h => rw [h.journal] at hj; cases hj
  | logged hp h => rw [h.journal] at hj; cases hj
  | rolledBack h => rw [h.journal] at hj; cases hj
  | committed h => rw [h.journal] at hj; cases hj
  | undone h => exact ⟨false, by rw [h.seen]; exact h⟩
  | promoted h => exact ⟨true, by rw [h.seen]; exact h⟩

end OnPath

/-! ## 4. Recoveries -/

section Recover

variable {x : Transaction} {t : Txn} {s : Disk × Seen} {mayFail : Op → Prop}
  {inv : Disk × Seen → Prop} {status : String} {c b : Option Tree} {logged : Bool}
  {raised : List Op}

/-- What the recovery does with the journal of an interrupted transaction. -/
theorem recoverDocument_pending (x : Transaction) (hp : status ∈ pending) :
    recoverDocument (x.journal status) = (do
      if ← ledgerContainsBundle x.bundle.1 then finalizeCommit (x.journal status)
      else rollBack (x.journal status)) := by
  have hopen : ¬ (status = "COMMITTED" ∨ status = "ROLLED_BACK") := by
    rintro (rfl | rfl) <;> revert hp <;> decide
  have hlen : ¬ x.bundle.1.length ≠ 64 := not_not.mpr x.bundle.2
  simp only [recoverDocument, Transaction.journal, Option.some.injEq, not_true_eq_false, ne_eq,
    or_self, if_false, if_neg hopen, if_neg hlen]

variable (hmay : ∀ o, mayFail o → TryStep o)

include hmay

theorem wp_ledgerContainsBundle {Q : Except Exc Bool → Disk × Seen → Prop}
    (h : Stage x t status c b logged raised s) (hs : inv s) (hQ : Q (.ok logged) s) :
    wp (observed mayFail) (.keeping inv) () (ledgerContainsBundle x.bundle.1) Q s := by
  refine wp_bind.mpr (wp_loadImportLedger hmay hs h.ledger.1 ?_)
  have hmem : decide (x.bundle.1 ∈ s.1.ledger.document.bundles) = logged := by
    have hiff := h.ledger.mem_iff
    cases logged with
    | true => exact decide_eq_true (hiff.mpr rfl)
    | false => exact decide_eq_false fun hin => by cases hiff.mp hin
  rw [onOk_ok]
  simp only [ne_eq, not_true_eq_false, if_false, hmem]
  exact hQ

/-- **Undoing** an interrupted transaction: the backup takes the place of the canonical tree. -/
theorem wp_rollBack {Q : Except Exc Recovery → Disk × Seen → Prop}
    (h : Stage x t status c b logged raised s)
    (hinv : ∀ c' s', Stage x t status c' b logged raised s' → inv s')
    (hback : ∀ s', Stage x t status b none logged raised s' → inv s')
    (hrolled : ∀ s', Stage x t "ROLLED_BACK" b none logged raised s' → inv s')
    (hclosed : ∀ s', Closed x t b logged raised s' → inv s')
    (hQ : ∀ s', Closed x t b logged raised s' → Q (.ok ⟨true, "ROLLED_BACK", []⟩) s') :
    wp (observed mayFail) (.keeping inv) () (rollBack (x.journal status)) Q s := by
  refine wp_tryCatch.mpr (wp_bind.mpr (wp_undoSwap hmay h ?_ hinv (fun _ => hback) ?_))
  · intro dir hdir
    split at hdir
    · cases hdir
    · obtain ⟨hdir, -⟩ := Option.filter_eq_some_iff.mp hdir
      simp only [Transaction.journal] at hdir
      split at hdir
      · cases hdir
      · exact (Option.some.inj hdir).symm
  · intro s₁ h₁
    exact wp_bind.mpr (wp_closeJournal hmay h₁ (Or.inr rfl) hrolled hclosed hQ)

/-- **Finishing** an interrupted transaction whose bundle is in the ledger. -/
theorem wp_finalizeCommit {Q : Except Exc Recovery → Disk × Seen → Prop}
    (h : Stage x t status c b logged raised s)
    (hinv : ∀ b' s', Stage x t status c b' logged raised s' → inv s')
    (hcommitted : ∀ b' s', Stage x t "COMMITTED" c b' logged raised s' → inv s')
    (hclosed : ∀ s', Closed x t c logged raised s' → inv s')
    (hQ : ∀ s', Closed x t c logged raised s' → Q (.ok ⟨true, "FINALIZED_COMMIT", []⟩) s') :
    wp (observed mayFail) (.keeping inv) () (finalizeCommit (x.journal status)) Q s := by
  have hback := h.setBackup none
  refine wp_bind.mpr (wp_rmtree hmay (hinv b s h) (fun left => hinv left _ (h.setBackup left)) ?_)
  have hrep := fun left => hback.setDir_other (replacementDir_ne_canonicalDir x.bundle.1)
    (replacementDir_ne_backupDir _ _) left
  refine wp_bind.mpr (wp_rmtree hmay (hinv _ _ hback) (fun left => hinv _ _ (hrep left)) ?_)
  exact wp_bind.mpr (wp_closeJournal hmay (hrep none) (Or.inl rfl) (hcommitted _) hclosed hQ)

end Recover

section Consistent

variable {x : Transaction} {t : Txn} {s : Disk × Seen}

/-- A recovery that ran to its end. -/
structure Recovered (r : Except Exc Recovery) (s : Disk × Seen) : Prop where
  result : ∃ res, r = .ok res ∧ res.problems = []
  consistent : Consistent s
  journal : s.1.journal = .absent

/-- If a recovery may start where there is no backup, there was no tree to begin with. -/
theorem Stage.kept_of_recoverable {status : String} {raised : List Op}
    (h : Stage x t status t.pre none false raised s) (hp : status ∈ pending)
    (hrec : Recoverable s) : Stage x t status t.pre t.pre false raised s := by
  have hpre : t.pre = none := by
    by_contra hpre
    have hbackup : s.1.dirs t.journal.backupRelpath = none := by
      rw [h.opened]
      exact h.backup
    have hnew : t.bundle ∉ s.1.ledger.bundles := by
      rw [Txn.bundle, h.opened]
      exact fun hmem => by cases h.ledger.mem_iff.mp hmem
    have hsome := hrec t _ status (by rw [h.seen]) h.journal rfl hp hnew
      (Option.isSome_iff_ne_none.mpr hpre)
    rw [hbackup] at hsome
    cases hsome
  rw [hpre] at h ⊢
  exact h

theorem wp_undoTransaction {status : String} {c : Option Tree} {raised : List Op}
    (hp : status ∈ pending) (h : Stage x t status c t.pre false raised s) :
    wp (observed CopyStep) (.keeping Consistent) () (recoverDocument (x.journal status))
      Recovered s := by
  have hpath : ∀ {s'}, OnPath x t s' → Consistent s' := fun h' => .onPath x t h'
  rw [recoverDocument_pending x hp]
  refine wp_bind.mpr (wp_ledgerContainsBundle CopyStep.tryStep h (hpath (.kept hp h)) ?_)
  refine wp_rollBack CopyStep.tryStep h (fun _ _ h' => hpath (.kept hp h'))
    (fun _ h' => hpath (.untouched hp h')) (fun _ h' => hpath (.rolledBack h'))
    (fun _ h' => hpath (.undone h')) fun s' h' => ?_
  exact ⟨⟨_, rfl, rfl⟩, hpath (.undone h'), h'.journal⟩

theorem wp_finishTransaction {status : String} {b : Option Tree} {raised : List Op}
    (hp : status ∈ pending) (h : Stage x t status (some t.next) b true raised s) :
    wp (observed CopyStep) (.keeping Consistent) () (recoverDocument (x.journal status))
      Recovered s := by
  have hpath : ∀ {s'}, OnPath x t s' → Consistent s' := fun h' => .onPath x t h'
  rw [recoverDocument_pending x hp]
  refine wp_bind.mpr (wp_ledgerContainsBundle CopyStep.tryStep h (hpath (.logged hp h)) ?_)
  refine wp_finalizeCommit CopyStep.tryStep h (fun _ _ h' => hpath (.logged hp h'))
    (fun _ _ h' => hpath (.committed h')) (fun _ h' => hpath (.promoted h')) fun s' h' => ?_
  exact ⟨⟨_, rfl, rfl⟩, hpath (.promoted h'), h'.journal⟩

/-- A journal that says how the transaction ended is only removed. -/
theorem wp_cleanJournal {status : String} {c b : Option Tree} {logged : Bool}
    {raised : List Op} (h : Stage x t status c b logged raised s)
    (hstatus : status = "COMMITTED" ∨ status = "ROLLED_BACK")
    (hclosed : ∀ s', Closed x t c logged raised s' → Consistent s') :
    wp (observed CopyStep) (.keeping Consistent) () (recoverDocument (x.journal status))
      Recovered s := by
  have hdoc : recoverDocument (x.journal status) = (do
      perform .unlinkJournal
      pure ⟨true, "CLEANED_" ++ status, []⟩) := by
    simp only [recoverDocument, Transaction.journal, Option.some.injEq, not_true_eq_false, ne_eq,
      or_self, if_false, if_pos hstatus, Option.getD_some]
  rw [hdoc]
  refine wp_bind.mpr (wp_unlinkJournal CopyStep.tryStep (hclosed _ h.close) ?_)
  exact ⟨⟨_, rfl, rfl⟩, hclosed _ h.close, rfl⟩

theorem wp_recoverDocument {j : Journal} (hs : Consistent s) (hj : s.1.journal = .doc j)
    (hrec : Recoverable s) :
    wp (observed CopyStep) (.keeping Consistent) () (recoverDocument j) Recovered s := by
  cases hs with
  | fresh _ habsent =>
    rw [habsent] at hj
    cases hj
  | onPath x t h =>
    cases h with
    | kept hp h =>
      obtain rfl := JournalFile.doc.inj (h.journal.symm.trans hj)
      exact wp_undoTransaction hp h
    | untouched hp h =>
      obtain rfl := JournalFile.doc.inj (h.journal.symm.trans hj)
      exact wp_undoTransaction hp (h.kept_of_recoverable hp hrec)
    | logged hp h =>
      obtain rfl := JournalFile.doc.inj (h.journal.symm.trans hj)
      exact wp_finishTransaction hp h
    | rolledBack h =>
      obtain rfl := JournalFile.doc.inj (h.journal.symm.trans hj)
      exact wp_cleanJournal h (Or.inr rfl) fun s' h' => .onPath x t (.undone h')
    | committed h =>
      obtain rfl := JournalFile.doc.inj (h.journal.symm.trans hj)
      exact wp_cleanJournal h (Or.inl rfl) fun s' h' => .onPath x t (.promoted h')
    | undone h =>
      rw [h.journal] at hj
      cases hj
    | promoted h =>
      rw [h.journal] at hj
      cases hj

theorem Consistent.journal (hs : Consistent s) :
    s.1.journal = .absent ∨ ∃ j, s.1.journal = .doc j := by
  cases hs with
  | fresh _ h => exact Or.inl h
  | onPath x t h =>
    cases h with
    | kept hp h => exact Or.inr ⟨_, h.journal⟩
    | untouched hp h => exact Or.inr ⟨_, h.journal⟩
    | logged hp h => exact Or.inr ⟨_, h.journal⟩
    | rolledBack h => exact Or.inr ⟨_, h.journal⟩
    | committed h => exact Or.inr ⟨_, h.journal⟩
    | undone h => exact Or.inl h.journal
    | promoted h => exact Or.inl h.journal

/-- **A guarded recovery** brings every transaction to its end. -/
theorem wp_recover (k : Call) (hs : Consistent s) :
    wp ((observed CopyStep).meeting (Guarded k)) (.keeping Consistent) ()
      recoverPendingTransaction Recovered s := by
  refine wp_bind.mpr (wp_keeping_perform ?_)
  rintro r ⟨d, g⟩ ⟨⟨⟨rfl, rfl⟩ | ⟨hfail, -, -⟩, hnote⟩, hrec⟩
  swap
  · exact hfail.elim
  obtain rfl : g = s.2 := hnote
  refine ⟨hs, ?_⟩
  rw [onOk_ok]
  rcases hs.journal with hj | ⟨j, hj⟩
  · rw [hj]
    exact ⟨⟨_, rfl, rfl⟩, hs, hj⟩
  · rw [hj]
    exact wp_meeting (wp_recoverDocument hs hj hrec)

/-! ## 5. Promotions -/

/-- Between transactions, what `promote` does first keeps things consistent. -/
theorem Consistent.untouched {s' : Disk × Seen} (hs : Consistent s)
    (hj : s.1.journal = .absent) (h : Untouched s s') : Consistent s' := by
  have hj' : s'.1.journal = .absent := h.journal.trans hj
  cases hs with
  | fresh txn _ => exact .fresh (h.txn.trans txn) hj'
  | onPath x t hpath =>
    obtain ⟨logged, hclosed⟩ := hpath.closed hj
    have hseen : s'.2 = ⟨some t, s'.2.raised⟩ := by
      have htxn : s'.2.txn = some t := by rw [h.txn, hclosed.seen]
      rw [← htxn]
    have hledger := hclosed.ledger
    rw [← h.ledger] at hledger
    have hclosed' : Closed x t (if logged then some t.next else t.pre) logged s'.2.raised s' :=
      ⟨hclosed.opened, hseen, hj', h.canonical.trans hclosed.canonical, hledger⟩
    cases logged with
    | false => exact .onPath x t (.undone hclosed')
    | true => exact .onPath x t (.promoted hclosed')

theorem wp_promote (k : Call) (staged : Staged) (sha : String) (hs : Consistent s) :
    wp ((observed CopyStep).meeting (Guarded k)) (.keeping Consistent) ()
      (promote staged sha) (fun _ _ => True) s := by
  refine wp_bind.mpr (wp_mono ?_ (wp_recover k hs))
  rintro r s₁ ⟨⟨recovery, rfl, hproblems⟩, hs₁, hj₁⟩
  rw [onOk_ok, if_neg (by simp [hproblems])]
  refine wp_meeting (wp_promoteRecovered CopyStep.tryStep (fun s₂ h₂ => hs₁.untouched hj₁ h₂)
    (fun x t _ => watch_consistent x t) ?_ ?_ ?_)
  · exact fun _ _ _ => trivial
  · exact fun _ _ _ _ _ => trivial
  · exact fun _ _ _ _ _ _ _ _ => trivial

end Consistent

/-! ## 6. Crash atomicity -/

theorem wp_call (k : Call) {s : Disk × Seen} (hs : Consistent s) :
    wp ((crashing.meeting Guarded).handler k) (.keeping Consistent) ()
      ((crashing.meeting Guarded).body k) (fun _ _ => True) s := by
  cases k with
  | promote staged sha => exact wp_bind_pure (wp_promote (.promote staged sha) staged sha hs)
  | recover => exact wp_bind_pure (wp_mono (fun _ _ _ => trivial) (wp_recover .recover hs))

/-- **The condition is sharp.**  A recovery that starts where the canonical tree has not been moved
aside, or is back already, removes it for good. -/
theorem recover_loses_tree {x : Transaction} {t : Txn} {status : String} {raised : List Op}
    {s s' : Disk × Seen} {r : Except Exc Recovery} (hp : status ∈ pending)
    (h : Stage x t status t.pre none false raised s)
    (hr : Runs (observed CopyStep) recoverPendingTransaction s r s') :
    s'.1.dirs canonicalDir = none := by
  have hwp : wp (observed CopyStep) .free () recoverPendingTransaction
      (fun _ s' => s'.1.dirs canonicalDir = none) s := by
    refine wp_bind.mpr (wp_free_perform.mpr ?_)
    rintro r ⟨d, g⟩ ⟨⟨rfl, rfl⟩ | ⟨hfail, -, -⟩, hnote⟩
    swap
    · exact hfail.elim
    obtain rfl : g = s.2 := hnote
    rw [onOk_ok, h.journal]
    simp only [recoverDocument_pending x hp]
    refine wp_bind.mpr (wp_ledgerContainsBundle CopyStep.tryStep h trivial ?_)
    exact wp_rollBack CopyStep.tryStep h (fun _ _ _ => trivial) (fun _ _ => trivial)
      (fun _ _ => trivial) (fun _ _ => trivial) fun s' h' => h'.canonical
  exact hr.of_wp hwp

/-- **Consistency is an invariant** of guarded histories, crashed calls included. -/
theorem consistent_of_session {s : Disk} {tr : List (Event diskSig Outcome Call Empty)}
    {s₁ : Disk × Seen} (hj : s.journal = .absent)
    (h : Session (crashing.meeting Guarded) (s, .nothing) tr s₁) : Consistent s₁ := by
  exact h.keeping (fun k _ hs => wp_call k hs) (fun _ _ hs => hs) nofun (.fresh rfl hj)

theorem Consistent.right {s : Disk × Seen} (hs : Consistent s) (hj : s.1.journal = .absent)
    {t : Txn} (ht : s.2.txn = some t) : t.Right s.1 := by
  cases hs with
  | fresh txn _ =>
    rw [txn] at ht
    cases ht
  | onPath x t' h =>
    obtain ⟨logged, hclosed⟩ := h.closed hj
    rw [hclosed.seen] at ht
    obtain rfl := Option.some.inj ht
    have hiff : t'.bundle ∈ s.1.ledger.bundles ↔ logged = true := by
      rw [Txn.bundle, hclosed.opened]
      exact hclosed.ledger.mem_iff
    rw [Txn.Right, hclosed.canonical]
    cases logged with
    | false => simp [hiff]
    | true => simp [hiff]

/-- **Crashes are harmless**, as long as every recovery that has a tree to bring back finds it in
the backup. -/
theorem crash_atomic_of_guarded : CrashAtomic (crashing.meeting Guarded) := by
  intro s tr s₁ hj hsession
  have hs₁ := consistent_of_session hj hsession
  constructor
  · intro t ht
    cases hs₁ with
    | fresh txn _ =>
      rw [txn] at ht
      cases ht
    | onPath x t' h =>
      obtain ⟨htxn, hkept⟩ := h.kept_tree
      rw [htxn] at ht
      obtain rfl := Option.some.inj ht
      exact hkept
  · intro r s₂ hr
    have hwp : wp ((crashing.meeting Guarded).handler .recover) (.keeping Consistent) ()
        ((crashing.meeting Guarded).body .recover) (fun r s' =>
          (∃ res, r = .ok (.recovered res) ∧ res.problems = []) ∧ Consistent s' ∧
            s'.1.journal = .absent) s₁ := by
      refine wp_bind.mpr (wp_mono ?_ (wp_recover .recover hs₁))
      rintro r s' ⟨⟨res, rfl, hproblems⟩, hs', hj'⟩
      exact ⟨⟨res, rfl, hproblems⟩, hs', hj'⟩
    obtain ⟨-, -, hres, hs₂, hj₂⟩ := wp_runs hr hwp hs₁
    exact ⟨hres, fun t ht => hs₂.right hj₂ ht⟩

theorem crashed_once {k : Call} {p : Prog diskSig Outcome} {s s' : Disk × Seen}
    (h : Exec (observed CopyStep) (crashing.body k) s p s') :
    Session crashing s [.crashed k] s' :=
  .crashed k p h (.nil s')

end Encoded

/-! ## 7. A crash before the first `os.replace` -/

section Interrupted

attribute [local instance] evidenceEncoding

/-- The promotion of a bundle over earlier evidence, killed right behind its `PREPARED` journal. -/
def interrupted : Disk × Seen :=
  ((crashing.body (.promote stagedEvidence accepting.sha)).playFor
    (venture (fun _ => false) accepting) 18 (diskWithEvidence, .nothing)).2

/-- The recovery that follows. -/
def recoveredAfter : Except Exc Outcome × Disk × Seen :=
  (crashing.body .recover).play (venture (fun _ => false) accepting) interrupted

/-- **The evidence is gone**: the ledger does not have the bundle, and the canonical tree of
before the promotion is nowhere. -/
theorem promotion_not_crash_atomic : ¬ CrashAtomic crashing := by
  intro hatomic
  have hpicks : (venture (fun _ => false) accepting).Picks (observed CopyStep) :=
    venture_picks (fun _ h => by cases h) accepting
  have hsession : Session crashing (diskWithEvidence, .nothing)
      [.crashed (.promote stagedEvidence accepting.sha)] interrupted :=
    crashed_once (exec_playFor hpicks 18 _ _)
  have hruns : Runs (crashing.handler .recover) (crashing.body .recover) interrupted
      recoveredAfter.1 recoveredAfter.2 := runs_play hpicks _ _
  have hopened : recoveredAfter.2.2.txn.map (·.pre) =
      some (diskWithEvidence.dirs canonicalDir) := by decide
  obtain ⟨t, ht, hpre⟩ := Option.map_eq_some_iff.mp hopened
  have hright := (((hatomic _ _ _ rfl hsession).2 _ _ hruns).2) t ht
  have hlost : recoveredAfter.2.1.dirs canonicalDir = none ∧
      recoveredAfter.2.1.ledger.bundles = [] := by decide
  rw [Txn.Right, hlost.1, hlost.2, if_neg List.not_mem_nil, hpre] at hright
  cases hright

end Interrupted

end Kripto.Promotion
