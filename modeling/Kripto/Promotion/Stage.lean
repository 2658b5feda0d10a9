/-
# Stages of a transaction

An observer stands beside the disk.  It writes down the transaction whose `PREPARED` journal was
written last -- with the tree that was there and the tree to be promoted -- and the operations
that raised since.

A `Stage` fixes everything a recovery looks at: the status in the journal, the canonical tree,
the backup, and whether the ledger lists the bundle.  This module has one rule for each operation
of a transaction, from stage to stage, and the rule for undoing a swap, which the `except` branch
and the recovery share.
-/
import Kripto.Promotion.Promote

namespace Kripto.Promotion

open Effect

/-! ## 1. The observer -/

/-- A transaction as it was opened. -/
structure Txn where
  journal : Journal
  pre : Option Tree
  next : Tree

def Txn.bundle (t : Txn) : String := t.journal.bundleManifestSha256.getD ""

structure Seen where
  txn : Option Txn
  raised : List Op

def Seen.nothing : Seen := ⟨none, []⟩

/-- A `PREPARED` journal opens a transaction; from then on what raises is written down. -/
def Seen.note (o : Op) (s : Disk) (r : diskSig.Ans o) (g : Seen) : Seen :=
  match r with
  | .error _ => match g.txn with
    | some _ => { g with raised := g.raised ++ [o] }
    | none => g
  | .ok _ => match o with
    | .writeJournal j =>
      if j.status = some "PREPARED" then
        ⟨some ⟨j, s.dirs canonicalDir, (s.dirs j.replacementRelpath).getD ∅⟩, []⟩
      else g
    | _ => g

/-- The operations inside the `try` block of some promotion that can raise. -/
def TryStep : Op → Prop
  | .replace src dst => (∃ b, src = canonicalDir ∧ dst = backupDir b) ∨
      (∃ b, src = replacementDir b ∧ dst = canonicalDir) ∨
      ∃ b, src = lockTempDir b ∧ dst = lockCandidateDir b
  | .copyInto .. => True
  | .writeLedger _ => True
  | .writeJournal j => j.status = some "CANONICAL_SWAPPED" ∨ j.status = some "POST_VERIFIED" ∨
      j.status = some "LEDGER_COMMITTED"
  | _ => False

/-- Moving a backup back is no step of a `try` block. -/
theorem not_tryStep_restore (b : String) : ¬ TryStep (.replace (backupDir b) canonicalDir) := by
  rintro (⟨b', h, -⟩ | ⟨b', h, -⟩ | ⟨b', h, -⟩)
  · exact backupDir_ne_canonicalDir b h
  · exact replacementDir_ne_backupDir b' b h.symm
  · exact lockTempDir_ne_backupDir b' b h.symm

/-- The disk with the observer. -/
def observed (mayFail : Op → Prop) : Handler diskSig (Disk × Seen) :=
  (diskHandler mayFail).noting Seen.note

/-! ## 2. Rules for single operations -/

section Rules

variable {mayFail : Op → Prop} {inv : Disk × Seen → Prop} {s : Disk × Seen}

/-- An operation that cannot raise and does one thing. -/
theorem wp_certain {o : Op} {v : diskSig.Val o} {d : Disk}
    {Q : Except Exc (diskSig.Val o) → Disk × Seen → Prop} (hmay : ¬ mayFail o)
    (heff : ∀ r s₁, s.1.Effect o r s₁ → r = .ok v ∧ s₁ = d)
    (hinv : inv (d, Seen.note o s.1 (.ok v) s.2))
    (hQ : Q (.ok v) (d, Seen.note o s.1 (.ok v) s.2)) :
    wp (observed mayFail) (.keeping inv) () (perform o) Q s := by
  apply wp_keeping_perform
  rintro r ⟨s₁, g₁⟩ ⟨heffect | ⟨hfail, -, -⟩, hnote⟩
  · obtain ⟨rfl, rfl⟩ := heff r s₁ heffect
    obtain rfl : g₁ = _ := hnote
    exact ⟨hinv, hQ⟩
  · exact absurd hfail hmay

/-- An operation that does one thing or raises. -/
theorem wp_mayFail {o : Op} {v : diskSig.Val o} {d : Disk}
    {Q : Except Exc (diskSig.Val o) → Disk × Seen → Prop}
    (heff : ∀ r s₁, s.1.Effect o r s₁ → r = .ok v ∧ s₁ = d)
    (hok : inv (d, Seen.note o s.1 (.ok v) s.2) ∧
      Q (.ok v) (d, Seen.note o s.1 (.ok v) s.2))
    (herr : mayFail o → ∀ exc, inv (s.1, Seen.note o s.1 (.error exc) s.2) ∧
      Q (.error exc) (s.1, Seen.note o s.1 (.error exc) s.2)) :
    wp (observed mayFail) (.keeping inv) () (perform o) Q s := by
  apply wp_keeping_perform
  rintro r ⟨s₁, g₁⟩ ⟨heffect | ⟨hfail, ⟨exc, rfl⟩, rfl⟩, hnote⟩
  · obtain ⟨rfl, rfl⟩ := heff r s₁ heffect
    obtain rfl : g₁ = _ := hnote
    exact hok
  · obtain rfl : g₁ = _ := hnote
    exact herr hfail exc

variable (hmay : ∀ o, mayFail o → TryStep o)

include hmay

theorem wp_dirExists {dir : String} {Q : Except Exc Bool → Disk × Seen → Prop} (hinv : inv s)
    (hQ : Q (.ok (s.1.dirs dir).isSome) s) :
    wp (observed mayFail) (.keeping inv) () (perform (.dirExists dir)) Q s := by
  refine wp_certain (v := (s.1.dirs dir).isSome) (d := s.1) ?_ ?_ hinv hQ
  · exact hmay _
  · exact fun r s₁ h => h

/-- `rmtree` passes through states in which the tree is anything, and ends without it. -/
theorem wp_rmtree {dir : String} {Q : Except Exc Unit → Disk × Seen → Prop} (hs : inv s)
    (hinv : ∀ left, inv (s.1.setDir dir left, s.2))
    (hQ : Q (.ok ()) (s.1.setDir dir none, s.2)) :
    wp (observed mayFail) (.keeping inv) () (rmtree dir) Q s := by
  have hrest : ∀ x : Disk × Seen, x.1.setDir dir none = s.1.setDir dir none → x.2 = s.2 →
      wp (observed mayFail) (.keeping inv) () (perform (.rmtreeRest dir)) Q x := by
    intro x hx hg
    refine wp_certain (v := ()) (d := s.1.setDir dir none) ?_ ?_ ?_ ?_
    · exact hmay _
    · intro r s₁ h
      exact ⟨h.1, h.2.trans hx⟩
    · change inv (s.1.setDir dir none, x.2)
      rw [hg]
      exact hinv none
    · change Q (.ok ()) (s.1.setDir dir none, x.2)
      rw [hg]
      exact hQ
  refine wp_bind.mpr (wp_keeping_perform ?_)
  rintro r ⟨s₁, g₁⟩ ⟨⟨rfl, hsome⟩ | ⟨hfail, -, -⟩, hnote⟩
  · obtain rfl : g₁ = s.2 := hnote
    rcases hsome with ⟨-, rfl⟩ | ⟨t, left, -, -, rfl⟩
    · exact ⟨hs, hrest _ rfl rfl⟩
    · refine ⟨hinv _, hrest _ ?_ rfl⟩
      simp [Disk.setDir]
  · exact (hmay _ hfail).elim

theorem wp_unlinkJournal {Q : Except Exc Unit → Disk × Seen → Prop}
    (hinv : inv ({ s.1 with journal := .absent }, s.2))
    (hQ : Q (.ok ()) ({ s.1 with journal := .absent }, s.2)) :
    wp (observed mayFail) (.keeping inv) () (perform .unlinkJournal) Q s := by
  refine wp_certain (v := ()) ?_ ?_ hinv hQ
  · exact hmay _
  · exact fun r s₁ h => h

omit hmay in
/-- A journal that opens nothing. -/
theorem note_writeJournal {j : Journal} (hj : j.status ≠ some "PREPARED") (g : Seen)
    (d : Disk) : Seen.note (.writeJournal j) d (.ok ()) g = g := by
  simp [Seen.note, hj]

/-- A journal written outside the `try` block. -/
theorem wp_writeJournal_certain {j : Journal} {Q : Except Exc Unit → Disk × Seen → Prop}
    (hj : j.status = some "COMMITTED" ∨ j.status = some "ROLLED_BACK")
    (hinv : inv ({ s.1 with journal := .doc j }, s.2))
    (hQ : Q (.ok ()) ({ s.1 with journal := .doc j }, s.2)) :
    wp (observed mayFail) (.keeping inv) () (perform (.writeJournal j)) Q s := by
  have hne : j.status ≠ some "PREPARED" := by
    rcases hj with h | h <;> rw [h] <;> decide
  refine wp_certain (v := ()) (d := { s.1 with journal := .doc j }) ?_ ?_ ?_ ?_
  · intro h
    have hstatus := hmay _ h
    simp only [TryStep] at hstatus
    rcases hj with hj | hj <;> rw [hj] at hstatus <;> revert hstatus <;> decide
  · exact fun r s₁ h => h
  · rwa [note_writeJournal hne]
  · rwa [note_writeJournal hne]

omit hmay in
theorem wp_replace {src dst : String} {Q : Except Exc Unit → Disk × Seen → Prop}
    (hcan : s.1.CanReplace src dst)
    (hok : inv ((s.1.setDir src none).setDir dst (s.1.dirs src), s.2) ∧
      Q (.ok ()) ((s.1.setDir src none).setDir dst (s.1.dirs src), s.2))
    (herr : mayFail (.replace src dst) → ∀ exc,
      inv (s.1, Seen.note (.replace src dst) s.1 (.error exc) s.2) ∧
      Q (.error exc) (s.1, Seen.note (.replace src dst) s.1 (.error exc) s.2)) :
    wp (observed mayFail) (.keeping inv) () (perform (.replace src dst)) Q s := by
  refine wp_mayFail (v := ()) ?_ hok herr
  rintro r s₁ (⟨-, rfl, rfl⟩ | ⟨hcannot, -, -⟩)
  · exact ⟨rfl, rfl⟩
  · exact absurd hcan hcannot

end Rules

/-! ## 3. Stages -/

variable [Encoding]

/-- Whether an intact ledger lists a bundle: not at all, or once. -/
def Logged (bundle : String) (logged : Bool) (f : LedgerFile) : Prop :=
  f.Intact ∧ f.bundles.count bundle = if logged then 1 else 0

theorem Logged.mem_iff {bundle : String} {logged : Bool} {f : LedgerFile}
    (h : Logged bundle logged f) : bundle ∈ f.bundles ↔ logged = true := by
  rw [← List.count_pos_iff, h.2]
  cases logged
  · simp
  · simp

/-- The transaction `x`, written down as `t`, has its journal at `status`; the canonical tree is
`c`, the backup `b`. -/
structure Stage (x : Transaction) (t : Txn) (status : String) (c b : Option Tree)
    (logged : Bool) (raised : List Op) (s : Disk × Seen) : Prop where
  opened : t.journal = x.journal "PREPARED"
  seen : s.2 = ⟨some t, raised⟩
  journal : s.1.journal = .doc (x.journal status)
  canonical : s.1.dirs canonicalDir = c
  backup : s.1.dirs (backupDir x.bundle.1) = b
  ledger : Logged x.bundle.1 logged s.1.ledger

/-- The transaction is over and its journal is gone. -/
structure Closed (x : Transaction) (t : Txn) (c : Option Tree) (logged : Bool)
    (raised : List Op) (s : Disk × Seen) : Prop where
  opened : t.journal = x.journal "PREPARED"
  seen : s.2 = ⟨some t, raised⟩
  journal : s.1.journal = .absent
  canonical : s.1.dirs canonicalDir = c
  ledger : Logged x.bundle.1 logged s.1.ledger

namespace Stage

variable {x : Transaction} {t : Txn} {status : String} {c b : Option Tree} {logged : Bool}
  {raised : List Op} {s : Disk × Seen}

theorem setDir_other (h : Stage x t status c b logged raised s) {dir : String}
    (hc : dir ≠ canonicalDir) (hb : dir ≠ backupDir x.bundle.1) (left : Option Tree) :
    Stage x t status c b logged raised (s.1.setDir dir left, s.2) where
  opened := h.opened
  seen := h.seen
  journal := h.journal
  canonical := by rw [Disk.setDir_of_ne _ _ hc.symm, h.canonical]
  backup := by rw [Disk.setDir_of_ne _ _ hb.symm, h.backup]
  ledger := h.ledger

theorem setCanonical (h : Stage x t status c b logged raised s) (left : Option Tree) :
    Stage x t status left b logged raised (s.1.setDir canonicalDir left, s.2) where
  opened := h.opened
  seen := h.seen
  journal := h.journal
  canonical := by simp
  backup := by rw [Disk.setDir_of_ne _ _ (backupDir_ne_canonicalDir _), h.backup]
  ledger := h.ledger

theorem setBackup (h : Stage x t status c b logged raised s) (left : Option Tree) :
    Stage x t status c left logged raised (s.1.setDir (backupDir x.bundle.1) left, s.2) where
  opened := h.opened
  seen := h.seen
  journal := h.journal
  canonical := by rw [Disk.setDir_of_ne _ _ (backupDir_ne_canonicalDir _).symm, h.canonical]
  backup := by simp
  ledger := h.ledger

theorem setJournal (h : Stage x t status c b logged raised s) (status' : String) :
    Stage x t status' c b logged raised
      ({ s.1 with journal := .doc (x.journal status') }, s.2) :=
  ⟨h.opened, h.seen, rfl, h.canonical, h.backup, h.ledger⟩

theorem close (h : Stage x t status c b logged raised s) :
    Closed x t c logged raised ({ s.1 with journal := .absent }, s.2) :=
  ⟨h.opened, h.seen, rfl, h.canonical, h.ledger⟩

theorem note_error (h : Stage x t status c b logged raised s) (o : Op) (exc : Exc) :
    Seen.note o s.1 (.error exc) s.2 = ⟨some t, raised ++ [o]⟩ := by
  rw [h.seen]
  rfl

/-- An operation that raises changes the observer's list. -/
theorem raise (h : Stage x t status c b logged raised s) (o : Op) (exc : Exc) :
    Stage x t status c b logged (raised ++ [o])
      (s.1, Seen.note o s.1 (.error exc) s.2) where
  opened := h.opened
  seen := h.note_error o exc
  journal := h.journal
  canonical := h.canonical
  backup := h.backup
  ledger := h.ledger

end Stage

/-! ## 4. Undoing a swap -/

section Undo

variable {mayFail : Op → Prop} {inv : Disk × Seen → Prop} {s : Disk × Seen}
  {x : Transaction} {t : Txn} {status : String} {c b : Option Tree} {logged : Bool}
  {raised : List Op}

variable (hmay : ∀ o, mayFail o → TryStep o)

include hmay

/-- The canonical tree goes, whatever is left of it on the way. -/
theorem wp_removeCanonical {Q : Except Exc Unit → Disk × Seen → Prop}
    (h : Stage x t status c b logged raised s)
    (hinv : ∀ c' s', Stage x t status c' b logged raised s' → inv s')
    (hQ : ∀ s', Stage x t status none b logged raised s' → Q (.ok ()) s') :
    wp (observed mayFail) (.keeping inv) () removeCanonical Q s := by
  refine wp_bind.mpr (wp_dirExists hmay (hinv _ _ h) ?_)
  cases hc : s.1.dirs canonicalDir with
  | none => exact hQ s (by rw [h.canonical] at hc; exact hc ▸ h)
  | some tree =>
    exact wp_rmtree hmay (hinv _ _ h) (fun left => hinv left _ (h.setCanonical left))
      (hQ _ (h.setCanonical none))

/-- The backup, if it is looked for and there is one, takes the free place. -/
theorem wp_restore {look : Bool} {Q : Except Exc Unit → Disk × Seen → Prop}
    (h : Stage x t status none b logged raised s) (hs : inv s)
    (hinv : look = true → ∀ s', Stage x t status b none logged raised s' → inv s')
    (hQ : ∀ s', Stage x t status (if look then b else none) (if look then none else b) logged
      raised s' → Q (.ok ()) s') :
    wp (observed mayFail) (.keeping inv) () (restore look (backupDir x.bundle.1)) Q s := by
  cases look with
  | false => exact hQ s h
  | true =>
    refine wp_bind.mpr (wp_dirExists hmay hs ?_)
    have hb := h.backup
    cases b with
    | none =>
      rw [hb]
      exact hQ s h
    | some tree =>
      have hmoved : Stage x t status (some tree) none logged raised
          ((s.1.setDir (backupDir x.bundle.1) none).setDir canonicalDir
            (s.1.dirs (backupDir x.bundle.1)), s.2) := by
        rw [hb]
        exact (h.setBackup none).setCanonical (some tree)
      have hcan : s.1.CanReplace (backupDir x.bundle.1) canonicalDir := by
        rw [Disk.CanReplace, hb, h.canonical]
        exact ⟨rfl, rfl⟩
      rw [hb]
      refine wp_replace hcan ⟨hinv rfl _ hmoved, hQ _ hmoved⟩ ?_
      exact fun hfail => absurd (hmay _ hfail) (not_tryStep_restore _)

/-- The replacement and the lock candidate are none of the two trees that matter. -/
theorem wp_tidy {lockCandidate : Option String} {Q : Except Exc Unit → Disk × Seen → Prop}
    (h : Stage x t status c b logged raised s)
    (hlock : ∀ dir, lockCandidate = some dir → dir = lockCandidateDir x.bundle.1)
    (hinv : ∀ s', Stage x t status c b logged raised s' → inv s')
    (hQ : ∀ s', Stage x t status c b logged raised s' → Q (.ok ()) s') :
    wp (observed mayFail) (.keeping inv) () (do
      rmtree (replacementDir x.bundle.1)
      removeLockCandidate lockCandidate) Q s := by
  have hrep := fun left => h.setDir_other (replacementDir_ne_canonicalDir x.bundle.1)
    (replacementDir_ne_backupDir _ _) left
  refine wp_bind.mpr (wp_rmtree hmay (hinv _ h) (fun left => hinv _ (hrep left)) ?_)
  cases hl : lockCandidate with
  | none => exact hQ _ (hrep none)
  | some dir =>
    obtain rfl := hlock dir hl
    have hcand := fun left => (hrep none).setDir_other
      (lockCandidateDir_ne_canonicalDir x.bundle.1) (lockCandidateDir_ne_backupDir _ _) left
    exact wp_rmtree hmay (hinv _ (hrep none)) (fun left => hinv _ (hcand left))
      (hQ _ (hcand none))

/-- **Undoing a swap.**  Whatever the canonical tree was, it ends as the backup if that is
looked for, and is gone otherwise. -/
theorem wp_undoSwap {look : Bool} {lockCandidate : Option String}
    {Q : Except Exc Unit → Disk × Seen → Prop} (h : Stage x t status c b logged raised s)
    (hlock : ∀ dir, lockCandidate = some dir → dir = lockCandidateDir x.bundle.1)
    (hinv : ∀ c' s', Stage x t status c' b logged raised s' → inv s')
    (hback : look = true → ∀ s', Stage x t status b none logged raised s' → inv s')
    (hQ : ∀ s', Stage x t status (if look then b else none) (if look then none else b) logged
      raised s' → Q (.ok ()) s') :
    wp (observed mayFail) (.keeping inv) ()
      (undoSwap look (backupDir x.bundle.1) (replacementDir x.bundle.1) lockCandidate) Q s := by
  refine wp_bind.mpr (wp_removeCanonical hmay h hinv fun s₁ h₁ => ?_)
  refine wp_bind.mpr (wp_restore hmay h₁ (hinv _ _ h₁) hback fun s₂ h₂ => ?_)
  refine wp_tidy hmay h₂ hlock (fun s' h' => ?_) hQ
  cases look with
  | false => exact hinv _ _ h'
  | true => exact hback rfl _ h'

/-- The last two steps of a transaction that ends as `status'`. -/
theorem wp_closeJournal {status' : String} {Q : Except Exc Unit → Disk × Seen → Prop}
    (h : Stage x t status c b logged raised s)
    (hstatus : status' = "COMMITTED" ∨ status' = "ROLLED_BACK")
    (hinv : ∀ s', Stage x t status' c b logged raised s' → inv s')
    (hclosed : ∀ s', Closed x t c logged raised s' → inv s')
    (hQ : ∀ s', Closed x t c logged raised s' → Q (.ok ()) s') :
    wp (observed mayFail) (.keeping inv) () (closeJournal (x.journal status')) Q s := by
  have hj := h.setJournal status'
  refine wp_bind.mpr (wp_writeJournal_certain hmay ?_ (hinv _ hj) ?_)
  · simpa [Transaction.journal] using hstatus
  · exact wp_unlinkJournal hmay (hclosed _ hj.close) (hQ _ hj.close)

end Undo

end Kripto.Promotion
