/-
# The `try` block of a promotion and what follows it

One walk through the block.  Wherever it stops there are three cases.  Almost always the backup
is the tree that was there and the ledger does not have the bundle, so that undoing the swap
gives the old tree back.  Two steps are different: if the very first `os.replace` raises, the
backup does not exist yet; if the very last journal write raises, the ledger has the bundle
already.
-/
import Kripto.Promotion.Stage

namespace Kripto.Promotion

open Effect

variable [Encoding]

/-! ## 1. The cases -/

/-- The step that moves the canonical tree aside. -/
def Transaction.firstStep (x : Transaction) : Op := .replace canonicalDir (backupDir x.bundle.1)

/-- The journal write behind the append to the ledger. -/
def Transaction.lastStep (x : Transaction) : Op := .writeJournal (x.journal "LEDGER_COMMITTED")

/-- The statuses a recovery has to act on. -/
def pending : List String := ["PREPARED", "CANONICAL_SWAPPED", "POST_VERIFIED", "LEDGER_COMMITTED"]

/-- The block can be undone from here. -/
structure Undoable (x : Transaction) (t : Txn) (s : Disk × Seen) : Prop where
  stage : ∃ status ∈ pending, ∃ c, Stage x t status c t.pre false s.2.raised s
  notFirst : x.firstStep ∉ s.2.raised
  notLast : x.lastStep ∉ s.2.raised

/-- The places a `try` block that stopped can be in. -/
inductive Stopped (mayFail : Op → Prop) (x : Transaction) (t : Txn) (s : Disk × Seen) : Prop
  | undoable (h : Undoable x t s)
  | atFirst (may : mayFail x.firstStep) (had : t.pre.isSome)
      (h : Stage x t "PREPARED" t.pre none false [x.firstStep] s)
  | atLast (may : mayFail x.lastStep)
      (h : Stage x t "POST_VERIFIED" (some t.next) t.pre true [x.lastStep] s)

/-- The ways a transaction ends, by whether it reports a promotion. -/
inductive Settled (mayFail : Op → Prop) (x : Transaction) (t : Txn) (s : Disk × Seen) :
    Bool → Prop
  | promoted (h : Closed x t (some t.next) true [] s) : Settled mayFail x t s true
  | undone (h : Closed x t t.pre false s.2.raised s) (notFirst : x.firstStep ∉ s.2.raised)
      (notLast : x.lastStep ∉ s.2.raised) : Settled mayFail x t s false
  | lost (may : mayFail x.firstStep) (had : t.pre.isSome)
      (h : Closed x t none false [x.firstStep] s) : Settled mayFail x t s false
  | orphaned (may : mayFail x.lastStep) (h : Closed x t t.pre true [x.lastStep] s) :
      Settled mayFail x t s false

/-- Where a transaction passes through, as long as neither of the two steps raises. -/
inductive OnPath (x : Transaction) (t : Txn) (s : Disk × Seen) : Prop
  | kept {status : String} {c : Option Tree} {raised : List Op} (hp : status ∈ pending)
      (h : Stage x t status c t.pre false raised s)
  | untouched {status : String} {raised : List Op} (hp : status ∈ pending)
      (h : Stage x t status t.pre none false raised s)
  | logged {status : String} {b : Option Tree} {raised : List Op} (hp : status ∈ pending)
      (h : Stage x t status (some t.next) b true raised s)
  | rolledBack {b : Option Tree} {raised : List Op}
      (h : Stage x t "ROLLED_BACK" t.pre b false raised s)
  | committed {b : Option Tree} {raised : List Op}
      (h : Stage x t "COMMITTED" (some t.next) b true raised s)
  | undone {raised : List Op} (h : Closed x t t.pre false raised s)
  | promoted {raised : List Op} (h : Closed x t (some t.next) true raised s)

/-- What a transaction asks of an invariant it is watched by. -/
structure Watch (mayFail : Op → Prop) (inv : Disk × Seen → Prop) (x : Transaction) (t : Txn) :
    Prop where
  path : ∀ s, OnPath x t s → inv s
  lax : mayFail x.firstStep ∨ mayFail x.lastStep → ∀ s, inv s

/-- A step that is neither the first nor the last leaves the block undoable when it raises. -/
theorem Stage.undoable {x : Transaction} {t : Txn} {status : String} {c : Option Tree}
    {s : Disk × Seen} (h : Stage x t status c t.pre false [] s) (hp : status ∈ pending) {o : Op}
    (hfirst : o ≠ x.firstStep) (hlast : o ≠ x.lastStep) (exc : Exc) :
    Undoable x t (s.1, Seen.note o s.1 (.error exc) s.2) := by
  have hraise := h.raise o exc
  rw [h.note_error] at hraise ⊢
  refine ⟨⟨status, hp, c, hraise⟩, ?_, ?_⟩
  · simpa using hfirst.symm
  · simpa using hlast.symm

/-! ## 2. The parts of the block -/

section Block

variable {mayFail : Op → Prop} {inv : Disk × Seen → Prop} {s : Disk × Seen}
  {x : Transaction} {t : Txn} {c : Option Tree}

variable (hmay : ∀ o, mayFail o → TryStep o) (hw : Watch mayFail inv x t)

include hw in
theorem Watch.undoable (h : Undoable x t s) : inv s := by
  obtain ⟨status, hp, c, hstage⟩ := h.stage
  exact hw.path s (.kept hp hstage)

/-- The journal moves on. -/
theorem wp_advanceJournal {status status' : String} {logged : Bool}
    {Q : Except Exc Unit → Disk × Seen → Prop}
    (h : Stage x t status c t.pre logged [] s) (hne : status' ≠ "PREPARED")
    (hinv : ∀ s', Stage x t status' c t.pre logged [] s' → inv s')
    (hQ : ∀ s', Stage x t status' c t.pre logged [] s' → Q (.ok ()) s')
    (herr : mayFail (.writeJournal (x.journal status')) → ∀ exc,
      inv (s.1, Seen.note (.writeJournal (x.journal status')) s.1 (.error exc) s.2) ∧
      Q (.error exc) (s.1, Seen.note (.writeJournal (x.journal status')) s.1 (.error exc) s.2)) :
    wp (observed mayFail) (.keeping inv) () (perform (.writeJournal (x.journal status'))) Q s := by
  have hj := h.setJournal status'
  have hnote : ∀ g : Seen, Seen.note (.writeJournal (x.journal status')) s.1 (.ok ()) g = g := by
    intro g
    exact note_writeJournal (by simpa [Transaction.journal] using hne) g s.1
  refine wp_mayFail (v := ()) (d := { s.1 with journal := .doc (x.journal status') }) ?_ ?_ herr
  · exact fun r s₁ h => h
  · rw [hnote]
    exact ⟨hinv _ hj, hQ _ hj⟩

include hw

/-- A step of the block whose failure can be undone. -/
theorem wp_undoableJournal {status status' : String}
    {Q : Except Exc Unit → Disk × Seen → Prop}
    (h : Stage x t status c t.pre false [] s) (hp : status ∈ pending) (hp' : status' ∈ pending)
    (hne : status' ≠ "PREPARED") (hlast : status' ≠ "LEDGER_COMMITTED")
    (hQ : ∀ s', Stage x t status' c t.pre false [] s' → Q (.ok ()) s')
    (herr : ∀ exc s', Undoable x t s' → Q (.error exc) s') :
    wp (observed mayFail) (.keeping inv) () (perform (.writeJournal (x.journal status'))) Q s := by
  refine wp_advanceJournal h hne (fun s' h' => hw.path s' (.kept hp' h')) hQ ?_
  intro _ exc
  have hundo := h.undoable hp (o := .writeJournal (x.journal status'))
    (by simp [Transaction.firstStep])
    (by simpa [Transaction.lastStep, Transaction.journal] using hlast) exc
  exact ⟨hw.undoable hundo, herr exc _ hundo⟩

/-- Moving the canonical tree aside. -/
theorem wp_moveAside {Q : Except Exc Unit → Disk × Seen → Prop}
    (h : Stage x t "PREPARED" t.pre none false [] s) (hhad : x.hadCanonical = t.pre.isSome)
    (hrep : s.1.dirs (replacementDir x.bundle.1) = some t.next)
    (hQ : ∀ s', Stage x t "PREPARED" none t.pre false [] s' →
      s'.1.dirs (replacementDir x.bundle.1) = some t.next → Q (.ok ()) s')
    (herr : ∀ exc s', mayFail x.firstStep → t.pre.isSome →
      Stage x t "PREPARED" t.pre none false [x.firstStep] s' → Q (.error exc) s') :
    wp (observed mayFail) (.keeping inv) () x.moveAside Q s := by
  rw [Transaction.moveAside, hhad]
  cases hpre : t.pre with
  | none =>
    refine hQ s ?_ hrep
    rw [hpre] at h ⊢
    exact h
  | some tree =>
    have hcanon : s.1.dirs canonicalDir = t.pre := h.canonical
    have hmoved : Stage x t "PREPARED" none t.pre false []
        ((s.1.setDir canonicalDir none).setDir (backupDir x.bundle.1) (s.1.dirs canonicalDir),
          s.2) := by
      rw [hcanon]
      exact (h.setCanonical none).setBackup t.pre
    have hcan : s.1.CanReplace canonicalDir (backupDir x.bundle.1) := by
      rw [Disk.CanReplace, hcanon, hpre, h.backup]
      exact ⟨rfl, rfl⟩
    refine wp_replace hcan ⟨hw.path _ (.kept (by decide) hmoved), hQ _ hmoved ?_⟩ ?_
    · rw [Disk.setDir_of_ne _ _ (replacementDir_ne_backupDir _ _),
        Disk.setDir_of_ne _ _ (replacementDir_ne_canonicalDir _), hrep]
    · intro hfail exc
      have hraise := h.raise x.firstStep exc
      exact ⟨hw.path _ (.untouched (by decide) hraise),
        herr exc _ hfail (by rw [hpre]; rfl) hraise⟩

include hmay

/-- The swap and the verification of what is in place then. -/
theorem wp_swap {Q : Except Exc Verdict → Disk × Seen → Prop}
    (h : Stage x t "PREPARED" t.pre none false [] s) (hhad : x.hadCanonical = t.pre.isSome)
    (hrep : s.1.dirs (replacementDir x.bundle.1) = some t.next)
    (hQ : ∀ post s', Stage x t "CANONICAL_SWAPPED" (some t.next) t.pre false [] s' →
      Q (.ok post) s')
    (herr : ∀ exc s', Stopped mayFail x t s' → Q (.error exc) s') :
    wp (observed mayFail) (.keeping inv) () x.swap Q s := by
  refine wp_bind.mpr (wp_moveAside hw h hhad hrep ?_ ?_)
  swap
  · exact fun exc s' may had h' => herr exc s' (.atFirst may had h')
  intro s₁ h₁ hrep₁
  have hmoved : Stage x t "PREPARED" (some t.next) t.pre false []
      ((s₁.1.setDir (replacementDir x.bundle.1) none).setDir canonicalDir
        (s₁.1.dirs (replacementDir x.bundle.1)), s₁.2) := by
    rw [hrep₁]
    exact (h₁.setDir_other (replacementDir_ne_canonicalDir _)
      (replacementDir_ne_backupDir _ _) none).setCanonical (some t.next)
  have hcan : s₁.1.CanReplace (replacementDir x.bundle.1) canonicalDir := by
    rw [Disk.CanReplace, hrep₁, h₁.canonical]
    exact ⟨rfl, rfl⟩
  refine wp_bind.mpr (wp_replace hcan ⟨hw.path _ (.kept (by decide) hmoved), ?_⟩ ?_)
  · refine wp_bind.mpr (wp_undoableJournal hw hmoved (by decide) (by decide) (by decide)
      (by decide) ?_ fun exc s' hu => herr exc s' (.undoable hu))
    intro s₂ h₂
    -- The verification answers anything and may raise.
    refine wp_keeping_perform ?_
    rintro r ⟨d, g⟩ ⟨heffect | ⟨hfail, -, -⟩, hnote⟩
    · obtain rfl : d = s₂.1 := heffect
      obtain rfl : g = _ := hnote
      cases r with
      | ok post => exact ⟨hw.path _ (.kept (by decide) h₂), hQ post _ h₂⟩
      | error exc =>
        have hundo := h₂.undoable (by decide) (o := .postVerify) (by simp [Transaction.firstStep])
          (by simp [Transaction.lastStep]) exc
        exact ⟨hw.undoable hundo, herr exc _ (.undoable hundo)⟩
    · exact absurd (hmay _ hfail) id
  · intro _ exc
    have hundo := h₁.undoable (by decide)
      (o := .replace (replacementDir x.bundle.1) canonicalDir)
      (by simp [Transaction.firstStep]) (by simp [Transaction.lastStep]) exc
    exact ⟨hw.undoable hundo, herr exc _ (.undoable hundo)⟩

omit hmay in
/-- Copying the lock candidates touches neither tree. -/
theorem wp_copyPresent (dir : String) (hc : dir ≠ canonicalDir) (hb : dir ≠ backupDir x.bundle.1)
    {Q : Except Exc Unit → Disk × Seen → Prop} (rels : List String)
    (h : Stage x t "CANONICAL_SWAPPED" c t.pre false [] s)
    (hQ : ∀ s', Stage x t "CANONICAL_SWAPPED" c t.pre false [] s' → Q (.ok ()) s')
    (herr : ∀ exc s', Undoable x t s' → Q (.error exc) s') :
    wp (observed mayFail) (.keeping inv) () (copyPresent x.staged dir rels) Q s := by
  induction rels generalizing s with
  | nil => exact hQ s h
  | cons rel rest ih =>
    rw [copyPresent]
    cases x.staged.files.lookup rel with
    | none => exact ih h
    | some content =>
      have hset := h.setDir_other hc hb (some (((s.1.dirs dir).getD ∅).insert rel content))
      refine wp_bind.mpr (wp_mayFail (o := .copyInto dir rel content) (v := ())
        (d := s.1.setDir dir (some (((s.1.dirs dir).getD ∅).insert rel content)))
        (fun r s₁ heff => heff) ⟨hw.path _ (.kept (by decide) hset), ih hset⟩ fun _ exc => ?_)
      have hundo := h.undoable (by decide) (o := .copyInto dir rel content)
        (by simp [Transaction.firstStep]) (by simp [Transaction.lastStep]) exc
      exact ⟨hw.undoable hundo, herr exc _ hundo⟩

theorem wp_copyLockCandidates {Q : Except Exc (Option String) → Disk × Seen → Prop}
    (h : Stage x t "CANONICAL_SWAPPED" c t.pre false [] s)
    (hQ : ∀ lock s', (∀ dir, lock = some dir → dir = lockCandidateDir x.bundle.1) →
      Stage x t "CANONICAL_SWAPPED" c t.pre false [] s' → Q (.ok lock) s')
    (herr : ∀ exc s', Undoable x t s' → Q (.error exc) s') :
    wp (observed mayFail) (.keeping inv) ()
      (copyLockCandidates x.staged x.bundle.1 x.lockFiles) Q s := by
  rw [copyLockCandidates]
  split
  · exact hQ none s (by simp) h
  have hpath : ∀ s', Stage x t "CANONICAL_SWAPPED" c t.pre false [] s' → inv s' :=
    fun s' h' => hw.path s' (.kept (by decide) h')
  have hsome : ∀ dir, some (lockCandidateDir x.bundle.1) = some dir →
      dir = lockCandidateDir x.bundle.1 := by
    intro dir hdir
    exact (Option.some.inj hdir).symm
  refine wp_bind.mpr (wp_dirExists hmay (hpath s h) ?_)
  cases (s.1.dirs (lockCandidateDir x.bundle.1)).isSome with
  | true => exact hQ _ s hsome h
  | false =>
    have htemp := fun left => h.setDir_other (lockTempDir_ne_canonicalDir x.bundle.1)
      (lockTempDir_ne_backupDir _ _) left
    refine wp_bind.mpr (wp_rmtree hmay (hpath s h) (fun left => hpath _ (htemp left)) ?_)
    refine wp_bind.mpr (wp_copyPresent hw _ (lockTempDir_ne_canonicalDir _)
      (lockTempDir_ne_backupDir _ _) _ (htemp none) ?_ herr)
    intro s₁ h₁
    have hraise : ∀ exc, inv (s₁.1, Seen.note (.replace (lockTempDir x.bundle.1)
        (lockCandidateDir x.bundle.1)) s₁.1 (.error exc) s₁.2) ∧
        Q (.error exc) (s₁.1, Seen.note (.replace (lockTempDir x.bundle.1)
          (lockCandidateDir x.bundle.1)) s₁.1 (.error exc) s₁.2) := by
      intro exc
      have hundo := h₁.undoable (by decide)
        (o := .replace (lockTempDir x.bundle.1) (lockCandidateDir x.bundle.1))
        (by simp [Transaction.firstStep]) (by simp [Transaction.lastStep]) exc
      exact ⟨hw.undoable hundo, herr exc _ hundo⟩
    -- Without any file there is no directory to move, and `os.replace` raises.
    refine wp_bind.mpr (wp_keeping_perform ?_)
    rintro r ⟨d, g⟩ ⟨(⟨-, rfl, rfl⟩ | ⟨-, rfl, rfl⟩) | ⟨-, ⟨exc, rfl⟩, rfl⟩, hnote⟩ <;>
      obtain rfl : g = _ := hnote
    · have hset := (h₁.setDir_other (lockTempDir_ne_canonicalDir x.bundle.1)
        (lockTempDir_ne_backupDir _ _) none).setDir_other
        (lockCandidateDir_ne_canonicalDir x.bundle.1) (lockCandidateDir_ne_backupDir _ _)
        (s₁.1.dirs (lockTempDir x.bundle.1))
      exact ⟨hpath _ hset, hQ _ _ hsome hset⟩
    · exact hraise _
    · exact hraise exc

omit hw in
/-- Loading an intact ledger. -/
theorem wp_loadImportLedger {Q : Except Exc (LedgerDoc × List String) → Disk × Seen → Prop}
    (hs : inv s) (hintact : s.1.ledger.Intact) (hQ : Q (.ok (s.1.ledger.document, [])) s) :
    wp (observed mayFail) (.keeping inv) () loadImportLedger Q s := by
  refine wp_bind.mpr (wp_certain (o := .readLedger) (v := s.1.ledger) (d := s.1) (hmay _)
    (fun r s₁ heff => heff) hs ?_)
  rw [onOk_ok, if_neg hintact.1, hintact.2]
  exact hQ

/-- Appending to the ledger is the step that commits. -/
theorem wp_appendImportLedger {Q : Except Exc Unit → Disk × Seen → Prop}
    (h : Stage x t "POST_VERIFIED" (some t.next) t.pre false [] s)
    (hQ : ∀ s', Stage x t "POST_VERIFIED" (some t.next) t.pre true [] s' → Q (.ok ()) s')
    (herr : ∀ exc s', Undoable x t s' → Q (.error exc) s') :
    wp (observed mayFail) (.keeping inv) () (appendImportLedger x.bundle x.entry) Q s := by
  have hpath : inv s := hw.path s (.kept (by decide) h)
  obtain ⟨hintact, hcount⟩ := h.ledger
  have hfresh : x.bundle.1 ∉ s.1.ledger.bundles := by
    rw [← List.count_eq_zero]
    exact hcount
  refine wp_bind.mpr (wp_loadImportLedger hmay hpath hintact ?_)
  have hlast := lastEventHash_of_scan hintact.scan
  rw [onOk_ok]
  simp only [ne_eq, not_true_eq_false, if_false, hlast]
  refine wp_bind.mpr (wp_keeping_perform ?_)
  rintro r ⟨d, g⟩ ⟨⟨⟨now, rfl⟩, rfl⟩ | ⟨hfail, -, -⟩, hnote⟩
  swap
  · exact absurd (hmay _ hfail) id
  obtain rfl : g = _ := hnote
  refine ⟨hpath, ?_⟩
  set d := s.1.ledger.document.appended (newEvent x.bundle x.entry.sourceSha
    x.entry.promotedFiles x.entry.artifactClasses x.entry.trustAnchor now
    (scan s.1.ledger.document.eventList).previous) with hd
  have hledger : Logged x.bundle.1 true (.doc d) := by
    obtain ⟨hintact', hbundles⟩ := appended_intact hintact hfresh hlast x.entry.sourceSha
      x.entry.promotedFiles x.entry.artifactClasses x.entry.trustAnchor now
    refine ⟨hintact', ?_⟩
    rw [hbundles, List.count_append, hcount]
    simp
  have hset : Stage x t "POST_VERIFIED" (some t.next) t.pre true []
      ({ s.1 with ledger := .doc d }, s.2) :=
    ⟨h.opened, h.seen, h.journal, h.canonical, h.backup, hledger⟩
  refine wp_mayFail (o := .writeLedger d) (v := ()) (d := { s.1 with ledger := .doc d })
    (fun r s₁ heff => heff) ⟨hw.path _ (.logged (by decide) hset), hQ _ hset⟩ ?_
  intro _ exc
  have hundo := h.undoable (by decide) (o := .writeLedger d) (by simp [Transaction.firstStep])
    (by simp [Transaction.lastStep]) exc
  exact ⟨hw.undoable hundo, herr exc _ hundo⟩

theorem wp_commit {Q : Except Exc Unit → Disk × Seen → Prop}
    (h : Stage x t "CANONICAL_SWAPPED" (some t.next) t.pre false [] s)
    (hQ : ∀ s', Stage x t "LEDGER_COMMITTED" (some t.next) t.pre true [] s' → Q (.ok ()) s')
    (herr : ∀ exc s', Stopped mayFail x t s' → Q (.error exc) s') :
    wp (observed mayFail) (.keeping inv) () x.commit Q s := by
  refine wp_bind.mpr (wp_undoableJournal hw h (by decide) (by decide) (by decide) (by decide)
    ?_ fun exc s' hu => herr exc s' (.undoable hu))
  intro s₁ h₁
  refine wp_bind.mpr (wp_appendImportLedger hmay hw h₁ ?_
    fun exc s' hu => herr exc s' (.undoable hu))
  intro s₂ h₂
  refine wp_advanceJournal h₂ (by decide) (fun s' h' => hw.path s' (.logged (by decide) h')) hQ ?_
  intro hfail exc
  have hraise := h₂.raise x.lastStep exc
  exact ⟨hw.path _ (.logged (by decide) hraise), herr exc _ (.atLast hfail hraise)⟩

omit [Encoding] hmay hw in
theorem wp_during {α : Type} {locals : Locals} {part : Prog diskSig α}
    {rest : α → Prog diskSig (Except Exc Unit × Locals)}
    {Q : Except Exc (Except Exc Unit × Locals) → Disk × Seen → Prop}
    (h : wp (observed mayFail) (.keeping inv) () part (fun r s' => match r with
      | .ok a => wp (observed mayFail) (.keeping inv) () (rest a) Q s'
      | .error exc => Q (.ok (.error exc, locals)) s') s) :
    wp (observed mayFail) (.keeping inv) () (during locals part rest) Q s := by
  refine wp_bind.mpr (wp_attempt.mpr (wp_mono ?_ h))
  intro r s' hr
  cases r with
  | ok a => exact hr
  | error exc => exact hr

/-- **The `try` block**, from the `PREPARED` journal. -/
theorem wp_body {Q : Except Exc (Except Exc Unit × Locals) → Disk × Seen → Prop}
    (h : Stage x t "PREPARED" t.pre none false [] s) (hhad : x.hadCanonical = t.pre.isSome)
    (hrep : s.1.dirs (replacementDir x.bundle.1) = some t.next)
    (hQ : ∀ locals s', Stage x t "LEDGER_COMMITTED" (some t.next) t.pre true [] s' →
      Q (.ok (.ok (), locals)) s')
    (herr : ∀ exc locals s', Stopped mayFail x t s' →
      (∀ dir, locals.lockCandidate = some dir → dir = lockCandidateDir x.bundle.1) →
      Q (.ok (.error exc, locals)) s') :
    wp (observed mayFail) (.keeping inv) () x.body Q s := by
  refine wp_during (wp_swap hmay hw h hhad hrep ?_ fun exc s' hs => herr exc _ s' hs (by simp))
  intro post s₁ h₁
  refine wp_during ?_
  have hcheck : wp (observed mayFail) (.keeping inv) () (x.checkAndCopy post)
      (fun r s' => match r with
        | .ok lock => (∀ dir, lock = some dir → dir = lockCandidateDir x.bundle.1) ∧
            Stage x t "CANONICAL_SWAPPED" (some t.next) t.pre false [] s'
        | .error _ => Stopped mayFail x t s') s₁ := by
    rw [Transaction.checkAndCopy]
    split
    · refine wp_copyLockCandidates hmay hw h₁ ?_ fun exc s' hu => .undoable hu
      exact fun lock s' hlock h' => ⟨hlock, h'⟩
    · -- An unverified promotion raises by itself.
      have hnone : s₁.2.raised = [] := by rw [h₁.seen]
      have hstage : Stage x t "CANONICAL_SWAPPED" (some t.next) t.pre false s₁.2.raised s₁ := by
        rw [hnone]
        exact h₁
      exact .undoable ⟨⟨_, by decide, _, hstage⟩, by simp [hnone], by simp [hnone]⟩
  refine wp_mono ?_ hcheck
  intro r s₂ hr
  cases r with
  | error exc => exact herr exc _ s₂ hr (by simp)
  | ok lock =>
    obtain ⟨hlock, h₂⟩ := hr
    refine wp_during (wp_commit hmay hw h₂ ?_ ?_)
    · exact fun s₃ h₃ => hQ _ s₃ h₃
    · exact fun exc s₃ hs => herr exc _ s₃ hs hlock

end Block

/-! ## 3. The branches behind it -/

section Branches

variable {mayFail : Op → Prop} {inv : Disk × Seen → Prop} {s : Disk × Seen}
  {x : Transaction} {t : Txn} {status : String} {c b : Option Tree} {logged : Bool}
  {raised : List Op}

variable (hmay : ∀ o, mayFail o → TryStep o) (hw : Watch mayFail inv x t)
  (hhad : x.hadCanonical = t.pre.isSome)

include hmay

/-- The `except` branch puts the backup in place if there was a tree to begin with. -/
theorem wp_abort_stage {locals : Locals} {Q : Except Exc Unit → Disk × Seen → Prop}
    (h : Stage x t status c b logged raised s)
    (hlock : ∀ dir, locals.lockCandidate = some dir → dir = lockCandidateDir x.bundle.1)
    (hinv : ∀ c' s', Stage x t status c' b logged raised s' → inv s')
    (hback : x.hadCanonical = true → ∀ s', Stage x t status b none logged raised s' → inv s')
    (hrolled : ∀ b' s', Stage x t "ROLLED_BACK" (if x.hadCanonical then b else none) b' logged
      raised s' → inv s')
    (hclosed : ∀ s', Closed x t (if x.hadCanonical then b else none) logged raised s' → inv s')
    (hQ : ∀ s', Closed x t (if x.hadCanonical then b else none) logged raised s' →
      Q (.ok ()) s') :
    wp (observed mayFail) (.keeping inv) () (x.abort locals) Q s := by
  refine wp_bind.mpr (wp_undoSwap hmay h ?_ hinv hback ?_)
  · intro dir hdir
    split at hdir
    · cases hdir
    · exact hlock dir hdir
  · intro s₁ h₁
    exact wp_closeJournal hmay h₁ (Or.inr rfl) (hrolled _) hclosed hQ

omit [Encoding] hmay in
include hhad in
theorem restored_eq_pre : (if x.hadCanonical then t.pre else none) = t.pre := by
  rw [hhad]
  cases t.pre <;> rfl

include hw hhad

/-- **The `except` branch**, from wherever the block stopped. -/
theorem wp_abort {locals : Locals} {Q : Except Exc Unit → Disk × Seen → Prop}
    (h : Stopped mayFail x t s)
    (hlock : ∀ dir, locals.lockCandidate = some dir → dir = lockCandidateDir x.bundle.1)
    (hQ : ∀ s', Settled mayFail x t s' false → Q (.ok ()) s') :
    wp (observed mayFail) (.keeping inv) () (x.abort locals) Q s := by
  have hpre := restored_eq_pre hhad
  cases h with
  | undoable h =>
    obtain ⟨⟨status, hp, c, hstage⟩, hfirst, hlast⟩ := h
    refine wp_abort_stage hmay hstage hlock (fun c' s' h' => hw.path s' (.kept hp h'))
      (fun _ s' h' => hw.path s' (.untouched hp h')) ?_ ?_ ?_
    · intro b' s' h'
      rw [hpre] at h'
      exact hw.path s' (.rolledBack h')
    · intro s' h'
      rw [hpre] at h'
      exact hw.path s' (.undone h')
    · intro s' h'
      rw [hpre] at h'
      have hraised : s'.2.raised = s.2.raised := by rw [h'.seen]
      rw [← hraised] at h' hfirst hlast
      exact hQ s' (.undone h' hfirst hlast)
  | atFirst may had h =>
    have hall := hw.lax (Or.inl may)
    refine wp_abort_stage hmay h hlock (fun _ s' _ => hall s') (fun _ s' _ => hall s')
      (fun _ s' _ => hall s') (fun s' _ => hall s') fun s' h' => hQ s' (.lost may had ?_)
    rwa [ite_self] at h'
  | atLast may h =>
    have hall := hw.lax (Or.inr may)
    refine wp_abort_stage hmay h hlock (fun _ s' _ => hall s') (fun _ s' _ => hall s')
      (fun _ s' _ => hall s') (fun s' _ => hall s') fun s' h' => hQ s' (.orphaned may ?_)
    rwa [hpre] at h'

omit hhad in
/-- The `else` branch removes the backup. -/
theorem wp_finish {Q : Except Exc Unit → Disk × Seen → Prop}
    (h : Stage x t "LEDGER_COMMITTED" (some t.next) t.pre true [] s)
    (hQ : ∀ s', Settled mayFail x t s' true → Q (.ok ()) s') :
    wp (observed mayFail) (.keeping inv) () x.finish Q s := by
  have hpath : ∀ b s', Stage x t "LEDGER_COMMITTED" (some t.next) b true [] s' → inv s' :=
    fun b s' h' => hw.path s' (.logged (by decide) h')
  refine wp_bind.mpr (wp_rmtree hmay (hpath _ s h)
    (fun left => hpath _ _ (h.setBackup left)) ?_)
  exact wp_closeJournal hmay (h.setBackup none) (Or.inl rfl)
    (fun s' h' => hw.path s' (.committed h')) (fun s' h' => hw.path s' (.promoted h'))
    fun s' h' => hQ s' (.promoted h')

/-- **A whole transaction**, once its `PREPARED` journal is written. -/
theorem wp_run {assessment : Assessment} {recovery : Recovery}
    {Q : Except Exc Promoted → Disk × Seen → Prop}
    (h : Stage x t "PREPARED" t.pre none false [] ({ s.1 with
        journal := .doc (x.journal "PREPARED") }, ⟨some t, []⟩))
    (ht : t = ⟨x.journal "PREPARED", s.1.dirs canonicalDir,
      (s.1.dirs (replacementDir x.bundle.1)).getD ∅⟩)
    (hrep : s.1.dirs (replacementDir x.bundle.1) = some t.next)
    (hQ : ∀ res s', res.rolledBack.isSome → res.recovery = recovery →
      Settled mayFail x t s' res.promoted → Q (.ok res) s') :
    wp (observed mayFail) (.keeping inv) () (x.run assessment recovery) Q s := by
  have hnote : Seen.note (.writeJournal (x.journal "PREPARED")) s.1 (.ok ()) s.2 =
      ⟨some t, []⟩ := by
    rw [ht]
    rfl
  refine wp_bind.mpr (wp_certain (o := .writeJournal (x.journal "PREPARED")) (v := ())
    (d := { s.1 with journal := .doc (x.journal "PREPARED") }) ?_ (fun r s₁ heff => heff) ?_ ?_)
  · intro hfail
    have hstep := hmay _ hfail
    simp [TryStep, Transaction.journal] at hstep
  · rw [hnote]
    exact hw.path _ (.untouched (by decide) h)
  rw [hnote]
  refine wp_bind.mpr (wp_body hmay hw h hhad hrep ?_ ?_)
  · intro locals s₁ h₁
    refine wp_bind.mpr (wp_finish hmay hw h₁ ?_)
    exact fun s₂ h₂ => hQ _ s₂ rfl rfl h₂
  · intro exc locals s₁ h₁ hlock
    refine wp_bind.mpr (wp_abort hmay hw hhad h₁ hlock ?_)
    exact fun s₂ h₂ => hQ _ s₂ rfl rfl h₂

end Branches

end Kripto.Promotion
