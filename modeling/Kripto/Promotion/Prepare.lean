/-
# Before the transaction

Everything `promote` does before the `PREPARED` journal: the assessment, and the promoted tree
built beside the canonical one.  None of it touches the journal, the ledger or the canonical
tree.  What the transaction relies on afterwards is `Building`: no backup, and a replacement
that is the promoted tree.
-/
import Kripto.Promotion.TryBlock

namespace Kripto.Promotion

open Effect

/-! ## 1. What stays as it is -/

/-- Everything a recovery looks at is as it was. -/
structure Untouched (s s' : Disk × Seen) : Prop where
  journal : s'.1.journal = s.1.journal
  ledger : s'.1.ledger = s.1.ledger
  canonical : s'.1.dirs canonicalDir = s.1.dirs canonicalDir
  txn : s'.2.txn = s.2.txn

namespace Untouched

variable {s s' : Disk × Seen}

theorem refl (s : Disk × Seen) : Untouched s s := ⟨rfl, rfl, rfl, rfl⟩

theorem setDir (h : Untouched s s') {dir : String} (hdir : dir ≠ canonicalDir)
    (left : Option Tree) : Untouched s (s'.1.setDir dir left, s'.2) where
  journal := h.journal
  ledger := h.ledger
  canonical := (Disk.setDir_of_ne _ _ hdir.symm).trans h.canonical
  txn := h.txn

end Untouched

/-- Only a `PREPARED` journal changes what the observer has as the transaction. -/
theorem txn_note {o : Op} (ho : ∀ j, o ≠ .writeJournal j) (s : Disk) (r : diskSig.Ans o)
    (g : Seen) : (Seen.note o s r g).txn = g.txn := by
  cases r with
  | error exc => cases h : g.txn <;> simp [Seen.note, h]
  | ok v =>
    cases o with
    | writeJournal j => exact absurd rfl (ho j)
    | _ => rfl

section Rules

variable {mayFail : Op → Prop} {inv : Disk × Seen → Prop} {s s' : Disk × Seen}

/-- An operation that only reads. -/
theorem wp_reads {o : Op} {Q : Except Exc (diskSig.Val o) → Disk × Seen → Prop}
    (hs : Untouched s s') (ho : ∀ j, o ≠ .writeJournal j)
    (heff : ∀ r s₁, s'.1.Effect o r s₁ → s₁ = s'.1)
    (hinv : ∀ s₁, Untouched s s₁ → inv s₁)
    (hQ : ∀ r s₁, Untouched s s₁ → s₁.1 = s'.1 → (s'.1.Effect o r s'.1 ∨ ∃ exc, r = .error exc) →
      Q r s₁) : wp (observed mayFail) (.keeping inv) () (perform o) Q s' := by
  refine wp_keeping_perform ?_
  rintro r ⟨d, g⟩ ⟨heffect | ⟨-, herror, rfl⟩, hnote⟩
  · obtain rfl := heff r d heffect
    have hsame : Untouched s (s'.1, g) :=
      ⟨hs.journal, hs.ledger, hs.canonical, by rw [hnote, txn_note ho, hs.txn]⟩
    exact ⟨hinv _ hsame, hQ r _ hsame rfl (Or.inl heffect)⟩
  · have hsame : Untouched s (s'.1, g) :=
      ⟨hs.journal, hs.ledger, hs.canonical, by rw [hnote, txn_note ho, hs.txn]⟩
    exact ⟨hinv _ hsame, hQ r _ hsame rfl (Or.inr herror)⟩

variable [Encoding]

/-- What a verified assessment says about the ledger. -/
def Assessment.Fresh (a : Assessment) (f : LedgerFile) : Prop :=
  a.verified = true → f.Intact ∧ ∀ bundle, a.bundleManifestSha256 = some bundle →
    bundle.1 ∉ f.bundles

/-- `_load_import_ledger` on any ledger. -/
theorem wp_loadImportLedger_any {Q : Except Exc (LedgerDoc × List String) → Disk × Seen → Prop}
    (hs : Untouched s s') (hinv : ∀ s₁, Untouched s s₁ → inv s₁)
    (hQ : ∀ s₁, Untouched s s₁ → s₁.1.ledger ≠ .notObject →
      Q (.ok (s₁.1.ledger.document, s₁.1.ledger.problems)) s₁)
    (herr : ∀ exc s₁, Untouched s s₁ → Q (.error exc) s₁) :
    wp (observed mayFail) (.keeping inv) () loadImportLedger Q s' := by
  refine wp_bind.mpr (wp_reads (o := .readLedger) hs (by simp) (fun r s₁ h => h.2) hinv ?_)
  rintro r s₁ hs₁ hd (⟨rfl, -⟩ | ⟨exc, rfl⟩)
  · rw [onOk_ok, ← hd]
    split
    · exact herr _ s₁ hs₁
    · rename_i hobj
      exact hQ s₁ hs₁ hobj
  · exact herr exc s₁ hs₁

omit [Encoding] in
theorem wp_semanticVerdict {problems : List String}
    {Q : Except Exc Verdict → Disk × Seen → Prop} (hs : Untouched s s')
    (hinv : ∀ s₁, Untouched s s₁ → inv s₁)
    (hQ : ∀ v s₁, Untouched s s₁ → Q (.ok v) s₁) :
    wp (observed mayFail) (.keeping inv) () (semanticVerdict problems) Q s' := by
  rw [semanticVerdict]
  split
  · refine wp_tryCatch.mpr (wp_reads (o := .semanticVerify) hs (by simp) (fun r s₁ h => h)
      hinv ?_)
    intro r s₁ hs₁ _ _
    cases r with
    | ok v => exact hQ v s₁ hs₁
    | error exc => exact hQ _ s₁ hs₁
  · exact hQ _ s' hs

/-- **The assessment** reads, and verifies no bundle the ledger has. -/
theorem wp_assess {staged : Staged} {Q : Except Exc Assessment → Disk × Seen → Prop}
    (hinv : ∀ s₁, Untouched s s₁ → inv s₁)
    (hQ : ∀ a s₁, Untouched s s₁ → a.Fresh s₁.1.ledger → Q (.ok a) s₁)
    (herr : ∀ exc s₁, Untouched s s₁ → Q (.error exc) s₁) :
    wp (observed mayFail) (.keeping inv) () (assess staged) Q s := by
  refine wp_bind.mpr (wp_reads (o := .loadStaged) (.refl s) (by simp) (fun r s₁ h => h.2)
    hinv ?_)
  rintro r s₁ hs₁ - (⟨⟨loaded, rfl⟩, -⟩ | ⟨exc, rfl⟩)
  swap
  · exact herr exc s₁ hs₁
  refine wp_bind.mpr (wp_loadImportLedger_any hs₁ hinv ?_ herr)
  intro s₂ hs₂ hobj
  rw [onOk_ok]
  simp only
  split
  · exact herr _ s₂ hs₂
  refine wp_bind.mpr (wp_semanticVerdict hs₂ hinv ?_)
  intro v s₃ hs₃
  refine hQ _ s₃ hs₃ ?_
  intro hverified
  have hledger : s₃.1.ledger = s₂.1.ledger := hs₃.ledger.trans hs₂.ledger.symm
  simp only [Bool.and_eq_true, decide_eq_true_eq, List.append_eq_nil_iff] at hverified
  obtain ⟨⟨⟨⟨-, hproblems⟩, hreplay⟩, -⟩, -⟩ := hverified
  rw [hledger]
  refine ⟨⟨hobj, hproblems⟩, ?_⟩
  intro bundle hbundle hmem
  simp only at hbundle
  rw [hbundle] at hreplay
  have hmem' : bundle.1 ∈ s₂.1.ledger.document.bundles := hmem
  simp [hmem'] at hreplay

/-! ## 2. The promoted tree -/

/-- The replacement is `built` so far, and nothing stands where the backup will go. -/
structure Building (bundle : String) (built : Tree) (s s' : Disk × Seen) : Prop where
  untouched : Untouched s s'
  backup : s'.1.dirs (backupDir bundle) = none
  replacement : s'.1.dirs (replacementDir bundle) = some built

omit [Encoding] in
theorem Building.put {bundle : String} {built : Tree} (h : Building bundle built s s')
    (built' : Tree) : Building bundle built' s
      (s'.1.setDir (replacementDir bundle) (some built'), s'.2) where
  untouched := h.untouched.setDir (replacementDir_ne_canonicalDir _) _
  backup := by rw [Disk.setDir_of_ne _ _ (replacementDir_ne_backupDir _ _).symm, h.backup]
  replacement := by simp

omit [Encoding] in
theorem wp_copyInto {bundle : String} {built : Tree} (path content : String)
    {Q : Except Exc Unit → Disk × Seen → Prop} (h : Building bundle built s s')
    (hinv : ∀ s₁, Untouched s s₁ → inv s₁)
    (hQ : ∀ s₁, Building bundle (built.insert path content) s s₁ → Q (.ok ()) s₁)
    (herr : ∀ exc s₁, Untouched s s₁ → Q (.error exc) s₁) :
    wp (observed mayFail) (.keeping inv) ()
      (perform (.copyInto (replacementDir bundle) path content)) Q s' := by
  have hput := h.put (built.insert path content)
  refine wp_mayFail (o := .copyInto (replacementDir bundle) path content) (v := ())
    (d := s'.1.setDir (replacementDir bundle) (some (built.insert path content))) ?_
    ⟨hinv _ hput.untouched, hQ _ hput⟩ ?_
  · rintro r s₁ ⟨rfl, rfl⟩
    rw [h.replacement]
    exact ⟨rfl, rfl⟩
  · intro _ exc
    have hsame : Untouched s (s'.1, Seen.note (.copyInto (replacementDir bundle) path content)
        s'.1 (.error exc) s'.2) :=
      ⟨h.untouched.journal, h.untouched.ledger, h.untouched.canonical,
        (txn_note (by simp) _ _ _).trans h.untouched.txn⟩
    exact ⟨hinv _ hsame, herr exc _ hsame⟩

omit [Encoding] in
theorem wp_copyFiles {staged : Staged} {bundle : String} (files : List String) {built : Tree}
    {Q : Except Exc Unit → Disk × Seen → Prop} (h : Building bundle built s s')
    (hinv : ∀ s₁, Untouched s s₁ → inv s₁)
    (hQ : ∀ s₁, Building bundle (overlay staged files built) s s₁ → Q (.ok ()) s₁)
    (herr : ∀ exc s₁, Untouched s s₁ → Q (.error exc) s₁) :
    wp (observed mayFail) (.keeping inv) ()
      (copyFiles staged (replacementDir bundle) files) Q s' := by
  induction files generalizing s' built with
  | nil => exact hQ s' h
  | cons rel rest ih =>
    rw [copyFiles]
    cases hfile : staged.files.lookup rel with
    | none => exact herr _ s' h.untouched
    | some content =>
      refine wp_bind.mpr (wp_copyInto _ _ h hinv (fun s₁ h₁ => ih h₁ fun s₂ h₂ => hQ s₂ ?_) herr)
      rw [overlay, List.foldl_cons, hfile]
      exact h₂

variable (hmay : ∀ o, mayFail o → TryStep o)

include hmay

omit [Encoding] in
/-- The replacement starts as a copy of the canonical tree, or empty. -/
theorem wp_seedReplacement {bundle : String} {Q : Except Exc Unit → Disk × Seen → Prop}
    (hs : Untouched s s') (hbackup : s'.1.dirs (backupDir bundle) = none)
    (hinv : ∀ s₁, Untouched s s₁ → inv s₁)
    (hQ : ∀ s₁, Building bundle ((s.1.dirs canonicalDir).getD ∅) s s₁ → Q (.ok ()) s₁) :
    wp (observed mayFail) (.keeping inv) () (seedReplacement (replacementDir bundle)) Q s' := by
  have hput : ∀ left, Untouched s (s'.1.setDir (replacementDir bundle) left, s'.2) :=
    fun left => hs.setDir (replacementDir_ne_canonicalDir _) left
  have hbuilt : ∀ built, Building bundle built s
      (s'.1.setDir (replacementDir bundle) (some built), s'.2) := by
    intro built
    refine ⟨hput _, ?_, by simp⟩
    rw [Disk.setDir_of_ne _ _ (replacementDir_ne_backupDir _ _).symm, hbackup]
  refine wp_bind.mpr (wp_dirExists hmay (hinv _ hs) ?_)
  cases hc : s'.1.dirs canonicalDir with
  | none =>
    refine wp_certain (o := .mkdir (replacementDir bundle)) (v := ())
      (d := s'.1.setDir (replacementDir bundle) (some ∅)) (hmay _) (fun r s₁ heff => heff)
      (hinv _ (hput _)) (hQ _ ?_)
    rw [← hs.canonical, hc]
    exact hbuilt ∅
  | some tree =>
    refine wp_bind.mpr (wp_keeping_perform ?_)
    rintro r ⟨d, g⟩ ⟨(⟨hnone, -, -⟩ | ⟨rfl, t, part, -, -, rfl⟩) | ⟨hfail, -, -⟩, hnote⟩
    · rw [hc] at hnone
      cases hnone
    swap
    · exact absurd (hmay _ hfail) id
    obtain rfl : g = s'.2 := hnote
    refine ⟨hinv _ (hput _), ?_⟩
    -- The second half of the copy puts the whole tree there.
    have hwhole : (s'.1.setDir (replacementDir bundle) (some part)).setDir (replacementDir bundle)
        ((s'.1.setDir (replacementDir bundle) (some part)).dirs canonicalDir) =
        s'.1.setDir (replacementDir bundle) (some tree) := by
      rw [Disk.setDir_of_ne _ _ (replacementDir_ne_canonicalDir _).symm, hc]
      simp [Disk.setDir]
    refine wp_certain (o := .copytreeRest canonicalDir (replacementDir bundle)) (v := ())
      (d := s'.1.setDir (replacementDir bundle) (some tree)) (hmay _)
      (fun r s₁ heff => ⟨heff.1, heff.2.trans hwhole⟩) (hinv _ (hput _)) (hQ _ ?_)
    rw [← hs.canonical, hc]
    exact hbuilt tree

/-- **Preparing** builds the promoted tree. -/
theorem wp_prepare {staged : Staged} {bundle : String} {files : List String}
    {transaction : PromotionTransaction} {Q : Except Exc Unit → Disk × Seen → Prop}
    (hs : Untouched s s') (hinv : ∀ s₁, Untouched s s₁ → inv s₁)
    (hQ : ∀ s₁, Building bundle
      (promotedTree staged files transaction (s.1.dirs canonicalDir)) s s₁ → Q (.ok ()) s₁)
    (herr : ∀ exc s₁, Untouched s s₁ → Q (.error exc) s₁) :
    wp (observed mayFail) (.keeping inv) () (prepare staged bundle files transaction) Q s' := by
  have hrep := fun left => hs.setDir (replacementDir_ne_canonicalDir bundle) left
  refine wp_bind.mpr (wp_rmtree hmay (hinv _ hs) (fun left => hinv _ (hrep left)) ?_)
  have hback := fun left => (hrep none).setDir (backupDir_ne_canonicalDir bundle) left
  refine wp_bind.mpr (wp_rmtree hmay (hinv _ (hrep none)) (fun left => hinv _ (hback left)) ?_)
  refine wp_bind.mpr (wp_seedReplacement hmay (hback none) (by simp) hinv ?_)
  intro s₁ h₁
  refine wp_bind.mpr (wp_copyFiles files h₁ hinv ?_ herr)
  intro s₂ h₂
  exact wp_copyInto _ _ h₂ hinv hQ herr

/-! ## 3. `promote`, once nothing is pending -/

/-- The transaction `t` was opened on the canonical tree of `s`, to put the promoted tree there. -/
structure Opened (staged : Staged) (s : Disk × Seen) (t : Txn) : Prop where
  pre : t.pre = s.1.dirs canonicalDir
  next : ∃ files transaction, t.next = promotedTree staged files transaction t.pre

theorem wp_promoteVerified {staged : Staged} {assessment : Assessment}
    {localGit : Option String} {recovery : Recovery}
    {Q : Except Exc Promoted → Disk × Seen → Prop} (hs : Untouched s s')
    (hfresh : assessment.Fresh s'.1.ledger) (hverified : assessment.verified = true)
    (hinv : ∀ s₁, Untouched s s₁ → inv s₁)
    (hwatch : ∀ x t, t.journal = x.journal "PREPARED" → Watch mayFail inv x t)
    (hraise : ∀ exc s₁, Untouched s s₁ → Q (.error exc) s₁)
    (hdone : ∀ res x t s₁, Opened staged s t → res.rolledBack.isSome → res.recovery = recovery →
      Settled mayFail x t s₁ res.promoted → Q (.ok res) s₁) :
    wp (observed mayFail) (.keeping inv) ()
      (promoteVerified staged assessment localGit recovery) Q s' := by
  obtain ⟨hintact, hnew⟩ := hfresh hverified
  rw [promoteVerified]
  cases hb : assessment.bundleManifestSha256 with
  | none => exact hraise _ s' hs
  | some bundle =>
    refine wp_bind.mpr (wp_prepare hmay hs hinv ?_ hraise)
    intro s₁ h₁
    refine wp_bind.mpr (wp_dirExists hmay (hinv _ h₁.untouched) ?_)
    refine wp_bind.mpr (wp_dirExists hmay (hinv _ h₁.untouched) ?_)
    refine wp_bind.mpr (wp_reads (o := .trustAnchor) h₁.untouched (by simp) (fun r s₁ h => h)
      hinv ?_)
    rintro r s₂ hs₂ hd -
    cases r with
    | error exc => exact hraise exc s₂ hs₂
    | ok anchor =>
      have hbackup : s₂.1.dirs (backupDir bundle.1) = none := by rw [hd, h₁.backup]
      have hrep : s₂.1.dirs (replacementDir bundle.1) = some (promotedTree staged
          assessment.canonicalEvidenceFiles ⟨localGit.getD "", bundle.1,
            assessment.canonicalEvidenceFiles, assessment.artifactClasses⟩
          (s.1.dirs canonicalDir)) := by
        rw [hd, h₁.replacement]
      have hledger : Logged bundle.1 false s₂.1.ledger := by
        rw [hs₂.ledger, ← hs.ledger]
        exact ⟨hintact, List.count_eq_zero.mpr (hnew bundle hb)⟩
      refine wp_run (t := ⟨_, s₂.1.dirs canonicalDir,
        (s₂.1.dirs (replacementDir bundle.1)).getD ∅⟩) hmay (hwatch _ _ rfl) ?_ ?_ rfl ?_ ?_
      · rw [hd]
      · exact ⟨rfl, rfl, rfl, rfl, hbackup, hledger⟩
      · rw [hrep]
        rfl
      · intro res s₃ hrolled hrecovery hsettled
        refine hdone res _ _ s₃ ⟨hs₂.canonical, ?_⟩ hrolled hrecovery hsettled
        refine ⟨assessment.canonicalEvidenceFiles, ⟨localGit.getD "", bundle.1,
          assessment.canonicalEvidenceFiles, assessment.artifactClasses⟩, ?_⟩
        simp only [hrep, hs₂.canonical, Option.getD_some]

/-- **`promote`, once nothing is pending.**  It is refused and leaves everything as it was, or it
opens a transaction on the tree it found, and that settles. -/
theorem wp_promoteRecovered {staged : Staged} {confirmSourceSha : String} {recovery : Recovery}
    {Q : Except Exc Promoted → Disk × Seen → Prop}
    (hinv : ∀ s₁, Untouched s s₁ → inv s₁)
    (hwatch : ∀ x t, t.journal = x.journal "PREPARED" → Watch mayFail inv x t)
    (hraise : ∀ exc s₁, Untouched s s₁ → Q (.error exc) s₁)
    (hrefused : ∀ res s₁, res.promoted = false → res.recovery = recovery → Untouched s s₁ →
      Q (.ok res) s₁)
    (hdone : ∀ res x t s₁, Opened staged s t → res.rolledBack.isSome → res.recovery = recovery →
      Settled mayFail x t s₁ res.promoted → Q (.ok res) s₁) :
    wp (observed mayFail) (.keeping inv) ()
      (promoteRecovered staged confirmSourceSha recovery) Q s := by
  refine wp_bind.mpr (wp_assess hinv ?_ hraise)
  intro a s₁ hs₁ hfresh
  refine wp_bind.mpr (wp_reads (o := .gitSha) hs₁ (by simp) (fun r s₁ h => h.2) hinv ?_)
  rintro r s₂ hs₂ hd (⟨⟨sha, rfl⟩, -⟩ | ⟨exc, rfl⟩)
  swap
  · exact hraise exc s₂ hs₂
  rw [onOk_ok]
  split
  · exact hrefused _ s₂ rfl rfl hs₂
  split
  · rename_i hverified
    rw [← hd] at hfresh
    exact wp_promoteVerified hmay hs₂ hfresh hverified hinv hwatch hraise hdone
  · exact hrefused _ s₂ rfl rfl hs₂

end Rules

end Kripto.Promotion
