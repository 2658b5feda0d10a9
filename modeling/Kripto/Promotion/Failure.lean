/-
# One step of the `try` block raises

`promote` has one `except` branch for every failure, and its comment says that a failed
transaction cannot become replay-authoritative.  That holds for all steps but two:

* if moving the canonical tree aside raises, the branch removes the canonical tree, and there is
  no backup to put in its place;
* if the last journal write raises, the bundle is in the ledger while the old tree comes back.

`failure_atomic_iff` says exactly this, for every call of `promote` that opens a transaction.
-/
import Kripto.Promotion.Prepare
import Kripto.Promotion.Script

namespace Kripto.Promotion

open Effect

/-! ## 1. The property -/

/-- **What a caller may conclude from the result** about the transaction `t`: not promoted, so
everything is as it was; promoted, so the promoted tree is there and the ledger has the bundle
once. -/
structure Promoted.Honest (res : Promoted) (t : Txn) (s : Disk) : Prop where
  refused : res.promoted = false →
    s.dirs canonicalDir = t.pre ∧ t.bundle ∉ s.ledger.bundles
  accepted : res.promoted = true →
    s.dirs canonicalDir = some t.next ∧ s.ledger.bundles.count t.bundle = 1

/-- The two steps: moving the canonical tree aside, and the journal write behind the append. -/
def Txn.Critical (t : Txn) (o : Op) : Prop :=
  o = .replace canonicalDir t.journal.backupRelpath ∨
    o = .writeJournal { t.journal with status := some "LEDGER_COMMITTED" }

/-! ## 2. Transactions that have settled -/

section Settled

variable [Encoding] {mayFail : Op → Prop} {x : Transaction} {t : Txn} {s : Disk × Seen}

theorem Closed.bundle_mem {c : Option Tree} {logged : Bool} {raised : List Op}
    (h : Closed x t c logged raised s) : t.bundle ∈ s.1.ledger.bundles ↔ logged = true := by
  rw [Txn.bundle, h.opened]
  exact h.ledger.mem_iff

omit [Encoding] in
theorem critical_iff (h : t.journal = x.journal "PREPARED") (o : Op) :
    t.Critical o ↔ o = x.firstStep ∨ o = x.lastStep := by
  rw [Txn.Critical, h]
  exact Iff.rfl

theorem Settled.txn {promoted : Bool} (h : Settled mayFail x t s promoted) :
    s.2.txn = some t := by
  cases h with
  | promoted h => rw [h.seen]
  | undone h => rw [h.seen]
  | lost may had h => rw [h.seen]
  | orphaned may h => rw [h.seen]

/-- **The four ways to settle.**  The result is honest unless one of the two steps raised. -/
theorem Settled.honest_iff {res : Promoted} (h : Settled mayFail x t s res.promoted) :
    res.Honest t s.1 ↔ ∀ o ∈ s.2.raised, ¬ t.Critical o := by
  generalize hp : res.promoted = p at h
  cases h with
  | promoted h =>
    constructor
    · intro _ o ho
      rw [h.seen] at ho
      cases ho
    · intro _
      refine ⟨fun hfalse => ?_, fun _ => ⟨h.canonical, ?_⟩⟩
      · rw [hp] at hfalse
        cases hfalse
      · rw [Txn.bundle, h.opened]
        exact h.ledger.2
  | undone h notFirst notLast =>
    constructor
    · intro _ o ho hcritical
      rcases (critical_iff h.opened o).mp hcritical with rfl | rfl
      · exact notFirst ho
      · exact notLast ho
    · intro _
      refine ⟨fun _ => ⟨h.canonical, ?_⟩, fun htrue => ?_⟩
      · rw [h.bundle_mem]
        simp
      · rw [hp] at htrue
        cases htrue
  | lost may had h =>
    constructor
    · intro honest
      have hpre : none = t.pre := h.canonical.symm.trans (honest.refused hp).1
      rw [← hpre] at had
      cases had
    · intro hall
      have hraised : x.firstStep ∈ s.2.raised := by
        rw [h.seen]
        exact List.mem_singleton_self _
      exact absurd ((critical_iff h.opened _).mpr (Or.inl rfl)) (hall _ hraised)
  | orphaned may h =>
    constructor
    · intro honest
      exact absurd (h.bundle_mem.mpr rfl) (honest.refused hp).2
    · intro hall
      have hraised : x.lastStep ∈ s.2.raised := by
        rw [h.seen]
        exact List.mem_singleton_self _
      exact absurd ((critical_iff h.opened _).mpr (Or.inr rfl)) (hall _ hraised)

end Settled

/-! ## 3. A call of `promote` -/

section Call

variable [Encoding] {staged : Staged} {confirmSourceSha : String} {s : Disk}

/-- No operation of a recovery opens a transaction. -/
def OpensNothing : Op → Prop
  | .writeJournal j => j.status ≠ some "PREPARED"
  | _ => True

omit [Encoding] in
theorem within_rmtree (dir : String) : (rmtree dir).Within OpensNothing :=
  (Prog.within_perform.mpr trivial).bind fun _ => Prog.within_perform.mpr trivial

omit [Encoding] in
theorem within_closeJournal {doc : Journal} (h : doc.status ≠ some "PREPARED") :
    (closeJournal doc).Within OpensNothing :=
  (Prog.within_perform.mpr h).bind fun _ => Prog.within_perform.mpr trivial

omit [Encoding] in
theorem within_undoSwap (look : Bool) (backup replacement : String)
    (lockCandidate : Option String) :
    (undoSwap look backup replacement lockCandidate).Within OpensNothing := by
  have hexists : ∀ (dir : String) (p : Prog diskSig Unit), p.Within OpensNothing →
      (perform (.dirExists dir) >>= fun found => if found then p else pure ()).Within
        OpensNothing := by
    intro dir p hp
    refine (Prog.within_perform.mpr trivial).bind fun found => ?_
    cases found with
    | true => exact hp
    | false => trivial
  refine (hexists _ _ (within_rmtree _)).bind fun _ => ?_
  have hrestore : (restore look backup).Within OpensNothing := by
    cases look with
    | true => exact hexists _ _ (Prog.within_perform.mpr trivial)
    | false => trivial
  refine hrestore.bind fun _ => (within_rmtree _).bind fun _ => ?_
  cases lockCandidate with
  | some dir => exact within_rmtree dir
  | none => trivial

theorem within_ledgerContainsBundle (bundle : String) :
    (ledgerContainsBundle bundle).Within OpensNothing := by
  refine Prog.Within.bind (Prog.Within.bind (Prog.within_perform.mpr trivial) fun file => ?_)
    fun loaded => ?_
  · split <;> trivial
  · split
    split <;> trivial

theorem within_recoverDocument (doc : Journal) :
    (recoverDocument doc).Within OpensNothing := by
  rw [recoverDocument]
  split
  · trivial
  split
  · exact (Prog.within_perform.mpr trivial).bind fun _ => trivial
  split
  · trivial
  split
  · trivial
  refine (within_ledgerContainsBundle _).bind fun has => ?_
  cases has with
  | true =>
    refine (within_rmtree _).bind fun _ => (within_rmtree _).bind fun _ => ?_
    exact (within_closeJournal (by simp)).bind fun _ => trivial
  | false =>
    refine Prog.Within.bind (Prog.Within.attempt ((within_undoSwap _ _ _ _).bind fun _ => ?_)) ?_
    · exact (within_closeJournal (by simp)).bind fun _ => trivial
    · intro r
      cases r <;> trivial

omit [Encoding] in
theorem txn_note_none {o : Op} (ho : OpensNothing o) {g : Seen} (hg : g.txn = none) (d : Disk)
    (r : diskSig.Ans o) : (Seen.note o d r g).txn = none := by
  cases r with
  | error exc => simp [Seen.note, hg]
  | ok v =>
    cases o with
    | writeJournal j =>
      rw [note_writeJournal ho]
      exact hg
    | _ => exact hg

/-- Its own recovery opens nothing, and does nothing without a journal. -/
theorem wp_recover_unopened :
    wp (observed TryStep) .free () recoverPendingTransaction
      (fun _ s' => s'.2.txn = none ∧ (s.journal = .absent → s'.1 = s)) (s, .nothing) := by
  by_cases hj : s.journal = .absent
  · refine wp_bind.mpr (wp_free_perform.mpr ?_)
    rintro r ⟨d, g⟩ ⟨⟨rfl, rfl⟩ | ⟨hfail, -, -⟩, hnote⟩
    · obtain rfl : g = .nothing := hnote
      rw [onOk_ok, hj]
      exact ⟨rfl, fun _ => rfl⟩
    · exact absurd hfail id
  · have hwithin : recoverPendingTransaction.Within OpensNothing := by
      refine (Prog.within_perform.mpr trivial).bind fun file => ?_
      cases file with
      | doc doc => exact within_recoverDocument doc
      | _ => trivial
    have hkeeps : wp (observed TryStep) .free () recoverPendingTransaction
        (fun _ s' => s'.2.txn = none) (s, .nothing) := by
      refine wp_within (A := OpensNothing) (P := fun s' : Disk × Seen => s'.2.txn = none)
        (Protocol.stable_alone _) ?_ hwithin rfl
      rintro o s₁ r s₂ ho hnone - ⟨-, hnote⟩
      refine ⟨trivial, trivial, ?_⟩
      rw [hnote]
      exact txn_note_none ho hnone _ _
    exact wp_mono (fun _ s' h => ⟨h, fun habsent => absurd habsent hj⟩) hkeeps

/-- **A failed promotion leaves things as they were, and only a done one reports success**, if and
only if neither of the two steps raised.  `t` is the transaction the call opened: on the tree that
was there, to put the promoted tree in its place. -/
theorem failure_atomic_iff {res : Promoted} {s' : Disk × Seen} {t : Txn}
    (h : Runs (observed TryStep) (promote staged confirmSourceSha) (s, .nothing) (.ok res) s')
    (ht : s'.2.txn = some t) :
    (s.journal = .absent → t.pre = s.dirs canonicalDir) ∧
      (∃ files transaction, t.next = promotedTree staged files transaction t.pre) ∧
      (res.Honest t s'.1 ↔ ∀ o ∈ s'.2.raised, ¬ t.Critical o) := by
  have hwp : wp (observed TryStep) .free () (promote staged confirmSourceSha)
      (fun r s' => ∀ res t, r = .ok res → s'.2.txn = some t →
        (s.journal = .absent → t.pre = s.dirs canonicalDir) ∧
        (∃ files transaction, t.next = promotedTree staged files transaction t.pre) ∧
        (res.Honest t s'.1 ↔ ∀ o ∈ s'.2.raised, ¬ t.Critical o)) (s, .nothing) := by
    refine wp_bind.mpr (wp_mono ?_ wp_recover_unopened)
    rintro r s₁ ⟨hnone, habsent⟩
    cases r with
    | error exc =>
      intro res t hr
      cases hr
    | ok recovery =>
      rw [onOk_ok]
      split
      · intro res t _ ht
        rw [hnone] at ht
        cases ht
      refine wp_promoteRecovered (fun _ h => h) (fun _ _ => trivial)
        (fun _ _ _ => ⟨fun _ _ => trivial, fun _ _ => trivial⟩) ?_ ?_ ?_
      · intro exc s₂ _ res t hr
        cases hr
      · intro res' s₂ _ _ hsame res t _ ht
        rw [hsame.txn, hnone] at ht
        cases ht
      · intro res' x t' s₂ hopened _ _ hsettled res t hr ht
        obtain rfl := Except.ok.inj hr
        rw [hsettled.txn] at ht
        obtain rfl := Option.some.inj ht
        refine ⟨fun hj => ?_, hopened.next, hsettled.honest_iff⟩
        rw [hopened.pre, habsent hj]
  exact h.of_wp hwp res t rfl ht

/-- The results of `promote` are honest, whichever step of the `try` block raises. -/
def FailureAtomic : Prop :=
  ∀ (staged : Staged) (confirmSourceSha : String) (s : Disk) (res : Promoted)
    (s' : Disk × Seen) (t : Txn),
    Runs (observed TryStep) (promote staged confirmSourceSha) (s, .nothing) (.ok res) s' →
    s'.2.txn = some t → res.Honest t s'.1

end Call

/-! ## 4. The step that moves the canonical tree aside raises -/

section Lost

attribute [local instance] evidenceEncoding

/-- Moving the canonical tree aside. -/
def movingAside : Op := .replace canonicalDir (backupDir evidenceDigest.1)

/-- The promotion on a disk with earlier evidence, on which that step raises. -/
def lostPromotion : Except Exc Promoted × Disk × Seen :=
  (promote stagedEvidence accepting.sha).play
    (venture (fun o => decide (o = movingAside)) accepting) (diskWithEvidence, .nothing)

theorem lostPromotion_runs : Runs (observed TryStep) (promote stagedEvidence accepting.sha)
    (diskWithEvidence, .nothing) lostPromotion.1 lostPromotion.2 := by
  refine runs_play (venture_picks ?_ accepting) _ _
  intro o ho
  rw [of_decide_eq_true ho]
  exact Or.inl ⟨_, rfl, rfl⟩

/-- What it comes to: nothing promoted, the transaction opened on the evidence, the one step
raised, the evidence gone. -/
theorem lostPromotion_outcome :
    lostPromotion.1.toOption.map (·.promoted) = some false ∧
      lostPromotion.2.2.txn.map (·.pre) = some (diskWithEvidence.dirs canonicalDir) ∧
      lostPromotion.2.2.raised = [movingAside] ∧
      lostPromotion.2.1.dirs canonicalDir = none := by
  decide

/-- It returns, having opened a transaction. -/
theorem lostPromotion_opened : ∃ res t, lostPromotion.1 = .ok res ∧ res.promoted = false ∧
    lostPromotion.2.2.txn = some t ∧ t.pre = diskWithEvidence.dirs canonicalDir := by
  obtain ⟨hres, htxn, -, -⟩ := lostPromotion_outcome
  obtain ⟨t, ht, hpre⟩ := Option.map_eq_some_iff.mp htxn
  cases h : lostPromotion.1 with
  | error exc =>
    rw [h] at hres
    cases hres
  | ok res =>
    rw [h] at hres
    exact ⟨res, t, rfl, Option.some.inj hres, ht, hpre⟩

/-- **The evidence is gone**, although the promotion reports that nothing was promoted. -/
theorem promotion_not_failure_atomic : ¬ FailureAtomic := by
  intro hatomic
  obtain ⟨res, t, hres, hpromoted, ht, hpre⟩ := lostPromotion_opened
  have hruns := lostPromotion_runs
  rw [hres] at hruns
  have honest := hatomic _ _ _ _ _ _ hruns ht
  obtain ⟨-, -, -, hlost⟩ := lostPromotion_outcome
  have hkept := (honest.refused hpromoted).1
  rw [hlost, hpre] at hkept
  cases hkept

theorem failure_atomic_iff_moving_aside : ∃ res t, lostPromotion.1 = .ok res ∧
    lostPromotion.2.2.raised = [movingAside] ∧
    (res.Honest t lostPromotion.2.1 ↔ ∀ o ∈ lostPromotion.2.2.raised, ¬ t.Critical o) := by
  obtain ⟨res, t, hres, -, ht, -⟩ := lostPromotion_opened
  have hruns := lostPromotion_runs
  rw [hres] at hruns
  exact ⟨res, t, hres, lostPromotion_outcome.2.2.1, (failure_atomic_iff hruns ht).2.2⟩

end Lost

end Kripto.Promotion
