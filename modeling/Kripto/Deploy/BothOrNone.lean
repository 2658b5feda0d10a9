/-
# Both lock files, or none

A transaction of `bootstrap` is over when its journal is gone: until then a recovery puts both
targets back, and it can be interrupted and repeated, because the backups are not touched by it.

* `both_or_none`: one `bootstrap` that ends in any way, and then any number of recoveries, cut
  short or failed anywhere; a recovery that is left alone returns, and both targets are what they
  were, or, once the commit has removed the journal, both are the candidates.

The invariant is `Safe`: without a journal the targets are right, and with one everything is
there to put them right (`Pending`).
-/
import Kripto.Deploy.DependencyLocks
import Kripto.Effect.Session

namespace Kripto.Deploy.DependencyLocks

open Effect Effect.Files

variable {C : Type}

/-! ## 1. The invariant -/

/-- What a target that held `previous` was. -/
def asFile (previous : Option C) : Option (Node C) := previous.map .file

/-- The places a rollback reads or restores. -/
def matters (t : ℕ) : Place → Bool
  | .target _ | .journal => true
  | .txDir t' | .backup t' _ => t' = t
  | _ => false

/-- **A transaction that can be rolled back**: the journal, the backups it needs, and targets
that are each the old or the new file. -/
structure Pending (t : ℕ) (pre : Key → Option C) (j : Journal C) (s : Disk C) : Prop where
  journal : s .journal = some (.journal j)
  contract : j.schemaVersion = "1.0" ∧ j.classification = "DEPENDENCY_LOCK_PROMOTION_TRANSACTION"
  dir : j.transactionDir = some t
  txDir : s (.txDir t) = some .directory
  before : ∀ k, j.before k = some (.of (pre k))
  backups : ∀ k c, pre k = some c → s (.backup t k) = some (.file c)
  targets : ∀ k, s (.target k) = asFile (pre k) ∨ s (.target k) = some (.file (j.candidates k))

section Pending

variable {t : ℕ} {pre : Key → Option C} {j : Journal C} {s s' : Disk C}

theorem Pending.congr (h : Pending t pre j s) (hs : ∀ p, matters t p = true → s' p = s p) :
    Pending t pre j s' where
  journal := by rw [hs _ rfl]; exact h.journal
  contract := h.contract
  dir := h.dir
  txDir := by rw [hs _ (by simp [matters])]; exact h.txDir
  before := h.before
  backups k c hc := by rw [hs _ (by simp [matters])]; exact h.backups k c hc
  targets k := by rw [hs _ rfl]; exact h.targets k

/-- A change at a place that does not matter. -/
theorem Pending.other (h : Pending t pre j s) {p : Place} (hp : matters t p = false)
    (hs : ∀ q, q ≠ p → s' q = s q) : Pending t pre j s' := by
  refine h.congr fun q hq => hs q ?_
  rintro rfl
  rw [hp] at hq
  exact nomatch hq

/-- A target is put back or replaced by its candidate. -/
theorem Pending.target (h : Pending t pre j s) {k : Key} {n : Option (Node C)}
    (hn : n = asFile (pre k) ∨ n = some (.file (j.candidates k))) :
    Pending t pre j (Store.set (F := lockFiles C) s (.target k) n) where
  journal := h.journal
  contract := h.contract
  dir := h.dir
  txDir := h.txDir
  before := h.before
  backups := h.backups
  targets k' := by
    by_cases hk : k' = k
    · subst hk
      rwa [Store.set_self (F := lockFiles C)]
    · have hne : Place.target k' ≠ .target k := fun he => hk (Place.target.inj he)
      rw [Store.set_of_ne (F := lockFiles C) s n hne]
      exact h.targets k'

/-- The status of the journal plays no part. -/
theorem Pending.status (h : Pending t pre j s) (status : String) :
    Pending t pre { j with status := status }
      (Store.set (F := lockFiles C) s .journal (some (.journal { j with status := status }))) where
  journal := Store.set_self ..
  contract := h.contract
  dir := h.dir
  txDir := h.txDir
  before := h.before
  backups := h.backups
  targets := h.targets

end Pending

/-- What the targets have to be in the end: what they were, unless a commit has gone through. -/
def expected (pre : Key → Option C) (committed : Option (Key → C)) (k : Key) : Option (Node C) :=
  match committed with
  | none => asFile (pre k)
  | some candidates => some (.file (candidates k))

inductive Safe (t : ℕ) (pre : Key → Option C) (s : Disk C × Option (Key → C)) : Prop
  | closed (journal : s.1 .journal = none) (targets : ∀ k, s.1 (.target k) = expected pre s.2 k)
  | pending (j : Journal C) (committed : s.2 = none) (h : Pending t pre j s.1)

/-! ## 2. Rolling back -/

section RollBack

variable {O : Observer (lockFiles C) (Option (Key → C))} {mayFail : Bool}
  {inv : Disk C × Option (Key → C) → Prop} {t : ℕ} {pre : Key → Option C} {j : Journal C}
  {s : Disk C} {g : Option (Key → C)}

/-- Only the removal of the journal by a commit can be noticed. -/
def OnlyCommits (O : Observer (lockFiles C) (Option (Key → C))) : Prop :=
  ∀ o, o ≠ .remove .journal false → O.Ignores o

namespace OnlyCommits

variable (hO : OnlyCommits O)

include hO

theorem look {p : Place} : O.Ignores (.look p) := hO _ nofun

theorem put {p : Place} {n : Node C} : O.Ignores (.put p n) := hO _ nofun

theorem create {p : Place} {n : Node C} : O.Ignores (.create p n) := hO _ nofun

theorem move {src dst : Place} : O.Ignores (.move src dst) := hO _ nofun

theorem removeOk {p : Place} : O.Ignores (.remove p true) := hO _ nofun

theorem spoil {part : Place → Bool} : O.Ignores (.spoil part) := hO _ nofun

theorem clear {part : Place → Bool} : O.Ignores (.clear part) := hO _ nofun

theorem ask {q : Ask} : O.Ignores (.ask q) := hO _ nofun

end OnlyCommits

/-- Here, and a rollback is still possible. -/
def Here (g : Option (Key → C)) (P : Disk C → Prop) (s : Disk C × Option (Key → C)) : Prop :=
  s.2 = g ∧ P s.1

theorem digest_file {p : Place} {c : C} (h : s p = some (.file c)) :
    (s p).bind Node.digest = some c := by rw [h]; rfl

theorem file_of_digest {n : Option (Node C)} {c : C} (h : n.bind Node.digest = some c) :
    n = some (.file c) := by
  rcases n with _ | c' | j' | _
  · exact nomatch h
  · obtain rfl : c' = c := Option.some.inj h
    rfl
  · exact nomatch h
  · exact nomatch h

/-- Where the targets in `ks` are back, the others as in `s`. -/
def Back (t : ℕ) (pre : Key → Option C) (j : Journal C) (k : Key) (s s' : Disk C) : Prop :=
  Pending t pre j s' ∧ s' (.target k) = asFile (pre k) ∧
    ∀ k', k' ≠ k → s' (.target k') = s (.target k')

variable (hO : OnlyCommits O) (hinv : ∀ s', Pending t pre j s' → inv (s', g))

include hO hinv

omit hinv in
theorem wp_digest {p : Place} {Q : Except Raised (Option C) → Disk C × Option (Key → C) → Prop}
    (hs : inv (s, g)) (hQ : Q (.ok ((s p).bind Node.digest)) (s, g))
    (hfail : mayFail = true → ∀ e, Q (.error e) (s, g)) :
    wp (handler O mayFail) (.keeping inv) () (digest p) Q (s, g) :=
  wp_bind.mpr (wp_look hO.look hs hQ hfail)

/-- `_restore_copy`. -/
theorem wp_restoreCopy (h : Pending t pre j s) {k : Key} {c : C} (hc : pre k = some c) :
    wp (handler O mayFail) (.keeping inv) () (restoreCopy (.backup t k) k)
      (ends mayFail (fun _ => Here g (Back t pre j k s)) (Here g (Pending t pre j))) (s, g) := by
  have hsaved : s (.backup t k) = some (.file c) := h.backups k c hc
  have hother : ∀ s' : Disk C, (∀ p, p ≠ .restoreTemp k → s' p = s p) → Pending t pre j s' :=
    fun s' hs' => h.other (p := .restoreTemp k) rfl hs'
  -- the temporary file is removed whatever has come before
  have hfin : ∀ (ok : Disk C → Prop) (s' : Disk C), Pending t pre j s' → ok s' →
      (∀ n, ok s' → ok (Store.set (F := lockFiles C) s' (.restoreTemp k) n)) →
      wp (handler O mayFail) (.keeping inv) () (remove (.restoreTemp k) true)
        (ends mayFail (fun _ => Here g fun s' => Pending t pre j s' ∧ ok s')
          (Here g (Pending t pre j))) (s', g) := by
    intro ok s' hs' hok hset
    refine wp_ignored hO.removeOk (hinv s' hs') ?_ fun hmay e => ⟨hmay, rfl, hs'⟩
    rintro r s'' (⟨-, rfl, rfl⟩ | ⟨hfalse, -⟩)
    · have hs'' := hs'.other (p := .restoreTemp k) rfl fun q hq =>
        Store.set_of_ne (F := lockFiles C) s' none hq
      exact ⟨hinv _ hs'', rfl, hs'', hset _ hok⟩
    · exact nomatch hfalse
  have hbody : wp (handler O mayFail) (.keeping inv) ()
      (do copy (F := lockFiles C) (.backup t k) (.restoreTemp k); move (.restoreTemp k) (.target k))
      (ends mayFail (fun _ => Here g (Back t pre j k s)) (Here g (Pending t pre j))) (s, g) := by
    have hne : Place.backup t k ≠ .restoreTemp k := nofun
    refine wp_bind.mpr (wp_copy hne (fun _ => hO.spoil) hO.look (fun _ => hO.put)
      (fun s' hs' => hinv s' (hother s' hs')) ?_ ?_)
    · intro s' hs' htemp _
      have hp : Pending t pre j s' := hother s' hs'
      have hcopied : s' (.restoreTemp k) = asFile (pre k) := by rw [htemp, hsaved, hc]; rfl
      refine wp_ignored hO.move (hinv s' hp) ?_ fun hmay e => ⟨hmay, rfl, hp⟩
      rintro r s'' (⟨-, rfl, rfl⟩ | ⟨hcannot, rfl, rfl⟩)
      · have hmoved : Pending t pre j
            (Store.moved (F := lockFiles C) s' (.restoreTemp k) (.target k)) :=
          Pending.target (hp.other (p := .restoreTemp k) rfl fun q hq =>
            Store.set_of_ne (F := lockFiles C) s' none hq) (.inl hcopied)
        refine ⟨hinv _ hmoved, rfl, hmoved, ?_, fun k' hk' => ?_⟩
        · exact (Store.moved_dst (F := lockFiles C) s' _ _).trans hcopied
        · have hsrc : Place.target k' ≠ .restoreTemp k := nofun
          have hdst : Place.target k' ≠ .target k := fun he => hk' (Place.target.inj he)
          exact (Store.moved_of_ne (F := lockFiles C) s' hsrc hdst).trans (hs' _ hsrc)
      · -- a target is no directory, and the copy is there
        refine absurd ⟨?_, ?_⟩ hcannot
        · rw [htemp, hsaved]
          rfl
        · intro n hn
          rcases hp.targets k with ht | ht
          · rw [ht, hc] at hn
            obtain rfl : Node.file c = n := Option.some.inj hn
            rfl
          · rw [ht] at hn
            obtain rfl : Node.file (j.candidates k) = n := Option.some.inj hn
            rfl
    · rintro e s' (hmay | hnone) hs'
      · exact ⟨hmay, rfl, hother s' hs'⟩
      · exact absurd (hnone.symm.trans hsaved) nofun
  refine wp_finally_ends hbody ?_ ?_
  · rintro - ⟨s', g'⟩ ⟨rfl, hs'⟩
    exact hfin (fun s' => s' (.target k) = asFile (pre k) ∧
      ∀ k', k' ≠ k → s' (.target k') = s (.target k')) s' hs'.1 hs'.2 fun _ h => h
  · rintro ⟨s', g'⟩ hmay ⟨rfl, hs'⟩
    refine wp_mono (fun r s'' hr => ?_) (hfin (fun _ => True) s' hs' trivial fun _ _ => trivial)
    cases r with
    | ok u => exact ⟨hr.1, hr.2.1⟩
    | error e => exact hr

variable [DecidableEq C]

/-- One target is put back, whatever it held. -/
theorem wp_restoreTarget (h : Pending t pre j s) (k : Key) :
    wp (handler O mayFail) (.keeping inv) () (restoreTarget t j k)
      (ends mayFail (fun _ => Here g (Back t pre j k s)) (Here g (Pending t pre j))) (s, g) := by
  unfold restoreTarget
  rw [h.before k]
  cases hc : pre k with
  | some c =>
    refine wp_bind.mpr (wp_digest hO (hinv s h) ?_ fun hmay e => ⟨hmay, rfl, h⟩)
    rw [onOk_ok, digest_file (h.backups k c hc), if_neg (by simp [Row.of])]
    exact wp_restoreCopy hO hinv h hc
  | none =>
    refine wp_bind.mpr (wp_look hO.look (hinv s h) ?_ fun hmay e => ⟨hmay, rfl, h⟩)
    have hfile : ¬((s (.target k)).isSome = true ∧ ((s (.target k)).bind Node.digest).isNone) := by
      rcases h.targets k with ht | ht
      · simp [ht, hc, asFile]
      · simp [ht, Node.digest]
    rw [onOk_ok, if_neg hfile]
    refine wp_ignored hO.removeOk (hinv s h) ?_ fun hmay e => ⟨hmay, rfl, h⟩
    rintro r s' (⟨-, rfl, rfl⟩ | ⟨hfalse, -⟩)
    · have hs' := h.target (k := k) (n := none) (.inl (by rw [hc]; rfl))
      refine ⟨hinv _ hs', rfl, hs', ?_, fun k' hk' => ?_⟩
      · rw [hc]
        exact Store.set_self (F := lockFiles C) s _ _
      · exact Store.set_of_ne (F := lockFiles C) s none fun he => hk' (Place.target.inj he)
    · exact nomatch hfalse

/-- A target that is back passes the check. -/
theorem wp_verifyTarget (h : Pending t pre j s) {k : Key} (hk : s (.target k) = asFile (pre k))
    {Q : Except Raised Unit → Disk C × Option (Key → C) → Prop} (hQ : Q (.ok ()) (s, g))
    (hfail : mayFail = true → ∀ e, Q (.error e) (s, g)) :
    wp (handler O mayFail) (.keeping inv) () (verifyTarget j k) Q (s, g) := by
  unfold verifyTarget
  rw [h.before k]
  cases hc : pre k with
  | some c =>
    refine wp_bind.mpr (wp_digest hO (hinv s h) ?_ hfail)
    rw [hc] at hk
    rw [onOk_ok, digest_file hk, if_neg (by simp [Row.of])]
    exact hQ
  | none =>
    refine wp_bind.mpr (wp_look hO.look (hinv s h) ?_ hfail)
    rw [hc] at hk
    rw [onOk_ok, hk, if_neg (by simp [asFile])]
    exact hQ

/-- **A rollback puts both targets back**, from wherever the transaction was; cut short, it can
be started again. -/
theorem wp_restorePreTransactionState (h : Pending t pre j s) :
    wp (handler O mayFail) (.keeping inv) () (restorePreTransactionState t j)
      (ends mayFail
        (fun _ => Here g fun s' => Pending t pre j s' ∧ ∀ k, s' (.target k) = asFile (pre k))
        (Here g (Pending t pre j))) (s, g) := by
  have hboth : wp (handler O mayFail) (.keeping inv) () (forTargets (restoreTarget t j))
      (ends mayFail
        (fun _ => Here g fun s' => Pending t pre j s' ∧ ∀ k, s' (.target k) = asFile (pre k))
        (Here g (Pending t pre j))) (s, g) := by
    refine wp_then (wp_restoreTarget hO hinv h .uv) ?_
    rintro - ⟨s₁, g'⟩ ⟨rfl, hs₁, huv, -⟩
    refine wp_mono (fun r s₂ hr => ?_) (wp_restoreTarget hO hinv hs₁ .npm)
    cases r with
    | error e => exact hr
    | ok u =>
      obtain ⟨hg, hs₂, hnpm, hsame⟩ := hr
      refine ⟨hg, hs₂, fun k => ?_⟩
      cases k with
      | uv => rw [hsame .uv nofun, huv]
      | npm => exact hnpm
  refine wp_then hboth ?_
  rintro - ⟨s₁, g'⟩ ⟨rfl, hs₁, hback⟩
  refine wp_bind.mpr (wp_verifyTarget hO hinv hs₁ (hback .uv) ?_ fun hmay e => ⟨hmay, rfl, hs₁⟩)
  exact wp_verifyTarget hO hinv hs₁ (hback .npm) ⟨rfl, hs₁, hback⟩
    fun hmay e => ⟨hmay, rfl, hs₁⟩

end RollBack

/-! ## 3. Recovery -/

section Recover

variable {mayFail : Bool} {t : ℕ} {pre : Key → Option C} {s : Disk C} {g : Option (Key → C)}

/-- Without a journal, and with the targets as they have to be. -/
def Settled (pre : Key → Option C) (s : Disk C × Option (Key → C)) : Prop :=
  s.1 .journal = none ∧ ∀ k, s.1 (.target k) = expected pre s.2 k

theorem Settled.safe {s : Disk C × Option (Key → C)} (h : Settled pre s) : Safe t pre s :=
  .closed h.1 h.2

/-- What is left of the transaction's directory is of no interest. -/
theorem wp_rmtree_settled {O : Observer (lockFiles C) (Option (Key → C))} (hO : OnlyCommits O)
    (h : Settled pre (s, g)) :
    wp (handler O mayFail) (.keeping (Safe t pre)) () (rmtree (F := lockFiles C) (inTxDir t))
      (ends mayFail (fun _ s' => Settled pre s' ∧ s'.2 = g) fun s' => Settled pre s' ∧ s'.2 = g)
      (s, g) := by
  have hsettled : ∀ s' : Disk C, (∀ p, inTxDir t p = false → s' p = s p) →
      Settled pre (s', g) :=
    fun s' hs' => ⟨(hs' _ rfl).trans h.1, fun k => (hs' _ rfl).trans (h.2 k)⟩
  exact wp_rmtree hO.spoil hO.clear (fun s' hs' => (hsettled s' hs').safe) fun s' hs' =>
    ⟨⟨hsettled s' hs', rfl⟩, fun hmay e => ⟨hmay, hsettled s' hs', rfl⟩⟩

theorem onlyCommits_blind : OnlyCommits (Observer.blind : Observer (lockFiles C) _) :=
  fun _ _ => Observer.blind_ignores _

variable [DecidableEq C]

/-- **A recovery settles what it finds**, and is itself safe to interrupt. -/
theorem wp_recover {s : Disk C × Option (Key → C)} (h : Safe t pre s) :
    wp (handler .blind mayFail) (.keeping (Safe t pre)) () recoverIncompleteTransaction
      (ends mayFail (fun _ s' => Settled pre s' ∧ s'.2 = s.2) (Safe t pre)) s := by
  obtain ⟨s, g⟩ := s
  have hO : OnlyCommits (Observer.blind : Observer (lockFiles C) _) := onlyCommits_blind
  refine wp_bind.mpr (wp_look hO.look h ?_ fun hmay e => ⟨hmay, h⟩)
  rw [onOk_ok]
  cases h with
  | closed hjournal htargets =>
    have hj : s .journal = none := hjournal
    rw [hj]
    exact ⟨⟨hjournal, htargets⟩, rfl⟩
  | pending j hg h =>
    obtain rfl : g = none := hg
    have hsafe : ∀ s', Pending t pre j s' → Safe t pre (s', none) := fun s' h => .pending j rfl h
    have hj : s .journal = some (.journal j) := h.journal
    rw [hj]
    simp only [h.contract.1, h.contract.2, ne_eq, not_true_eq_false, or_self, if_false, h.dir]
    refine wp_bind.mpr (wp_bind.mpr (wp_look hO.look (hsafe s h) ?_
      fun hmay e => ⟨hmay, hsafe s h⟩))
    have htx : s (.txDir t) = some .directory := h.txDir
    rw [onOk_ok, htx]
    refine wp_bind.mpr (wp_mono (fun r s₁ hr => ?_)
      (wp_restorePreTransactionState (g := none) hO hsafe h))
    obtain ⟨s₁, g₁⟩ := s₁
    cases r with
    | error e => exact ⟨hr.1, by rw [show g₁ = none from hr.2.1]; exact hsafe s₁ hr.2.2⟩
    | ok u =>
      obtain ⟨rfl, hs₁, hback⟩ := hr
      refine wp_bind.mpr (wp_ignored (Observer.blind_ignores _) (hsafe s₁ hs₁) ?_
        fun hmay e => ⟨hmay, hsafe s₁ hs₁⟩)
      rintro r s₂ (⟨-, rfl, rfl⟩ | ⟨-, hnone, -⟩)
      · have hsettled : Settled pre
            (Store.set (F := lockFiles C) s₁ .journal none, (none : Option (Key → C))) :=
          ⟨Store.set_self (F := lockFiles C) s₁ .journal none, hback⟩
        refine ⟨hsettled.safe, wp_bind.mpr (wp_mono (fun r s₃ hr => ?_)
          (wp_rmtree_settled hO hsettled))⟩
        cases r with
        | ok u => exact hr
        | error e => exact ⟨hr.1, hr.2.1.safe⟩
      · exact absurd (hnone.symm.trans hs₁.journal) (by simp)

end Recover

/-! ## 4. A transaction -/

section Transaction

variable {mayFail : Bool} {t : ℕ} {pre : Key → Option C} {j : Journal C} {s : Disk C}

/-- The commit is the removal of the journal; it makes the candidates what the targets have to
be. -/
def commits : Observer (lockFiles C) (Option (Key → C)) where
  note
    | .remove .journal false, s, .ok _, g =>
      match s .journal with
      | some (.journal j) => some j.candidates
      | _ => g
    | _, _, _, g => g
  note_error o s e g := by
    cases o with
    | remove p missingOk => cases p <;> cases missingOk <;> rfl
    | _ => rfl

theorem onlyCommits_commits : OnlyCommits (commits : Observer (lockFiles C) _) := by
  intro o ho s r g
  cases o with
  | remove p missingOk =>
    cases p with
    | journal =>
      cases missingOk with
      | false => exact absurd rfl ho
      | true => rfl
    | _ => rfl
  | _ => rfl

/-- Nothing has happened to the targets yet, and the transaction has its directory. -/
structure Begun (t : ℕ) (pre : Key → Option C) (ks : List Key) (s : Disk C) : Prop where
  journal : s .journal = none
  targets : ∀ k, s (.target k) = asFile (pre k)
  txDir : s (.txDir t) = some .directory
  backups : ∀ k ∈ ks, ∀ c, pre k = some c → s (.backup t k) = some (.file c)

theorem Begun.safe {ks : List Key} (h : Begun t pre ks s) : Safe t pre (s, none) :=
  .closed h.journal h.targets

theorem Begun.congr {ks : List Key} {s' : Disk C} (h : Begun t pre ks s)
    (hs : ∀ p, matters t p = true → (∀ k, k ∉ ks → p ≠ .backup t k) → s' p = s p) :
    Begun t pre ks s' where
  journal := (hs .journal rfl fun _ _ => nofun).trans h.journal
  targets k := (hs (.target k) rfl fun _ _ => nofun).trans (h.targets k)
  txDir := (hs (.txDir t) (by simp [matters]) fun _ _ => nofun).trans h.txDir
  backups k hk c hc := by
    rw [hs _ (by simp [matters]) fun k' hk' he => hk' ((Place.backup.inj he).2 ▸ hk)]
    exact h.backups k hk c hc

/-- With its journal written, the transaction can be rolled back. -/
theorem Begun.pending {ks : List Key} (h : Begun t pre ks s) (hks : ∀ k, k ∈ ks)
    (hcontract : j.schemaVersion = "1.0" ∧
      j.classification = "DEPENDENCY_LOCK_PROMOTION_TRANSACTION")
    (hdir : j.transactionDir = some t) (hbefore : ∀ k, j.before k = some (.of (pre k))) :
    Pending t pre j (Store.set (F := lockFiles C) s .journal (some (.journal j))) where
  journal := Store.set_self (F := lockFiles C) s _ _
  contract := hcontract
  dir := hdir
  txDir := h.txDir
  before := hbefore
  backups k c hc := h.backups k (hks k) c hc
  targets k := .inl (h.targets k)

/-- Reading while nothing has happened yet. -/
theorem wp_digest_begun {ks : List Key} (h : Begun t pre ks s) {p : Place}
    {Q : Except Raised (Option C) → Disk C × Option (Key → C) → Prop}
    (hQ : Q (.ok ((s p).bind Node.digest)) (s, none))
    (hfail : mayFail = true → ∀ e, Q (.error e) (s, none)) :
    wp (handler commits mayFail) (.keeping (Safe t pre)) () (digest p) Q (s, none) :=
  wp_digest onlyCommits_commits h.safe hQ hfail

theorem wp_resolveAll (h : Begun t pre [] s) :
    wp (handler commits mayFail) (.keeping (Safe t pre)) () (resolveAll t)
      (fun _ => Here none (Begun t pre [])) (s, none) := by
  have hO : OnlyCommits (commits : Observer (lockFiles C) _) := onlyCommits_commits
  have hask : ∀ {k : Key} {s₁ : Disk C}, Begun t pre [] s₁ → ∀ {Q : _ → _ → Prop},
      (∀ r, Q r (s₁, none)) → wp (handler commits mayFail) (.keeping (Safe t pre)) ()
        (Files.perform (F := lockFiles C) (.ask (.resolve k))) Q (s₁, none) := by
    exact fun hs₁ _ hQ => wp_ask hO.ask hs₁.safe (fun a => hQ (.ok a)) fun _ e => hQ (.error e)
  refine wp_bind.mpr (wp_ignored hO.spoil h.safe ?_ fun _ _ => ⟨rfl, h⟩)
  rintro r s₁ ⟨rfl, hs₁⟩
  have h₁ : Begun t pre [] s₁ := by
    refine h.congr fun p hp _ => hs₁ p ?_
    cases p <;> simp_all [matters, isResolved]
  refine ⟨h₁.safe, wp_bind.mpr (hask h₁ fun r => ?_)⟩
  rcases r with e | uvOk
  · exact ⟨rfl, h₁⟩
  refine wp_bind.mpr (wp_digest_begun h₁ ?_ fun _ _ => ⟨rfl, h₁⟩)
  refine wp_bind.mpr (hask h₁ fun r => ?_)
  rcases r with e | npmOk
  · exact ⟨rfl, h₁⟩
  exact wp_bind.mpr (wp_digest_begun h₁ ⟨rfl, h₁⟩ fun _ _ => ⟨rfl, h₁⟩)

theorem wp_stage {ks : List Key} (h : Begun t pre ks s) (k : Key)
    {Q : Except Raised C → Disk C × Option (Key → C) → Prop}
    (hok : ∀ c s', Begun t pre ks s' → Q (.ok c) (s', none))
    (hbad : ∀ e s', Begun t pre ks s' → Q (.error e) (s', none)) :
    wp (handler commits mayFail) (.keeping (Safe t pre)) () (stage t k) Q (s, none) := by
  have hO : OnlyCommits (commits : Observer (lockFiles C) _) := onlyCommits_commits
  have hcopy : ∀ s' : Disk C, (∀ p, p ≠ .candidate t k → s' p = s p) → Begun t pre ks s' := by
    refine fun s' hs' => h.congr fun p hp _ => hs' p ?_
    rintro rfl
    exact absurd hp (by simp [matters])
  have hne : Place.resolved t k ≠ .candidate t k := nofun
  refine wp_bind.mpr (wp_copy hne (fun _ => hO.spoil) hO.look (fun _ => hO.put)
    (fun s' hs' => (hcopy s' hs').safe) ?_ fun e s' _ hs' => hbad e s' (hcopy s' hs'))
  intro s' hs' _ _
  have h' : Begun t pre ks s' := hcopy s' hs'
  refine wp_bind.mpr (wp_digest_begun h' ?_ fun _ e => hbad e s' h')
  rw [onOk_ok]
  split
  · exact hok _ s' h'
  · exact hbad _ s' h'

/-- Somewhere in the commit: a transaction that can be rolled back, with some status. -/
def Committing (t : ℕ) (pre : Key → Option C) (j : Journal C) (s : Disk C) : Prop :=
  ∃ status, Pending t pre { j with status := status } s

theorem Committing.safe (h : Committing t pre j s) : Safe t pre (s, none) :=
  .pending _ rfl h.choose_spec

/-- The removal of the journal is the commit. -/
theorem wp_removeJournal (h : Committing t pre j s)
    (htargets : ∀ k, s (.target k) = some (.file (j.candidates k)))
    {Q : Except Raised Unit → Disk C × Option (Key → C) → Prop}
    (hok : ∀ s', Settled pre s' → s'.2.isSome = true → Q (.ok ()) s')
    (hbad : ∀ e, Q (.error e) (s, none)) :
    wp (handler commits mayFail) (.keeping (Safe t pre)) () (remove .journal false) Q
      (s, none) := by
  have hjournal : s .journal = _ := h.choose_spec.journal
  refine wp_op h.safe ?_ fun _ e => hbad e
  rintro r s' (⟨-, rfl, rfl⟩ | ⟨-, hnone, -⟩)
  · have hnoted : commits.note (.remove .journal false) s (.ok ()) none = some j.candidates := by
      simp [commits, hjournal]
    have hsettled : Settled pre
        (Store.set (F := lockFiles C) s .journal none, some j.candidates) :=
      ⟨Store.set_self (F := lockFiles C) s .journal none, htargets⟩
    rw [← hnoted] at hsettled
    exact ⟨hsettled.safe, hok _ hsettled (by rw [hnoted]; rfl)⟩
  · exact absurd (hnone.symm.trans hjournal) nofun

/-- What is done with the transaction's directory in the end. -/
theorem wp_discard {s : Disk C × Option (Key → C)} (h : Safe t pre s) :
    wp (handler commits mayFail) (.keeping (Safe t pre)) () (do
      let found ← look .journal
      if found.isNone then rmtree (F := lockFiles C) (inTxDir t)) (fun _ => Safe t pre) s := by
  obtain ⟨s, g⟩ := s
  have hO : OnlyCommits (commits : Observer (lockFiles C) _) := onlyCommits_commits
  refine wp_bind.mpr (wp_look hO.look h ?_ fun _ _ => h)
  rw [onOk_ok]
  split
  · rename_i hnone
    have hsettled : Settled pre (s, g) := by
      cases h with
      | closed hjournal htargets => exact ⟨hjournal, htargets⟩
      | pending j _ h =>
        have hj : s .journal = some (.journal j) := h.journal
        rw [hj] at hnone
        cases hnone
    refine wp_mono ?_ (wp_rmtree_settled hO hsettled)
    rintro (e | u) s' hr
    · exact hr.2.1.safe
    · exact hr.1.safe
  · exact h

variable [DecidableEq C]

/-- A verified backup is a backup. -/
theorem wp_backUp {ks : List Key} (h : Begun t pre ks s) {k : Key} (hk : k ∉ ks)
    {Q : Except Raised Unit → Disk C × Option (Key → C) → Prop}
    (hok : ∀ s', Begun t pre (k :: ks) s' → Q (.ok ()) (s', none))
    (hbad : ∀ e s', Begun t pre ks s' → Q (.error e) (s', none)) :
    wp (handler commits mayFail) (.keeping (Safe t pre)) () (backUp t pre k) Q (s, none) := by
  have hO : OnlyCommits (commits : Observer (lockFiles C) _) := onlyCommits_commits
  have hcons : ∀ s', Begun t pre ks s' → (∀ c, pre k = some c → s' (.backup t k) = some (.file c)) →
      Begun t pre (k :: ks) s' := by
    refine fun s' h' hsaved => ⟨h'.journal, h'.targets, h'.txDir, fun k' hk' c hc => ?_⟩
    rcases List.mem_cons.mp hk' with rfl | hk'
    · exact hsaved c hc
    · exact h'.backups k' hk' c hc
  unfold backUp
  cases hc : pre k with
  | none => exact hok s (hcons s h fun c hc' => nomatch hc.symm.trans hc')
  | some previous =>
    have hcopy : ∀ s' : Disk C, (∀ p, p ≠ .backup t k → s' p = s p) → Begun t pre ks s' :=
      fun s' hs' => h.congr fun p _ hp => hs' p (hp k hk)
    have hne : Place.target k ≠ .backup t k := nofun
    refine wp_bind.mpr (wp_copy hne (fun _ => hO.spoil) hO.look (fun _ => hO.put)
      (fun s' hs' => (hcopy s' hs').safe) ?_ fun e s' _ hs' => hbad e s' (hcopy s' hs'))
    intro s' hs' _ _
    have h' : Begun t pre ks s' := hcopy s' hs'
    refine wp_bind.mpr (wp_digest_begun h' ?_ fun _ e => hbad e s' h')
    rw [onOk_ok]
    split
    · exact hbad _ s' h'
    rename_i hsaved
    refine hok s' (hcons s' h' fun c hc' => ?_)
    obtain rfl : previous = c := Option.some.inj (hc.symm.trans hc')
    exact file_of_digest (not_not.mp hsaved)

/-- **The journal is written when the transaction can be rolled back.** -/
theorem wp_prepareTransaction (h : Begun t pre [] s)
    {Q : Except Raised (Journal C) → Disk C × Option (Key → C) → Prop}
    (hok : ∀ j s', Pending t pre j s' → Q (.ok j) (s', none))
    (hbad : ∀ e s', Safe t pre (s', none) → Q (.error e) (s', none)) :
    wp (handler commits mayFail) (.keeping (Safe t pre)) () (prepareTransaction t pre) Q
      (s, none) := by
  refine wp_bind.mpr (wp_backUp h List.not_mem_nil (fun s₁ h₁ => ?_)
    fun e s' h' => hbad e s' h'.safe)
  refine wp_bind.mpr (wp_stage h₁ .uv (fun uv s₂ h₂ => ?_) fun e s' h' => hbad e s' h'.safe)
  refine wp_bind.mpr (wp_backUp h₂ (by decide) (fun s₃ h₃ => ?_) fun e s' h' => hbad e s' h'.safe)
  refine wp_bind.mpr (wp_stage h₃ .npm (fun npm s₄ h₄ => ?_) fun e s' h' => hbad e s' h'.safe)
  refine wp_bind.mpr (wp_ignored onlyCommits_commits.put h₄.safe ?_ fun _ e => hbad e s₄ h₄.safe)
  rintro r s₅ ⟨rfl, rfl⟩
  have hboth : ∀ k : Key, k ∈ [Key.npm, Key.uv] := fun k => by cases k <;> decide
  exact ⟨.pending _ rfl (h₄.pending hboth ⟨rfl, rfl⟩ rfl fun _ => rfl),
    hok _ _ (h₄.pending hboth ⟨rfl, rfl⟩ rfl fun _ => rfl)⟩

/-- One candidate takes the place of its target. -/
theorem wp_promoteTarget (h : Committing t pre j s) (k : Key) :
    wp (handler commits mayFail) (.keeping (Safe t pre)) () (promoteTarget t j k)
      (fun _ => Here none (Committing t pre j)) (s, none) := by
  have hO : OnlyCommits (commits : Observer (lockFiles C) _) := onlyCommits_commits
  refine wp_bind.mpr (wp_digest hO h.safe ?_ fun _ _ => ⟨rfl, h⟩)
  rw [onOk_ok]
  split
  · exact ⟨rfl, h⟩
  rename_i hstaged
  have hcandidate : s (.candidate t k) = some (.file (j.candidates k)) :=
    file_of_digest (not_not.mp hstaged)
  refine wp_bind.mpr (wp_ignored hO.move h.safe ?_ fun _ _ => ⟨rfl, h⟩)
  rintro r s₁ (⟨-, rfl, rfl⟩ | ⟨-, rfl, rfl⟩)
  · obtain ⟨status, h⟩ := h
    have hmoved : Pending t pre { j with status := status }
        (Store.moved (F := lockFiles C) s (.candidate t k) (.target k)) :=
      Pending.target (h.other (p := .candidate t k) rfl fun q hq =>
        Store.set_of_ne (F := lockFiles C) s none hq) (.inr hcandidate)
    refine ⟨.pending _ rfl hmoved, wp_ignored hO.put (.pending _ rfl hmoved) ?_
      fun _ _ => ⟨rfl, _, hmoved⟩⟩
    rintro r s₂ ⟨rfl, rfl⟩
    exact ⟨.pending _ rfl (hmoved.status _), rfl, _, hmoved.status _⟩
  · exact ⟨h.safe, rfl, h⟩

/-- A target that passes the check is the candidate. -/
theorem wp_checkPromoted (h : Committing t pre j s) (k : Key)
    {Q : Except Raised Unit → Disk C × Option (Key → C) → Prop}
    (hok : s (.target k) = some (.file (j.candidates k)) → Q (.ok ()) (s, none))
    (hbad : ∀ e, Q (.error e) (s, none)) :
    wp (handler commits mayFail) (.keeping (Safe t pre)) () (checkPromoted j k) Q (s, none) := by
  refine wp_bind.mpr (wp_digest onlyCommits_commits h.safe ?_ fun _ e => hbad e)
  rw [onOk_ok]
  split
  · exact hbad _
  · rename_i hnow
    exact hok (file_of_digest (not_not.mp hnow))

/-- **A commit that returns has settled on the candidates**; one that fails can be rolled
back. -/
theorem wp_commitTransaction (h : Pending t pre j s)
    {Q : Except Raised Unit → Disk C × Option (Key → C) → Prop}
    (hok : ∀ s', Settled pre s' → s'.2.isSome = true → Q (.ok ()) s')
    (hbad : ∀ e s', Committing t pre j s' → Q (.error e) (s', none)) :
    wp (handler commits mayFail) (.keeping (Safe t pre)) () (commitTransaction t j) Q
      (s, none) := by
  have hO : OnlyCommits (commits : Observer (lockFiles C) _) := onlyCommits_commits
  have hstart : Committing t pre j s := ⟨j.status, h⟩
  refine wp_bind.mpr (wp_bind.mpr (wp_mono ?_ (wp_promoteTarget hstart .uv)))
  rintro (e | u) ⟨s₁, g⟩ ⟨rfl, h₁⟩
  · exact hbad e s₁ h₁
  refine wp_mono ?_ (wp_promoteTarget h₁ .npm)
  rintro (e | u) ⟨s₂, g⟩ ⟨rfl, h₂⟩
  · exact hbad e s₂ h₂
  refine wp_bind.mpr (wp_bind.mpr (wp_checkPromoted h₂ .uv (fun huv => ?_)
    fun e => hbad e s₂ h₂))
  refine wp_checkPromoted h₂ .npm (fun hnpm => ?_) fun e => hbad e s₂ h₂
  have htargets : ∀ k, s₂ (.target k) = some (.file (j.candidates k)) := fun k => by
    cases k with
    | uv => exact huv
    | npm => exact hnpm
  refine wp_bind.mpr (wp_ignored hO.put h₂.safe ?_ fun _ e => hbad e s₂ h₂)
  rintro r s₃ ⟨rfl, rfl⟩
  have h₃ := h₂.choose_spec.status "VERIFIED_BOTH"
  exact ⟨.pending _ rfl h₃, wp_removeJournal ⟨_, h₃⟩ htargets hok fun e => hbad e _ ⟨_, h₃⟩⟩

/-- A failed commit is rolled back, or it leaves its journal. -/
theorem wp_commitOrRollBack (h : Pending t pre j s)
    {Q : Except Raised Unit → Disk C × Option (Key → C) → Prop}
    (hok : ∀ s', Settled pre s' → s'.2.isSome = true → Q (.ok ()) s')
    (hbad : ∀ e s', Safe t pre s' → Q (.error e) s') :
    wp (handler commits mayFail) (.keeping (Safe t pre)) () (commitOrRollBack t j) Q (s, none) := by
  have hO : OnlyCommits (commits : Observer (lockFiles C) _) := onlyCommits_commits
  refine wp_exceptException (wp_commitTransaction h (fun s' hs' hsome => ?_) fun e s' hs' => ?_)
  · exact ⟨fun _ _ => hok s' hs' hsome, nofun⟩
  refine ⟨nofun, ?_⟩
  rintro e' ⟨⟩
  refine ⟨hbad e _ hs'.safe, ?_⟩
  obtain ⟨status, hs'⟩ := hs'
  have hsafe : ∀ s', Pending t pre { j with status := status } s' → Safe t pre (s', none) :=
    fun s' h => .pending _ rfl h
  have hraise : ∀ s', Safe t pre s' →
      wp (handler commits mayFail) (.keeping (Safe t pre)) () (.raise e) Q s' := fun s' h =>
    hbad e s' h
  refine wp_bind.mpr (wp_exceptException (wp_bind.mpr (wp_mono ?_
    (wp_restorePreTransactionState (g := none) hO hsafe hs'))))
  rintro (e' | u) ⟨s₁, g⟩ hr
  · obtain ⟨-, hg, h₁⟩ := hr
    obtain rfl : g = none := hg
    refine ⟨nofun, ?_⟩
    rintro e'' ⟨⟩
    exact ⟨hbad _ _ (hsafe s₁ h₁), hraise _ (hsafe s₁ h₁)⟩
  obtain ⟨rfl, h₁, hback⟩ := hr
  refine wp_ignored hO.removeOk (hsafe s₁ h₁) ?_ fun _ e' => ⟨nofun, ?_⟩
  · rintro r s₂ (⟨-, rfl, rfl⟩ | ⟨hfalse, -⟩)
    · have hsettled : Settled pre
          (Store.set (F := lockFiles C) s₁ .journal none, (none : Option (Key → C))) :=
        ⟨Store.set_self (F := lockFiles C) s₁ .journal none, hback⟩
      refine ⟨hsettled.safe, fun _ _ => hraise _ hsettled.safe, nofun⟩
    · exact nomatch hfalse
  · rintro e'' ⟨⟩
    exact ⟨hbad _ _ (hsafe s₁ h₁), hraise _ (hsafe s₁ h₁)⟩

theorem wp_promote (h : Begun t pre [] s) :
    wp (handler commits mayFail) (.keeping (Safe t pre)) () (promote t pre) (fun _ => Safe t pre)
      (s, none) := by
  refine wp_bind.mpr (wp_mono ?_ (wp_resolveAll h))
  rintro (e | allOk) ⟨s₁, g⟩ ⟨rfl, h₁⟩
  · exact h₁.safe
  rw [onOk_ok]
  split
  · refine wp_bind.mpr (wp_prepareTransaction h₁ (fun j s₂ h₂ => ?_) fun _ _ h' => h')
    exact wp_bind.mpr (wp_commitOrRollBack h₂ (fun s' hs' _ => hs'.safe) fun _ _ h' => h')
  · exact h₁.safe

/-- **A bootstrap is safe to interrupt anywhere**, and safe when it ends. -/
theorem wp_bootstrap (hjournal : s .journal = none)
    (htargets : ∀ k, s (.target k) = asFile (pre k)) :
    wp (handler commits mayFail) (.keeping (Safe t pre)) () (bootstrap t) (fun _ => Safe t pre)
      (s, none) := by
  have hO : OnlyCommits (commits : Observer (lockFiles C) _) := onlyCommits_commits
  have hsafe : Safe t pre (s, none) := .closed hjournal htargets
  have hread : ∀ k, (s (.target k)).bind Node.digest = pre k := fun k => by
    rw [htargets k]
    cases pre k <;> rfl
  refine wp_bind.mpr (wp_bind.mpr (wp_look hO.look hsafe ?_ fun _ _ => hsafe))
  rw [onOk_ok, hjournal]
  refine wp_bind.mpr (wp_digest hO hsafe ?_ fun _ _ => hsafe)
  rw [onOk_ok, hread]
  refine wp_bind.mpr (wp_digest hO hsafe ?_ fun _ _ => hsafe)
  have hbefore : Key.pick (pre .uv) (pre .npm) = pre := by
    funext k
    cases k <;> rfl
  rw [onOk_ok, hread, hbefore]
  refine wp_bind.mpr (wp_ignored hO.create hsafe ?_ fun _ _ => hsafe)
  rintro r s₁ (⟨-, rfl, rfl⟩ | ⟨-, rfl, rfl⟩)
  · have hbegun : Begun t pre []
        (Store.set (F := lockFiles C) s (.txDir t) (some .directory)) :=
      ⟨hjournal, htargets, Store.set_self (F := lockFiles C) s (.txDir t) _, nofun⟩
    exact ⟨hbegun.safe, wp_bind_pure (wp_finally_kept (wp_promote hbegun) fun _ => wp_discard)⟩
  · exact ⟨hsafe, hsafe⟩

end Transaction

/-! ## 5. Crashes and recoveries -/

inductive Call
  | bootstrap (t : ℕ)
  | recover

inductive Outcome
  | finished (res : Result)
  | recovered (res : Recovery)

section Histories

variable [DecidableEq C]

/-- Calls one after the other, on the same disk, each of which may fail or be cut short. -/
def crashing : Session.System (sig (lockFiles C)) (Disk C × Option (Key → C)) Outcome Call Empty
    where
  body := fun
    | .bootstrap t => bootstrap t >>= fun res => pure (.finished res)
    | .recover => recoverIncompleteTransaction >>= fun res => pure (.recovered res)
  handler := fun
    | .bootstrap _ => handler commits true
    | .recover => handler .blind true
  lose := fun _ s => s
  idle := fun _ _ _ => False

/-- Nothing goes wrong in the call. -/
abbrev undisturbed : Handler (sig (lockFiles C)) (Disk C × Option (Key → C)) :=
  handler .blind false

/-- The call of an event. -/
def callOf : Event (sig (lockFiles C)) Outcome Call Empty → Call
  | .done k _ | .crashed k => k

variable {t : ℕ} {pre : Key → Option C}

/-- Recoveries keep to what is safe, however they end. -/
theorem safe_of_recoveries {s s₁ : Disk C × Option (Key → C)}
    {tr : List (Event (sig (lockFiles C)) Outcome Call Empty)} (h : Session crashing s tr s₁)
    (hrecover : ∀ e ∈ tr, callOf e = .recover) (hs : Safe t pre s) :
    Safe t pre s₁ ∧ s₁.2 = s.2 := by
  have hwp : ∀ {s : Disk C × Option (Key → C)}, Safe t pre s →
      wp (crashing.handler .recover) (.keeping (Safe t pre)) () (crashing.body .recover)
        (fun _ _ => True) s := fun hs =>
    wp_bind_pure (wp_mono (fun _ _ _ => trivial) (wp_recover hs))
  induction h with
  | nil => exact ⟨hs, rfl⟩
  | done k r hr _ ih =>
    obtain rfl : k = .recover := hrecover _ (.head _)
    obtain ⟨hsafe, hseen⟩ := ih (fun e he => hrecover e (.tail _ he)) (wp_runs hr (hwp hs) hs).1
    exact ⟨hsafe, hseen.trans (seen_of_blind hr)⟩
  | crashed k p he _ ih =>
    obtain rfl : k = .recover := hrecover _ (.head _)
    obtain ⟨hsafe, hseen⟩ := ih (fun e he => hrecover e (.tail _ he)) (wp_exec he (hwp hs) hs).1
    exact ⟨hsafe, hseen.trans (seen_of_blind he)⟩
  | idle l => exact l.elim

/-- **Both or none.**  After one `bootstrap`, which may have returned, raised or been cut short
anywhere, and after any number of recoveries with the same freedom, a recovery that nothing goes
wrong with returns, and the targets are what they were, unless the journal has been removed by
the commit: then they are the candidates it verified. -/
theorem both_or_none {s : Disk C} {s₁ : Disk C × Option (Key → C)}
    {e : Event (sig (lockFiles C)) Outcome Call Empty}
    {tr : List (Event (sig (lockFiles C)) Outcome Call Empty)}
    (hjournal : s .journal = none) (htargets : ∀ k, s (.target k) = asFile (pre k))
    (h : Session crashing (s, none) (e :: tr) s₁) (hbootstrap : callOf e = .bootstrap t)
    (hrecover : ∀ e ∈ tr, callOf e = .recover) :
    (∃ r s₂, Runs undisturbed recoverIncompleteTransaction s₁ r s₂) ∧
    ∀ r s₂, Runs undisturbed recoverIncompleteTransaction s₁ r s₂ →
      (∃ res, r = .ok res) ∧ s₂.1 .journal = none ∧
        ∀ k, s₂.1 (.target k) = expected pre s₁.2 k := by
  have hwp : wp (crashing.handler (.bootstrap t)) (.keeping (Safe t pre)) ()
      (crashing.body (.bootstrap t)) (fun _ => Safe t pre) (s, none) :=
    wp_bind_pure (wp_bootstrap hjournal htargets)
  have hstart : Safe t pre (s, none) := .closed hjournal htargets
  have hs₁ : Safe t pre s₁ := by
    cases h with
    | done k r hr hrest =>
      obtain rfl : k = .bootstrap t := hbootstrap
      exact (safe_of_recoveries hrest hrecover (wp_runs hr hwp hstart).1).1
    | crashed k p he hrest =>
      obtain rfl : k = .bootstrap t := hbootstrap
      exact (safe_of_recoveries hrest hrecover (wp_exec he hwp hstart).1).1
    | idle l => exact l.elim
  refine ⟨exists_runs (fun _ => ⟨true⟩) _ _, fun r s₂ hr => ?_⟩
  obtain ⟨-, -, hends⟩ := wp_runs hr (wp_recover hs₁) hs₁
  cases r with
  | ok res => exact ⟨⟨res, rfl⟩, hends.1.1, fun k => hends.2 ▸ hends.1.2 k⟩
  | error e => exact absurd hends.1 nofun

end Histories

/-! ## 6. An interrupted promotion -/

section Interrupted

/-- There is a `uv.lock`, and no `package-lock.json` yet. -/
def oldLocks : Key → Option ℕ := Key.pick (some 1) none

def diskBefore : Disk ℕ
  | .target k => asFile (oldLocks k)
  | _ => none

/-- Both resolvers are successful. -/
def resolving : Outside (lockFiles ℕ) where
  answer _ _ := true
  leaves := fun
    | .resolved _ k => some (.file (Key.pick 10 20 k))
    | _ => none
  fails _ _ := none

/-- A bootstrap that is killed when the first of the new files is in its place. -/
def halfPromoted : Disk ℕ × Option (Key → ℕ) :=
  (((crashing (C := ℕ)).body (.bootstrap 7)).playFor (resolving.script commits) 24
    (diskBefore, none)).2

/-- The recovery puts the old file back. -/
theorem both_or_none_halfPromoted :
    halfPromoted.1 (.target .uv) = some (.file 10) ∧ halfPromoted.1 (.target .npm) = none ∧
    (∃ r s₂, Runs undisturbed recoverIncompleteTransaction halfPromoted r s₂) ∧
    ∀ r s₂, Runs undisturbed recoverIncompleteTransaction halfPromoted r s₂ →
      (∃ res, r = .ok res) ∧ s₂.1 .journal = none ∧
        ∀ k, s₂.1 (.target k) = asFile (oldLocks k) :=
  ⟨rfl, rfl, both_or_none (s := diskBefore) (e := .crashed (.bootstrap 7)) rfl (fun _ => rfl)
    (.crashed _ _ (exec_playFor (script_picks (e := resolving) (.inr fun _ _ => rfl)) 24 _ _)
      (.nil _)) rfl nofun⟩

end Interrupted

end Kripto.Deploy.DependencyLocks
