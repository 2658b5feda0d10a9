/-
# How far a rollback is atomic

`rollback_atomic`: a call that raises has left both directories as they were, if nothing failed
while one of them was away from its place, other than the second rename.  A call that is cut short
leaves a release for the next recovery, exactly if the active directory is not moved away at that
moment.

`rollback_halfway`: without these conditions it is not.  An append to the chain that is refused, or
a crash between the two renames, is enough.
-/
import Kripto.Deploy.ReleaseRollback
import Kripto.Effect.Play

namespace Kripto.Deploy.ReleaseUpdate

open Effect Effect.Files

variable {T : Type}

/-! ## 1. What can go wrong -/

def BothThere (t : ℕ) (s : Disk T) : Prop :=
  (s .active).isSome = true ∧ (s (.backup t)).isSome = true

/-- The failures that are made up for: those of the rename that is taken back then, and what
`rmtree` lets pass. -/
def tolerated : Op (releases T) → Raised → Bool
  | .move (.backup _) .active, _ => true
  | .spoil _, e | .clear _, e => !(releases T).interrupts e
  | _, _ => false

def looksAtChain : Op (releases T) → Bool
  | .look .audit => true
  | _ => false

/-- **The condition on the steps of a rollback.**  Nothing fails while one of the two directories
is away, but for what is tolerated; and the event can be added to the chain. -/
def Harmless (t : ℕ) (o : (sig (releases T)).Op) (s : Disk T × Bool) :
    (sig (releases T)).Ans o → Prop
  | .error e => tolerated o e = true ∨ BothThere t s.1
  | .ok _ => looksAtChain o = true → audit.Ready s.1

/-- The operations whose failures are not made up for. -/
def Critical (o : Op (releases T)) : Prop := ∀ e, tolerated o e = false

section Conditions

variable {t u : ℕ} {r : RollbackReceipt T} {pre rollback : Dir T} {s : Disk T}

theorem Away.not_bothThere (h : Away t u r pre rollback s) : ¬BothThere t s := by
  intro hboth
  have hactive := hboth.1
  rw [h.active] at hactive
  exact nomatch hactive

theorem Swapped.not_bothThere (h : Swapped t u r pre rollback s) : ¬BothThere t s := by
  intro hboth
  have hbackup := hboth.2
  rw [h.backup] at hbackup
  exact nomatch hbackup

theorem not_harmless (o : Op (releases T)) (s : Disk T × Bool) (e : Raised) (ho : Critical o)
    (h : ¬BothThere t s.1) : ¬Harmless t o s (.error e) := by
  rintro (htolerated | hboth)
  · exact nomatch (ho e).symm.trans htolerated
  · exact h hboth

end Conditions

instance (s : Disk T) : Decidable (audit.Ready s) :=
  inferInstanceAs (Decidable (∃ a ∈ audit.chain s, a.verified = true ∧ a.last = none))

instance (t : ℕ) (s : Disk T) : Decidable (BothThere t s) := inferInstanceAs (Decidable (_ ∧ _))

instance Harmless.decidable (t : ℕ) (o : (sig (releases T)).Op) (s : Disk T × Bool) :
    ∀ r, Decidable (Harmless t o s r)
  | .error e => inferInstanceAs (Decidable (tolerated o e = true ∨ BothThere t s.1))
  | .ok _ => inferInstanceAs (Decidable (looksAtChain o = true → audit.Ready s.1))

/-! ## 2. The cutover -/

section Cutover

variable {mayFail : Bool} {t u : ℕ} {r : RollbackReceipt T} {pre rollback : Dir T} {s : Disk T}
  {inv : Disk T × Bool → Prop}
  {cond : (o : (sig (releases T)).Op) → Disk T × Bool → (sig (releases T)).Ans o → Prop}
  {Q : Except Raised Unit → Disk T × Bool → Prop}

/-- The invariant holds wherever the directories are. -/
structure Everywhere (t u : ℕ) (r : RollbackReceipt T) (pre rollback : Dir T)
    (inv : Disk T × Bool → Prop) : Prop where
  home : ∀ s, Home t r pre rollback s → inv (s, false)
  away : ∀ s, Away t u r pre rollback s → inv (s, true)
  swapped : ∀ s, Swapped t u r pre rollback s → inv (s, false)

/-- The two renames.  If only the second fails, both directories are where they were. -/
theorem wp_swapIn_back (hinv : Everywhere t u r pre rollback inv) (h : Home t r pre rollback s)
    (hok : ∀ s', Swapped t u r pre rollback s' → Q (.ok ()) (s', false))
    (hback : ∀ e s', Home t r pre rollback s' → Q (.error e) (s', false))
    (hlost : ∀ e s', Away t u r pre rollback s' →
      cond (.move (.failed u) .active) (s', true) (.error e) → Q (.error e) (s', true)) :
    wp ((handler renames mayFail).meeting cond) (.keeping inv) ()
      (swapIn (.backup t) (.failed u)) Q (s, false) := by
  refine wp_bind.mpr (wp_move_meeting (hinv.home s h) (fun _ => ?_) fun _ e _ => hback e s h)
  have h₁ := h.leave (u := u)
  generalize Store.moved (F := releases T) s .active (.failed u) = s₁ at h₁ ⊢
  refine ⟨hinv.away s₁ h₁, wp_tryCatch.mpr (wp_move_meeting (hinv.away s₁ h₁)
    (fun _ => ⟨hinv.swapped _ h₁.enter, hok _ h₁.enter⟩) fun _ e _ => ?_)⟩
  refine wp_bind.mpr (wp_move_meeting (hinv.away s₁ h₁)
    (fun _ => ⟨hinv.home _ h₁.undo, hback e _ h₁.undo⟩) fun hwhy e' hfailed => ?_)
  exact hlost e' s₁ h₁ hfailed

/-- The renames of a release that was not accepted. -/
theorem wp_revertRollback (hinv : Everywhere t u r pre rollback inv)
    (h : Swapped t u r pre rollback s)
    (hback : ∀ e s', Home t r pre rollback s' → Q (.error e) (s', false))
    (hkept : ∀ e, cond (.move .active (.backup t)) (s, false) (.error e) →
      Q (.error e) (s, false))
    (hlost : ∀ e s', Away t u r pre rollback s' →
      cond (.move (.failed u) .active) (s', true) (.error e) → Q (.error e) (s', true)) :
    wp ((handler renames mayFail).meeting cond) (.keeping inv) () (revertRollback t u) Q
      (s, false) := by
  refine wp_bind.mpr (wp_move_meeting (hinv.swapped s h) (fun _ => ?_)
    fun _ e hfailed => hkept e hfailed)
  have h₁ := h.leave
  generalize Store.moved (F := releases T) s .active (.backup t) = s₁ at h₁ ⊢
  refine ⟨hinv.away s₁ h₁, wp_bind.mpr (wp_move_meeting (hinv.away s₁ h₁) (fun _ => ?_)
    fun _ e hfailed => hlost e s₁ h₁ hfailed)⟩
  have h₂ := h₁.undo
  refine ⟨hinv.home _ h₂, wp_bind.mpr (wp_meeting
    (wp_reading (within_validateActive (reading_look _)) (hinv.home _ h₂) fun x => ?_))⟩
  rcases x with e | v
  · exact hback e _ h₂
  · exact hback _ _ h₂

end Cutover

/-! ## 3. Where nothing harmful happens -/

section Harmless

variable {mayFail : Bool} {t u : ℕ} {r : RollbackReceipt T} {pre rollback : Dir T} {s s' : Disk T}

/-- The places a rollback relies on. -/
def held (t u : ℕ) : Place → Prop
  | .active | .journal => True
  | .backup b | .rollbackReceipt b => b = t
  | .failed v => v = u
  | _ => False

theorem Swapped.congr (h : Swapped t u r pre rollback s) (hs : ∀ p, held t u p → s' p = s p) :
    Swapped t u r pre rollback s' where
  journal := (hs .journal trivial).trans h.journal
  receipt := (hs (.rollbackReceipt t) rfl).trans h.receipt
  active := (hs .active trivial).trans h.active
  backup := (hs (.backup t) rfl).trans h.backup
  failed := (hs (.failed u) rfl).trans h.failed

theorem Swapped.set (h : Swapped t u r pre rollback s) {p : Place} (hp : ¬held t u p)
    (n : Option (Node T)) :
    Swapped t u r pre rollback (Store.set (F := releases T) s p n) := by
  refine h.congr fun q hq => Store.set_of_ne (F := releases T) s n ?_
  rintro rfl
  exact hp hq

/-- What is neither at home nor back at home. -/
abbrev Displaced (t : ℕ) (s : Disk T × Bool) : Prop := ¬BothThere t s.1

theorem wp_runPostCutoverAcceptance_harmless (h : Swapped t u r pre rollback s)
    {Q : Except Raised Bool → Disk T × Bool → Prop} (hQ : ∀ accepted, Q (.ok accepted) (s, false)) :
    wp ((handler renames mayFail).meeting (Harmless t)) (.keeping fun _ => True) ()
      runPostCutoverAcceptance Q (s, false) := by
  have hdisplaced : Displaced t (s, false) := h.not_bothThere
  refine wp_unfailing not_harmless
    (within_runPostCutoverAcceptance (fun _ => rfl) fun _ _ => rfl) hdisplaced (wp_meeting ?_)
  refine wp_bind.mpr (wp_directory (renames_ignores nofun) hdisplaced (fun d _ => ?_) ?_)
  · exact wp_ask (renames_ignores nofun) hdisplaced (fun accepted => hQ accepted) nofun
  · rintro (hmay | hnone)
    · exact nomatch hmay
    · exact absurd h.active (hnone rollback)

theorem wp_acceptRollback_harmless {k : RollbackCall}
    (h : Swapped t k.failed r pre rollback s) {Q : Except Raised Unit → Disk T × Bool → Prop}
    (hok : Q (.ok ()) (s, false))
    (hback : ∀ e s', Home t r pre rollback s' → Q (.error e) (s', false)) :
    wp ((handler renames mayFail).meeting (Harmless t)) (.keeping fun _ => True) ()
      (acceptRollback t k) Q (s, false) := by
  unfold acceptRollback
  split
  case isFalse => exact hok
  refine wp_bind.mpr (wp_runPostCutoverAcceptance_harmless h fun accepted => ?_)
  rw [onOk_ok]
  split
  · exact hok
  refine wp_revertRollback ⟨fun _ _ => trivial, fun _ _ => trivial, fun _ _ => trivial⟩ h hback
    ?_ ?_
  · exact fun e hfailed => absurd hfailed (not_harmless _ _ e (fun _ => rfl) h.not_bothThere)
  · exact fun e s' h' hfailed => absurd hfailed (not_harmless _ _ e (fun _ => rfl) h'.not_bothThere)

theorem wp_writeRollbackAcceptanceReceipt (h : Swapped t u r pre rollback s) {v : ℕ}
    (hbackup : r.backup = t) {Q : Except Raised (RollbackAcceptance T) → Disk T × Bool → Prop}
    (hQ : ∀ acceptance s', Swapped t u r pre rollback s' → Q (.ok acceptance) (s', false)) :
    wp (handler renames false) (.keeping (Displaced t)) () (writeRollbackAcceptanceReceipt v r) Q
      (s, false) := by
  have hdisplaced : Displaced t (s, false) := h.not_bothThere
  refine wp_bind.mpr (wp_bind.mpr (wp_directory (renames_ignores nofun) hdisplaced
    (fun d _ => ?_) ?_))
  case refine_2 =>
    rintro (hmay | hnone)
    · exact nomatch hmay
    · exact absurd h.active (hnone rollback)
  refine wp_bind.mpr (wp_bind.mpr (wp_look (renames_ignores nofun) hdisplaced ?_ nofun))
  rw [onOk_ok, hbackup, h.receipt]
  have hput := h.set (p := .rollbackAcceptance v) id
    (some (.rollbackAcceptance ⟨r.acceptanceDigest, r, d.tree⟩))
  exact wp_bind.mpr (wp_put (renames_ignores nofun) hdisplaced
    ⟨hput.not_bothThere, hQ _ _ hput⟩ nofun)

variable [DecidableEq T]

/-- The event is added to the chain. -/
theorem wp_appendEvent_harmless (h : Swapped t u r pre rollback s) (e : Event T)
    {Q : Except Raised Unit → Disk T × Bool → Prop}
    (hQ : ∀ s', Swapped t u r pre rollback s' → Q (.ok ()) (s', false)) :
    wp ((handler renames false).meeting (Harmless t)) (.keeping (Displaced t)) ()
      (audit.appendEvent e) Q (s, false) := by
  have hdisplaced : Displaced t (s, false) := h.not_bothThere
  by_cases hready : audit.Ready s
  case neg =>
    refine wp_bind.mpr (wp_bind.mpr (wp_look_meeting hdisplaced (fun hcond => ?_) nofun))
    exact absurd (hcond rfl) hready
  refine wp_meeting (audit.wp_appendEvent (renames_ignores (o := .look .audit) nofun)
    (fun n => renames_ignores (o := .put .audit n) nofun) e hdisplaced ?_ ?_ ?_ ?_)
  · exact fun a a' _ _ => (h.set (p := .audit) id _).not_bothThere
  · exact fun a _ _ => hQ _ (h.set (p := .audit) id _)
  · rintro exc (hmay | hnot)
    · exact nomatch hmay
    · exact absurd hready hnot
  · rintro exc a a' (hmay | hnot)
    · exact nomatch hmay
    · exact absurd hready hnot

theorem wp_recordRollback_harmless (h : Swapped t u r pre rollback s) {v : ℕ}
    (hbackup : r.backup = t) {Q : Except Raised Unit → Disk T × Bool → Prop}
    (hQ : ∀ s', Swapped t u r pre rollback s' → Q (.ok ()) (s', false)) :
    wp ((handler renames mayFail).meeting (Harmless t)) (.keeping fun _ => True) ()
      (recordRollback v r) Q (s, false) := by
  have hdisplaced : Displaced t (s, false) := h.not_bothThere
  have hfound : ∀ {s' : Disk T} {P : Prop}, Swapped t u r pre rollback s' →
      false = true ∨ (∀ d, s' .active ≠ some (.dir d)) → P := by
    rintro s' P h' (hmay | hnone)
    · exact nomatch hmay
    · exact absurd h'.active (hnone rollback)
  refine wp_unfailing not_harmless (within_recordRollback (fun _ _ => rfl) (fun _ _ => rfl)
    (fun _ _ => rfl) r) hdisplaced ?_
  refine wp_bind.mpr (wp_meeting (wp_bind.mpr (wp_directory (renames_ignores nofun) hdisplaced
    (fun d _ => ?_) fun hwhy e => hfound h hwhy)))
  refine wp_bind.mpr (wp_meeting (wp_writeRollbackAcceptanceReceipt h hbackup
    fun acceptance s₁ h₁ => ?_))
  have hdisplaced₁ : Displaced t (s₁, false) := h₁.not_bothThere
  refine wp_bind.mpr (wp_meeting (wp_bind.mpr (wp_directory (renames_ignores nofun) hdisplaced₁
    (fun d _ => ?_) fun hwhy e => hfound h₁ hwhy)))
  exact wp_appendEvent_harmless h₁ _ hQ

omit [DecidableEq T] in
theorem wp_removeReceipts_harmless (h : s (.backup t) = none) {b : ℕ}
    {Q : Except Raised Unit → Disk T × Bool → Prop} (hQ : ∀ s', Q (.ok ()) s') :
    wp ((handler renames mayFail).meeting (Harmless t)) (.keeping fun _ => True) ()
      (removeReceipts b r) Q (s, false) := by
  have hgone : ∀ {s' : Disk T}, s' (.backup t) = none → ¬BothThere t s' := by
    intro s' hs' hboth
    have hbackup := hboth.2
    rw [hs'] at hbackup
    cases hbackup
  have hwithin : (removeReceipts b r).Within Critical :=
    within_removeReceipts (fun _ _ => rfl) (fun _ _ => rfl) b r
  refine wp_unfailing (P := fun s' : Disk T × Bool => s'.1 (.backup t) = none)
    (fun o s' e ho hs' => not_harmless o s' e ho (hgone hs')) hwithin h (wp_meeting ?_)
  have hset : ∀ (s' : Disk T) {p : Place}, p ≠ .backup t → s' (.backup t) = none →
      Store.set (F := releases T) s' p none (.backup t) = none := by
    intro s' p hp hs'
    exact (Store.set_of_ne (F := releases T) s' none hp.symm).trans hs'
  have h₁ := hset s (p := .rollbackReceipt b) (by simp) h
  refine wp_bind.mpr (wp_removeOk (renames_ignores (by simp)) h ⟨h₁, ?_⟩ (by simp))
  rw [onOk_ok]
  split
  · rename_i a _
    have h₂ := hset _ (p := .acceptance a) (by simp) h₁
    exact wp_removeOk (renames_ignores (by simp)) h₁ ⟨h₂, hQ _⟩ (by simp)
  · exact hQ _

/-- **A cutover in which nothing harmful happens** comes to its end, or both directories are back in
their places. -/
theorem wp_cutBack_harmless {k : RollbackCall} (h : Home t r pre rollback s)
    (hbackup : r.backup = t) :
    wp ((handler renames mayFail).meeting (Harmless t)) (.keeping fun _ => True) ()
      (cutBack t r k) (fun x s' => ∀ e, x = .error e → InPlace t pre rollback s'.1)
      (s, false) := by
  have hback : ∀ (e : Raised) (s' : Disk T), Home t r pre rollback s' →
      ∀ e', (Except.error e : Except Raised Unit) = .error e' → InPlace t pre rollback s' :=
    fun _ _ h' _ _ => h'.inPlace
  refine wp_bind.mpr (wp_swapIn_back ⟨fun _ _ => trivial, fun _ _ => trivial, fun _ _ => trivial⟩ h
    (fun s₁ h₁ => ?_) hback fun e s' h' hfailed => ?_)
  case refine_2 => exact absurd hfailed (not_harmless _ _ e (fun _ => rfl) h'.not_bothThere)
  refine wp_bind.mpr (wp_acceptRollback_harmless h₁ ?_ hback)
  refine wp_bind.mpr (wp_recordRollback_harmless h₁ hbackup fun s₂ h₂ => ?_)
  have hkept : ∀ s' : Disk T, (∀ p, decide (p = Place.failed k.failed) = false → s' p = s₂ p) →
      s' (.backup t) = none :=
    fun s' hs' => (hs' (.backup t) rfl).trans h₂.backup
  refine wp_bind.mpr (wp_rmtree_meeting (renames_ignores nofun) (renames_ignores nofun) ?_
    (fun _ _ => trivial) fun s₃ hs₃ => ?_)
  · intro s' e hs' hcond
    have hnot : ¬BothThere t s' := by
      intro hboth
      have hthere := hboth.2
      rw [hkept s' hs'] at hthere
      exact nomatch hthere
    have htolerated : (!(releases T).interrupts e) = true ∨ BothThere t s' := hcond.elim id id
    simpa using htolerated.resolve_right hnot
  · exact wp_removeReceipts_harmless (hkept s₃ hs₃) fun _ => nofun

end Harmless

/-! ## 4. Where the active directory is, at every moment -/

section Crashes

variable {mayFail : Bool} {t u : ℕ} {r : RollbackReceipt T} {pre rollback : Dir T} {s : Disk T}

/-- There is an active directory, unless it has been moved away just now. -/
structure Tracked (pre rollback : Dir T) (s : Disk T × Bool) : Prop where
  restore : NothingToRestore s.1
  gone : s.2 = true → s.1 .active = none
  there : s.2 = false → s.1 .active = some (.dir pre) ∨ s.1 .active = some (.dir rollback)

theorem tracked_of_there (hrestore : NothingToRestore s)
    (hactive : s .active = some (.dir pre) ∨ s .active = some (.dir rollback)) :
    Tracked pre rollback (s, false) :=
  ⟨hrestore, nofun, fun _ => hactive⟩

theorem nothingToRestore_of_none (h : s .journal = none) : NothingToRestore s :=
  fun _ _ hj => nomatch h.symm.trans hj

theorem everywhere_tracked : Everywhere t u r pre rollback (Tracked pre rollback) where
  home _ h := tracked_of_there (nothingToRestore_of_none h.journal) (.inl h.inPlace.active)
  away _ h := ⟨nothingToRestore_of_none h.journal, fun _ => h.active, nofun⟩
  swapped _ h := tracked_of_there (nothingToRestore_of_none h.journal) (.inr h.active)

variable [DecidableEq T]

theorem wp_cutBack_tracked {k : RollbackCall} (h : Home t r pre rollback s) :
    wp ((handler renames mayFail).meeting fun _ _ _ => True) (.keeping (Tracked pre rollback)) ()
      (cutBack t r k) (fun _ _ => True) (s, false) := by
  refine wp_bind.mpr (wp_swapIn_back everywhere_tracked h (fun s₁ h₁ => ?_)
    (fun _ _ _ => trivial) fun _ _ _ _ => trivial)
  have hinv : Tracked pre rollback (s₁, false) := everywhere_tracked.swapped s₁ h₁
  -- what follows the acceptance does not touch the active directory
  have hrest : wp ((handler renames mayFail).meeting fun _ _ _ => True)
      (.keeping (Tracked pre rollback)) () (do
        recordRollback k.receipt r
        rmtreeAt (.failed k.failed)
        removeReceipts t r) (fun _ _ => True) (s₁, false) := by
    have hwithin : (do
        recordRollback k.receipt r
        rmtreeAt (.failed k.failed)
        removeReceipts t r : Program T Unit).Within (renames.Spares essential) := by
      have hpart : ∀ p, essential p → decide (p = Place.failed k.failed) = false := by
        refine fun p hp => decide_eq_false ?_
        rintro rfl
        exact hp
      refine Prog.Within.bind (within_recordRollback (fun _ => ⟨trivial, renames_ignores nofun⟩)
        (fun _ => ⟨id, renames_ignores nofun⟩) (fun _ => ⟨id, renames_ignores nofun⟩) r) fun _ => ?_
      refine Prog.Within.bind (within_rmtreeAt ⟨hpart, renames_ignores nofun⟩
        ⟨hpart, renames_ignores nofun⟩) fun _ => ?_
      exact within_removeReceipts (fun _ => ⟨id, renames_ignores nofun⟩)
        (fun _ => ⟨id, renames_ignores nofun⟩) t r
    refine wp_meeting (wp_avoiding hwithin (fun s' hs' => ?_) fun _ _ _ => trivial)
    have hjournal : s' .journal = none := (hs' .journal trivial).trans h₁.journal
    have hactive : s' .active = some (.dir rollback) := (hs' .active trivial).trans h₁.active
    exact tracked_of_there (nothingToRestore_of_none hjournal) (.inr hactive)
  refine wp_bind.mpr ?_
  unfold acceptRollback
  split
  case isFalse => exact hrest
  refine wp_bind.mpr (wp_meeting (wp_reading
    (within_runPostCutoverAcceptance (reading_look _) reading_ask) hinv fun x => ?_))
  rcases x with e | accepted
  · trivial
  rw [onOk_ok]
  split
  · exact hrest
  · exact wp_revertRollback everywhere_tracked h₁ (fun _ _ _ => trivial) (fun _ _ => trivial)
      fun _ _ _ _ => trivial

/-! ## 5. The whole call -/

section Call

variable {active : String} {k : RollbackCall} {inv : Disk T × Bool → Prop}
  {cond : (o : (sig (releases T)).Op) → Disk T × Bool → (sig (releases T)).Ans o → Prop}
  {Q : Except Raised Unit → Disk T × Bool → Prop}

/-- What happens before the cutover leaves both directories where they are. -/
theorem wp_rollbackLastUpdate (hk : k.directory = some t) (h : InPlace t pre rollback s)
    (hrestore : NothingToRestore s)
    (hinv : ∀ s', InPlace t pre rollback s' → NothingToRestore s' → inv (s', false))
    (hback : ∀ e s', InPlace t pre rollback s' → Q (.error e) (s', false))
    (hcut : ∀ r, r.backup = t → Home t r pre rollback s →
      wp ((handler renames mayFail).meeting cond) (.keeping inv) () (cutBack t r k) Q (s, false)) :
    wp ((handler renames mayFail).meeting cond) (.keeping inv) () (rollbackLastUpdate active k) Q
      (s, false) := by
  have hs := hinv s h hrestore
  refine wp_bind.mpr (wp_meeting (wp_verifyRollback hk hs (fun r hr => ?_) fun e => hback e s h))
  refine wp_bind.mpr (wp_meeting (wp_present (renames_ignores nofun) hs ?_
    fun _ e => hback e s h))
  rw [onOk_ok]
  have hkept : ∀ {s' : Disk T}, Untouched s s' → InPlace t pre rollback s' := fun h' =>
    ⟨h'.active.trans h.active, (h'.backups t).trans h.backup⟩
  split
  · refine wp_bind.mpr (wp_meeting (wp_recover_nothing hrestore
      (fun s' h' => hinv s' (hkept h') (h'.restore hrestore)) fun x s' h' => ?_))
    rcases x with e | recovery
    · exact hback e s' (hkept h')
    · exact hback _ s' (hkept h')
  · rename_i hnone
    have hjournal : s .journal = none := Option.not_isSome_iff_eq_none.mp hnone
    exact hcut r hr.backup ⟨hjournal, hr.receipt, h⟩

omit [DecidableEq T] in
theorem wp_recover_tracked {s' : Disk T × Bool} (h : Tracked pre rollback s') {u : ℕ} :
    wp (handler renames false) (.keeping fun _ => True) () (recoverIncompleteUpdate active u)
      (fun _ s₂ => s₂.1 .active = s'.1 .active) s' :=
  wp_recover_nothing h.restore (fun _ _ => trivial) fun _ _ hsame => hsame.active

/-- What a recovery from `s₁` has to leave. -/
def Recovers (active : String) (pre rollback : Dir T) (s₁ : Disk T × Bool) : Prop :=
  ∀ u, (∃ r s₂, Runs (handler renames false) (recoverIncompleteUpdate active u) s₁ r s₂) ∧
    ∀ r s₂, Runs (handler renames false) (recoverIncompleteUpdate active u) s₁ r s₂ →
      s₂.1 .active = some (.dir pre) ∨ s₂.1 .active = some (.dir rollback)

omit [DecidableEq T] in
theorem Tracked.recovers_iff {s₁ : Disk T × Bool} (h : Tracked pre rollback s₁) :
    Recovers active pre rollback s₁ ↔ s₁.2 = false := by
  have hrun : ∀ u, ∃ r s₂,
      Runs (handler renames false) (recoverIncompleteUpdate active u) s₁ r s₂ := by
    refine fun u => exists_runs (fun q => ?_) _ _
    cases q with
    | extract => exact ⟨(none : Option T)⟩
    | migration pre candidate => exact ⟨(none : Option (Option String))⟩
    | _ => exact ⟨false⟩
  constructor
  · intro hrecovers
    by_contra haway
    obtain ⟨r, s₂, hr⟩ := hrun 0
    have hgone : s₁.1 .active = none := h.gone (eq_true_of_ne_false haway)
    have hsame : s₂.1 .active = s₁.1 .active := (wp_runs hr (wp_recover_tracked h) trivial).2.2
    rcases (hrecovers 0).2 r s₂ hr with hactive | hactive
    · exact nomatch (hsame.trans hgone).symm.trans hactive
    · exact nomatch (hsame.trans hgone).symm.trans hactive
  · intro hhere u
    refine ⟨hrun u, fun r s₂ hr => ?_⟩
    have hsame : s₂.1 .active = s₁.1 .active := (wp_runs hr (wp_recover_tracked h) trivial).2.2
    rw [hsame]
    exact h.there hhere

/-- **A rollback is atomic** as far as it goes.  If it raises, and nothing harmful has happened,
both directories are where they were; and wherever it is cut short, the next recovery leaves one of
them active, exactly if the active directory has not been moved away just now. -/
theorem rollback_atomic (hk : k.directory = some t) (h : InPlace t pre rollback s)
    (hrestore : NothingToRestore s) :
    (∀ e s', Runs ((handler renames true).meeting (Harmless t)) (rollbackLastUpdate active k)
      (s, false) (.error e) s' → InPlace t pre rollback s'.1) ∧
    ∀ p s', Exec (handler renames true) (rollbackLastUpdate active k) (s, false) p s' →
      (Recovers active pre rollback s' ↔ s'.2 = false) := by
  constructor
  · intro e s' hr
    have hwp : wp ((handler renames true).meeting (Harmless t)) (.keeping fun _ => True) ()
        (rollbackLastUpdate active k)
        (fun x s' => ∀ e, x = .error e → InPlace t pre rollback s'.1) (s, false) :=
      wp_rollbackLastUpdate hk h hrestore (fun _ _ _ => trivial) (fun _ _ h' _ _ => h')
        fun r hbackup hhome => wp_cutBack_harmless hhome hbackup
    exact (wp_runs hr hwp trivial).2.2 e rfl
  · intro p s' hexec
    have hexec' : Exec ((handler renames true).meeting fun _ _ _ => True)
        (rollbackLastUpdate active k) (s, false) p s' := hexec.mono fun _ _ _ _ hs => ⟨hs, trivial⟩
    have hthere : ∀ s', InPlace t pre rollback s' → NothingToRestore s' →
        Tracked pre rollback (s', false) :=
      fun s' h' hrestore' => tracked_of_there hrestore' (.inl h'.active)
    have hwp : wp ((handler renames true).meeting fun _ _ _ => True)
        (.keeping (Tracked pre rollback)) () (rollbackLastUpdate active k) (fun _ _ => True)
        (s, false) :=
      wp_rollbackLastUpdate hk h hrestore hthere (fun _ _ _ => trivial)
        fun r _ hhome => wp_cutBack_tracked hhome
    exact (wp_exec hexec' hwp (hthere s h hrestore)).1.recovers_iff

end Call

end Crashes

/-! ## 6. A refused append, and a crash -/

section Halfway

def oldRelease : Dir ℕ := ⟨none, 1⟩

def newRelease : Dir ℕ := ⟨some 7, 2⟩

def updateAcceptance : Acceptance ℕ where
  schemaVersion := "1.0"
  classification := "VERIFIED_RELEASE_UPDATE_ACCEPTANCE_RECEIPT"
  transactionId := 7
  preUpdateTree := 1
  postUpdateTree := 2
  migrationReceipt := none
  isSealed := true

def updateReceipt : RollbackReceipt ℕ where
  schemaVersion := "1.0"
  classification := "VERIFIED_RELEASE_ROLLBACK_RECEIPT"
  backup := 7
  backupTree := 1
  acceptance := some 7
  acceptanceDigest := updateAcceptance

/-- The disk after an update.  The chain is one that `verify` has a problem with. -/
def diskUpdated : Disk ℕ
  | .active => some (.dir newRelease)
  | .backup 7 => some (.dir oldRelease)
  | .acceptance 7 => some (.acceptance updateAcceptance)
  | .rollbackReceipt 7 => some (.rollbackReceipt updateReceipt)
  | .audit => some (.audit ⟨[none], none⟩)
  | _ => none

theorem diskUpdated_inPlace : InPlace 7 newRelease oldRelease diskUpdated := ⟨rfl, rfl⟩

/-- Nothing fails; the release that was rolled back to is accepted, or not. -/
def judging (accepts : Bool) : Outside (releases ℕ) where
  answer q _ := match q with
    | .extract => some 2
    | .migration .. => some none
    | .acceptance _ => accepts
    | .conflict | .identity _ | .compatible .. => true
  leaves _ := none
  fails _ _ := none

theorem judging_picks (accepts mayFail : Bool) :
    ((judging accepts).script renames).Picks (handler renames mayFail) :=
  script_picks (.inr fun _ _ => rfl)

def rollbackCall : RollbackCall := ⟨some 7, false, true, 8, 9, 10⟩

/-- The call, and what it leaves. -/
def judged (accepts : Bool) : Except Raised Unit × Disk ℕ × Bool :=
  (rollbackLastUpdate "active" rollbackCall).play ((judging accepts).script renames)
    (diskUpdated, false)

/-- The call is killed after so many operations. -/
def rollbackKilled (steps : ℕ) : Disk ℕ × Bool :=
  ((rollbackLastUpdate "active" rollbackCall).playFor ((judging true).script renames) steps
    (diskUpdated, false)).2

theorem exec_rollbackKilled (steps : ℕ) : ∃ p, Exec (handler renames true)
    (rollbackLastUpdate "active" rollbackCall) (diskUpdated, false) p (rollbackKilled steps) :=
  ⟨_, exec_playFor (judging_picks true true) steps _ _⟩

/-- Refused by its acceptance command, the rollback is taken back; killed behind the renames, it
leaves the release it has rolled back to. -/
theorem rollback_atomic_rejected :
    InPlace 7 newRelease oldRelease (judged false).2.1 ∧
      Recovers "active" newRelease oldRelease (rollbackKilled 12) := by
  have hmeets : (rollbackLastUpdate "active" rollbackCall).Meets
      ((judging false).script renames) (Harmless 7) (diskUpdated, false) := by decide
  have hraises : (judged false).1 =
      .error (.runtimeError "ROLLBACK_POST_CUTOVER_ACCEPTANCE_FAILED") := rfl
  have hruns : Runs ((handler renames true).meeting (Harmless 7))
      (rollbackLastUpdate "active" rollbackCall) (diskUpdated, false)
      (.error (.runtimeError "ROLLBACK_POST_CUTOVER_ACCEPTANCE_FAILED")) (judged false).2 :=
    hraises ▸ runs_play_meeting (judging_picks false true) hmeets
  obtain ⟨p, hexec⟩ := exec_rollbackKilled 12
  constructor
  · exact (rollback_atomic rfl diskUpdated_inPlace nofun).1 _ _ hruns
  · exact ((rollback_atomic rfl diskUpdated_inPlace nofun).2 p _ hexec).mpr rfl

/-- **A rollback stops halfway.**  When the event is refused, the call raises and the old release
stays active, with no directory to roll back to; when it is killed between the two renames, no
release is active, and a recovery finds nothing to do. -/
theorem rollback_halfway :
    (¬∀ (s : Disk ℕ) t pre rollback k, k.directory = some t → InPlace t pre rollback s →
      s .journal = none → ∀ e s', Runs (handler renames true) (rollbackLastUpdate "active" k)
        (s, false) (.error e) s' → InPlace t pre rollback s'.1) ∧
    ¬∀ (s : Disk ℕ) t pre rollback k, k.directory = some t → InPlace t pre rollback s →
      s .journal = none → ∀ p s', Exec (handler renames true) (rollbackLastUpdate "active" k)
        (s, false) p s' → Recovers "active" pre rollback s' := by
  constructor
  · intro h
    have hruns := runs_play (judging_picks true true) (rollbackLastUpdate "active" rollbackCall)
      (diskUpdated, false)
    have hraises : (judged true).1 =
        .error (.runtimeError "DEPLOYMENT_AUDIT_CHAIN_TAMPERED") := rfl
    have hgone : (judged true).2.1 (.backup 7) = none := rfl
    have hkept := (h _ 7 _ _ rollbackCall rfl diskUpdated_inPlace rfl _ _ (hraises ▸ hruns)).backup
    exact nomatch hgone.symm.trans hkept
  · intro h
    obtain ⟨p, hexec⟩ := exec_rollbackKilled 10
    have hrecovers := h _ 7 _ _ rollbackCall rfl diskUpdated_inPlace rfl p _ hexec
    have haway : (rollbackKilled 10).1 .active = none := rfl
    have hnone : (rollbackKilled 10).1 .journal = none := rfl
    have htracked : Tracked newRelease oldRelease (rollbackKilled 10) :=
      ⟨nothingToRestore_of_none hnone, fun _ => haway, nofun⟩
    exact nomatch htracked.recovers_iff.mp hrecovers

end Halfway

end Kripto.Deploy.ReleaseUpdate
