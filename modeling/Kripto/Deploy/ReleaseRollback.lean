/-
# Rolling a release back

`rollback_last_update` puts a directory an update has kept back in the place of the active one.
It keeps no journal of its own: what it has moved it moves back when the second rename fails, and
when the release is not accepted.  Before the cutover there are checks; and if there is the journal
of an update, a recovery takes the place of the rollback.
-/
import Kripto.Deploy.ReleaseUpdate

namespace Kripto.Deploy.ReleaseUpdate

open Effect Effect.Files

variable {T : Type}

/-! ## 1. The rollback -/

/-- `directory`: `none` if it is no name of a rollback directory beside the active one.  `probe` and
`acceptance`: is there such a command.  The other fields are the names the call makes up. -/
structure RollbackCall where
  directory : Option ℕ
  probe : Bool
  acceptance : Bool
  failedBefore : ℕ
  failed : ℕ
  receipt : ℕ

def acceptanceOf (found : Option (Node T)) : Program T (Acceptance T) :=
  match found with
  | some (.acceptance r) =>
    if r.schemaVersion ≠ "1.0" ∨
        r.classification ≠ "VERIFIED_RELEASE_UPDATE_ACCEPTANCE_RECEIPT" then
      raiseError "UPDATE_ACCEPTANCE_RECEIPT_CONTRACT_INVALID"
    else if r.isSealed then pure r
    else raiseError "UPDATE_ACCEPTANCE_RECEIPT_PROVENANCE_MISMATCH"
  | _ => raiseError "UPDATE_ACCEPTANCE_RECEIPT_MISSING_OR_UNSAFE"

def verifyAcceptanceReceipt (a : ℕ) : Program T (Acceptance T) := do
  let found ← look (.acceptance a)
  acceptanceOf found

def acceptanceName (raw : Option ℕ) : Program T ℕ :=
  match raw with
  | some a => pure a
  | none => raiseError "ROLLBACK_ACCEPTANCE_RECEIPT_REFERENCE_INVALID"

/-- `_sha256_file` of an acceptance receipt. -/
def digestAcceptance (a : ℕ) : Program T (Acceptance T) := do
  let found ← look (.acceptance a)
  match found with
  | some (.acceptance r) => pure r
  | _ => .raise .osError

def rollbackReceiptOf (found : Option (Node T)) : Program T (RollbackReceipt T) :=
  match found with
  | some (.rollbackReceipt r) =>
    if r.schemaVersion ≠ "1.0" ∨ r.classification ≠ "VERIFIED_RELEASE_ROLLBACK_RECEIPT" then
      raiseError "ROLLBACK_RECEIPT_CONTRACT_INVALID"
    else pure r
  | _ => raiseError "ROLLBACK_RECEIPT_MISSING_OR_UNSAFE"

def rollbackName (raw : Option ℕ) : Program T ℕ :=
  match raw with
  | some t => pure t
  | none => raiseError "ROLLBACK_DIRECTORY_INVALID"

/-- The heads of both trees, and the plan between them, are a part of the question. -/
def probeDatabase (t : ℕ) (probe : Bool) : Program T Unit := do
  let rollback ← directory (.backup t) "UPDATE_ALEMBIC_VERSIONS_UNSAFE"
  let current ← directory .active "UPDATE_ALEMBIC_VERSIONS_UNSAFE"
  if probe then do
    let compatible : Bool ← ask (.compatible current rollback)
    if compatible then pure () else raiseError "ROLLBACK_DATABASE_HEAD_AMBIGUOUS"
  else raiseError "ROLLBACK_DATABASE_COMPATIBILITY_PROBE_REQUIRED"

def verifyDatabaseCompatibility (t : ℕ) (r : RollbackReceipt T) (probe : Bool) :
    Program T Unit :=
  match r.acceptance with
  | none => pure ()
  | some a => do
    let acceptance ← verifyAcceptanceReceipt a
    if acceptance.migrationReceipt.getD "" = "" then pure () else probeDatabase t probe

/-- The rollback itself is taken back. -/
def revertRollback (t u : ℕ) : Program T Unit := do
  move .active (.backup t)
  move (.failed u) .active
  validateActive
  raiseError "ROLLBACK_POST_CUTOVER_ACCEPTANCE_FAILED"

def acceptRollback (t : ℕ) (k : RollbackCall) : Program T Unit :=
  if k.acceptance then do
    let accepted : Bool ← runPostCutoverAcceptance
    if accepted then pure () else revertRollback t k.failed
  else pure ()

/-- `_sha256_file` of a rollback receipt. -/
def digestRollbackReceipt (t : ℕ) : Program T (RollbackReceipt T) := do
  let found ← look (.rollbackReceipt t)
  match found with
  | some (.rollbackReceipt r) => pure r
  | _ => .raise .osError

def writeRollbackAcceptanceReceipt (v : ℕ) (r : RollbackReceipt T) :
    Program T (RollbackAcceptance T) := do
  let tree ← treeOf .active
  let source ← digestRollbackReceipt r.backup
  let acceptance : RollbackAcceptance T := {
    sourceAcceptance := r.acceptanceDigest
    sourceRollback := source
    activeTree := tree }
  put (.rollbackAcceptance v) (.rollbackAcceptance acceptance)
  return acceptance

/-- The receipts of an update that is no longer there are removed. -/
def removeReceipts (t : ℕ) (r : RollbackReceipt T) : Program T Unit := do
  remove (.rollbackReceipt t) true
  match r.acceptance with
  | some a => remove (.acceptance a) true
  | none => pure ()

section Calls

variable [DecidableEq T]

def verifyRollbackReceipt (t : ℕ) : Program T (RollbackReceipt T) := do
  let found ← look (.rollbackReceipt t)
  let r ← rollbackReceiptOf found
  if r.backup ≠ t then raiseError "ROLLBACK_RECEIPT_BACKUP_MISMATCH"
  else do
    let actual ← treeOf (.backup t)
    if r.backupTree ≠ actual then raiseError "ROLLBACK_BACKUP_HASH_MISMATCH"
    else do
      let a ← acceptanceName r.acceptance
      let _ ← verifyAcceptanceReceipt a
      let digest ← digestAcceptance a
      if r.acceptanceDigest ≠ digest then
        raiseError "ROLLBACK_ACCEPTANCE_RECEIPT_HASH_MISMATCH"
      else pure r

/-- The checks before the cutover. -/
def verifyRollback (k : RollbackCall) : Program T (ℕ × RollbackReceipt T) := do
  validateActive
  let clear : Bool ← ask .conflict
  if clear then do
    let t ← rollbackName k.directory
    let _ ← directory (.backup t) "ROLLBACK_DIRECTORY_UNSAFE"
    let r ← verifyRollbackReceipt t
    verifyDatabaseCompatibility t r k.probe
    return (t, r)
  else raiseError "DEPLOYMENT_TRANSACTION_CONFLICT"

def recordRollback (v : ℕ) (r : RollbackReceipt T) : Program T Unit := do
  validateActive
  let acceptance ← writeRollbackAcceptanceReceipt v r
  let tree ← treeOf .active
  audit.appendEvent (.rollbackAccepted v acceptance tree)

/-- From the cutover on. -/
def cutBack (t : ℕ) (r : RollbackReceipt T) (k : RollbackCall) : Program T Unit := do
  swapIn (.backup t) (.failed k.failed)
  acceptRollback t k
  recordRollback k.receipt r
  rmtreeAt (.failed k.failed)
  removeReceipts t r

def rollbackLastUpdate (active : String) (k : RollbackCall) : Program T Unit := do
  let (t, r) ← verifyRollback k
  let pending ← present .journal
  if pending then do
    let _ ← recoverIncompleteUpdate active k.failedBefore
    raiseError "ROLLBACK_RETRY_REQUIRED_AFTER_RECOVERY"
  else cutBack t r k

end Calls

/-! ## 2. Where the directories are -/

section Positions

variable {t u : ℕ} {r : RollbackReceipt T} {pre rollback : Dir T} {s s' : Disk T}

/-- The directory that is active, and the one to roll back to. -/
structure InPlace (t : ℕ) (pre rollback : Dir T) (s : Disk T) : Prop where
  active : s .active = some (.dir pre)
  backup : s (.backup t) = some (.dir rollback)

/-- A recovery would not put anything in the place of the active directory. -/
def NothingToRestore (s : Disk T) : Prop :=
  ∀ j b, s .journal = some (.journal j) → j.backup = some b → s (.backup b) = none

/-- The rollback has begun, or has been taken back. -/
structure Home (t : ℕ) (r : RollbackReceipt T) (pre rollback : Dir T) (s : Disk T) : Prop where
  journal : s .journal = none
  receipt : s (.rollbackReceipt t) = some (.rollbackReceipt r)
  inPlace : InPlace t pre rollback s

/-- There is no active directory. -/
structure Away (t u : ℕ) (r : RollbackReceipt T) (pre rollback : Dir T) (s : Disk T) : Prop where
  journal : s .journal = none
  receipt : s (.rollbackReceipt t) = some (.rollbackReceipt r)
  active : s .active = none
  backup : s (.backup t) = some (.dir rollback)
  failed : s (.failed u) = some (.dir pre)

/-- What was kept is active. -/
structure Swapped (t u : ℕ) (r : RollbackReceipt T) (pre rollback : Dir T) (s : Disk T) :
    Prop where
  journal : s .journal = none
  receipt : s (.rollbackReceipt t) = some (.rollbackReceipt r)
  active : s .active = some (.dir rollback)
  backup : s (.backup t) = none
  failed : s (.failed u) = some (.dir pre)

theorem moved_same (s : Disk T) {src dst p : Place} (hsrc : p ≠ src := by nofun)
    (hdst : p ≠ dst := by nofun) :
    Store.moved (F := releases T) s src dst p = s p :=
  Store.moved_of_ne (F := releases T) s hsrc hdst

theorem Home.leave (h : Home t r pre rollback s) :
    Away t u r pre rollback (Store.moved (F := releases T) s .active (.failed u)) := by
  have hne : Place.active ≠ .failed u := nofun
  exact {
    journal := (moved_same s).trans h.journal
    receipt := (moved_same s).trans h.receipt
    active := Store.moved_src (F := releases T) s hne
    backup := (moved_same s).trans h.inPlace.backup
    failed := (Store.moved_dst (F := releases T) s _ _).trans h.inPlace.active }

theorem Away.enter (h : Away t u r pre rollback s) :
    Swapped t u r pre rollback (Store.moved (F := releases T) s (.backup t) .active) := by
  have hne : Place.backup t ≠ .active := nofun
  exact {
    journal := (moved_same s).trans h.journal
    receipt := (moved_same s).trans h.receipt
    active := (Store.moved_dst (F := releases T) s _ _).trans h.backup
    backup := Store.moved_src (F := releases T) s hne
    failed := (moved_same s).trans h.failed }

theorem Away.undo (h : Away t u r pre rollback s) :
    Home t r pre rollback (Store.moved (F := releases T) s (.failed u) .active) := by
  exact {
    journal := (moved_same s).trans h.journal
    receipt := (moved_same s).trans h.receipt
    inPlace := ⟨(Store.moved_dst (F := releases T) s _ _).trans h.failed,
      (moved_same s).trans h.backup⟩ }

theorem Swapped.leave (h : Swapped t u r pre rollback s) :
    Away t u r pre rollback (Store.moved (F := releases T) s .active (.backup t)) := by
  have hne : Place.active ≠ .backup t := nofun
  exact {
    journal := (moved_same s).trans h.journal
    receipt := (moved_same s).trans h.receipt
    active := Store.moved_src (F := releases T) s hne
    backup := (Store.moved_dst (F := releases T) s _ _).trans h.active
    failed := (moved_same s).trans h.failed }

end Positions

/-! ## 3. Watching the active directory -/

/-- The active directory has been moved away, and nothing has been put in its place. -/
def renames : Observer (releases T) Bool where
  note
    | .move src dst, _, .ok _, away =>
      if src = .active then true else if dst = .active then false else away
    | _, _, _, away => away
  note_error o s e away := by cases o <;> rfl

theorem renames_ignores {o : Op (releases T)} (h : ∀ src dst, o ≠ .move src dst) :
    (renames (T := T)).Ignores o := by
  intro s r away
  cases o with
  | move src dst => exact absurd rfl (h src dst)
  | _ => rfl

/-! ## 4. Before the cutover -/

section Checks

variable {mayFail : Bool} {inv : Disk T × Bool → Prop} {t u : ℕ} {s : Disk T} {away : Bool}
  {A : Op (releases T) → Prop}

/-- Operations that change nothing. -/
abbrev Reading : Op (releases T) → Prop := renames.Spares fun _ => True

theorem reading_look (p : Place) : Reading (T := T) (.look p) :=
  ⟨trivial, renames_ignores nofun⟩

theorem reading_ask (q : Ask T) : Reading (.ask q) := ⟨trivial, renames_ignores nofun⟩

theorem within_acceptanceOf (found : Option (Node T)) : (acceptanceOf found).Within A := by
  unfold acceptanceOf
  split
  · split
    · exact Prog.within_raise _
    · split
      · exact Prog.within_pure _
      · exact Prog.within_raise _
  · exact Prog.within_raise _

theorem within_verifyAcceptanceReceipt (hlook : ∀ p, A (.look p)) (a : ℕ) :
    (verifyAcceptanceReceipt (T := T) a).Within A :=
  Prog.Within.bind (Prog.within_perform.mpr (hlook _)) within_acceptanceOf

theorem within_digestAcceptance (hlook : ∀ p, A (.look p)) (a : ℕ) :
    (digestAcceptance (T := T) a).Within A := by
  refine Prog.Within.bind (Prog.within_perform.mpr (hlook _)) fun found => ?_
  split
  · exact Prog.within_pure _
  · exact Prog.within_raise _

theorem within_verifyDatabaseCompatibility (hlook : ∀ p, A (.look p)) (hask : ∀ q, A (.ask q))
    (t : ℕ) (r : RollbackReceipt T) (probe : Bool) :
    (verifyDatabaseCompatibility t r probe).Within A := by
  unfold verifyDatabaseCompatibility
  split
  · exact Prog.within_pure _
  refine Prog.Within.bind (within_verifyAcceptanceReceipt hlook _) fun acceptance => ?_
  split
  · exact Prog.within_pure _
  refine Prog.Within.bind (within_directory (hlook _)) fun old => ?_
  refine Prog.Within.bind (within_directory (hlook _)) fun new => ?_
  split
  · refine Prog.Within.bind (Prog.within_perform.mpr (hask _)) fun compatible => ?_
    split
    · exact Prog.within_pure _
    · exact Prog.within_raise _
  · exact Prog.within_raise _

theorem within_removeReceipts (hremove : ∀ b, A (.remove (.rollbackReceipt b) true))
    (hremove' : ∀ a, A (.remove (.acceptance a) true)) (t : ℕ) (r : RollbackReceipt T) :
    (removeReceipts t r).Within A := by
  refine Prog.Within.bind (Prog.within_perform.mpr (hremove _)) fun _ => ?_
  split
  · exact Prog.within_perform.mpr (hremove' _)
  · exact Prog.within_pure _

theorem within_recordRollback [DecidableEq T] {v : ℕ} (hlook : ∀ p, A (.look p))
    (hput : ∀ n, A (.put (.rollbackAcceptance v) n)) (haudit : ∀ n, A (.put .audit n))
    (r : RollbackReceipt T) : (recordRollback v r).Within A := by
  refine Prog.Within.bind (within_validateActive (hlook _)) fun _ => ?_
  refine Prog.Within.bind ?_ fun acceptance => ?_
  · refine Prog.Within.bind (within_treeOf (hlook _)) fun tree => ?_
    refine Prog.Within.bind ?_ fun source => ?_
    · refine Prog.Within.bind (Prog.within_perform.mpr (hlook _)) fun found => ?_
      split
      · exact Prog.within_pure _
      · exact Prog.within_raise _
    · exact Prog.Within.bind (Prog.within_perform.mpr (hput _)) fun _ => Prog.within_pure _
  · refine Prog.Within.bind (within_treeOf (hlook _)) fun tree => ?_
    exact audit.within_appendEvent (hlook _) haudit _

/-- The receipt of a rollback directory is the one beside it. -/
structure Verified (t : ℕ) (r : RollbackReceipt T) (s : Disk T) : Prop where
  receipt : s (.rollbackReceipt t) = some (.rollbackReceipt r)
  backup : r.backup = t

variable [DecidableEq T]

theorem wp_verifyRollbackReceipt (hs : inv (s, away))
    {Q : Except Raised (RollbackReceipt T) → Disk T × Bool → Prop}
    (hok : ∀ r, Verified t r s → Q (.ok r) (s, away)) (hbad : ∀ e, Q (.error e) (s, away)) :
    wp (handler renames mayFail) (.keeping inv) () (verifyRollbackReceipt t) Q (s, away) := by
  refine wp_bind.mpr (wp_look (renames_ignores nofun) hs ?_ fun _ => hbad)
  rw [onOk_ok]
  cases hfound : s (.rollbackReceipt t) with
  | none => exact hbad _
  | some n =>
    cases n with
    | rollbackReceipt r =>
      by_cases hcontract : r.schemaVersion ≠ "1.0" ∨
          r.classification ≠ "VERIFIED_RELEASE_ROLLBACK_RECEIPT"
      · rw [rollbackReceiptOf, if_pos hcontract]
        exact hbad _
      rw [rollbackReceiptOf, if_neg hcontract]
      by_cases hbackup : r.backup ≠ t
      · exact wp_bind.mpr (by rw [wp_pure, onOk_ok, if_pos hbackup]; exact hbad _)
      refine wp_bind.mpr ?_
      rw [wp_pure, onOk_ok, if_neg hbackup]
      refine wp_bind.mpr (wp_reading (within_treeOf (reading_look _)) hs fun x => ?_)
      rcases x with e | actual
      · exact hbad e
      rw [onOk_ok]
      split
      · exact hbad _
      refine wp_bind.mpr ?_
      cases r.acceptance with
      | none => exact hbad _
      | some a =>
        rw [acceptanceName, wp_pure, onOk_ok]
        refine wp_bind.mpr (wp_reading (within_verifyAcceptanceReceipt reading_look a) hs
          fun x => ?_)
        rcases x with e | acceptance
        · exact hbad e
        refine wp_bind.mpr (wp_reading (within_digestAcceptance reading_look a) hs fun x => ?_)
        rcases x with e | digest
        · exact hbad e
        rw [onOk_ok]
        split
        · exact hbad _
        · exact hok r ⟨hfound, not_not.mp hbackup⟩
    | _ => exact hbad _

theorem wp_verifyRollback {k : RollbackCall} (hk : k.directory = some t) (hs : inv (s, away))
    {Q : Except Raised (ℕ × RollbackReceipt T) → Disk T × Bool → Prop}
    (hok : ∀ r, Verified t r s → Q (.ok (t, r)) (s, away)) (hbad : ∀ e, Q (.error e) (s, away)) :
    wp (handler renames mayFail) (.keeping inv) () (verifyRollback k) Q (s, away) := by
  refine wp_bind.mpr (wp_reading (within_validateActive (reading_look _)) hs fun x => ?_)
  rcases x with e | u
  · exact hbad e
  refine wp_bind.mpr (wp_ask (renames_ignores nofun) hs (fun clear => ?_) fun _ => hbad)
  rw [onOk_ok]
  split
  case isFalse => exact hbad _
  refine wp_bind.mpr ?_
  rw [hk, rollbackName, wp_pure, onOk_ok]
  refine wp_bind.mpr (wp_reading (within_directory (reading_look _)) hs fun x => ?_)
  rcases x with e | d
  · exact hbad e
  refine wp_bind.mpr (wp_verifyRollbackReceipt hs (fun r hr => ?_) hbad)
  refine wp_bind.mpr (wp_reading
    (within_verifyDatabaseCompatibility reading_look reading_ask t r k.probe) hs fun x => ?_)
  rcases x with e | compatible
  · exact hbad e
  · exact hok r hr

end Checks

/-! ## 5. A recovery with nothing to restore -/

section Recovery

variable {mayFail : Bool} {inv : Disk T × Bool → Prop} {u : ℕ} {s s' : Disk T} {away : Bool}

/-- What a recovery leaves alone then. -/
structure Untouched (s s' : Disk T) : Prop where
  active : s' .active = s .active
  backups : ∀ b, s' (.backup b) = s (.backup b)
  journal : s' .journal = s .journal ∨ s' .journal = none

theorem Untouched.restore (h : Untouched s s') (hs : NothingToRestore s) : NothingToRestore s' := by
  intro j b hj hb
  rw [h.backups]
  rcases h.journal with hsame | hnone
  · exact hs j b (hsame.symm.trans hj) hb
  · exact nomatch hnone.symm.trans hj

/-- The directories and the journal. -/
def essential : Place → Prop
  | .active | .journal | .backup _ => True
  | _ => False

theorem untouched_of_essential (h : ∀ p, essential p → s' p = s p) : Untouched s s' :=
  ⟨h .active trivial, fun b => h (.backup b) trivial, .inl (h .journal trivial)⟩

theorem wp_readJournal (hs : inv (s, away)) {Q : Except Raised Journal → Disk T × Bool → Prop}
    (hok : ∀ j, s .journal = some (.journal j) → Q (.ok j) (s, away))
    (hbad : ∀ e, Q (.error e) (s, away)) :
    wp (handler renames mayFail) (.keeping inv) () readJournal Q (s, away) := by
  refine wp_bind.mpr (wp_look (renames_ignores nofun) hs ?_ fun _ => hbad)
  rw [onOk_ok]
  unfold journalOf
  split
  · rename_i j hj
    split
    · exact hbad _
    · exact hok j hj
  · exact hbad _

theorem wp_rollBack_nothing {b c : ℕ} {status : String} (hb : s (.backup b) = none)
    (hinv : ∀ s', Untouched s s' → inv (s', away))
    {Q : Except Raised Recovery → Disk T × Bool → Prop}
    (hQ : ∀ r s', Untouched s s' → Q r (s', away)) :
    wp (handler renames mayFail) (.keeping inv) () (rollBack b c status u) Q (s, away) := by
  have hsame : Untouched s s := untouched_of_essential fun _ _ => rfl
  refine wp_bind.mpr (wp_bind.mpr (wp_present (renames_ignores (by simp)) (hinv s hsame) ?_
    fun _ e => hQ _ s hsame))
  rw [onOk_ok, hb, if_neg (by simp)]
  split
  · exact hQ _ s hsame
  have hcandidate : (rmtreeIfPresent (T := T) (.candidate c)).Within
      (renames.Spares essential) := by
    have hpart : ∀ p, essential p → decide (p = Place.candidate c) = false := by
      refine fun p hp => decide_eq_false ?_
      rintro rfl
      exact hp
    refine Prog.Within.bind (Prog.within_perform.mpr ⟨trivial, renames_ignores (by simp)⟩)
      fun there => ?_
    split
    · exact within_rmtreeAt ⟨hpart, renames_ignores (by simp)⟩ ⟨hpart, renames_ignores (by simp)⟩
    · exact Prog.within_pure _
  refine wp_bind.mpr (wp_avoiding hcandidate
    (fun s' hs' => hinv s' (untouched_of_essential hs')) fun r s₁ hs₁ => ?_)
  rcases r with e | u
  · exact hQ _ s₁ (untouched_of_essential hs₁)
  have hreceipt : (remove (T := T) (.rollbackReceipt b) true).Within (renames.Spares essential) :=
    Prog.within_perform.mpr ⟨id, renames_ignores (by simp)⟩
  refine wp_bind.mpr (wp_avoiding hreceipt (fun s' hs' => ?_) fun r s₂ hs₂ => ?_)
  · exact hinv s' (untouched_of_essential fun p hp => (hs' p hp).trans (hs₁ p hp))
  have h₂ : ∀ p, essential p → s₂ p = s p := fun p hp => (hs₂ p hp).trans (hs₁ p hp)
  rcases r with e | u
  · exact hQ _ s₂ (untouched_of_essential h₂)
  -- the journal is the only one of these that goes
  refine wp_bind.mpr (wp_ignored (renames_ignores (o := .remove .journal false) (by simp))
    (hinv _ (untouched_of_essential h₂)) ?_ fun _ e => hQ _ s₂ (untouched_of_essential h₂))
  rintro r s₃ (⟨-, rfl, rfl⟩ | ⟨-, -, rfl, rfl⟩)
  · have hset : ∀ p, p ≠ .journal →
        Store.set (F := releases T) s₂ .journal none p = s₂ p :=
      fun p hp => Store.set_of_ne (F := releases T) s₂ none hp
    have h₃ : Untouched s (Store.set (F := releases T) s₂ .journal none) :=
      ⟨(hset .active (by simp)).trans (h₂ .active trivial),
        fun b => (hset (.backup b) (by simp)).trans (h₂ (.backup b) trivial),
        .inr (Store.set_self (F := releases T) s₂ .journal none)⟩
    refine ⟨hinv _ h₃, wp_bind.mpr (wp_reading (within_validateActive (reading_look _))
      (hinv _ h₃) fun r => ?_)⟩
    rcases r with e | u
    · exact hQ _ _ h₃
    · exact hQ _ _ h₃
  · exact ⟨hinv _ (untouched_of_essential h₂), hQ _ _ (untouched_of_essential h₂)⟩

/-- **A recovery that has nothing to restore** leaves the directories alone, however it ends. -/
theorem wp_recover_nothing {active : String} (h : NothingToRestore s)
    (hinv : ∀ s', Untouched s s' → inv (s', away))
    {Q : Except Raised Recovery → Disk T × Bool → Prop}
    (hQ : ∀ r s', Untouched s s' → Q r (s', away)) :
    wp (handler renames mayFail) (.keeping inv) () (recoverIncompleteUpdate active u) Q
      (s, away) := by
  have hsame : Untouched s s := untouched_of_essential fun _ _ => rfl
  refine wp_bind.mpr (wp_present (renames_ignores nofun) (hinv s hsame) ?_ fun _ e => hQ _ s hsame)
  rw [onOk_ok]
  split
  case isFalse => exact hQ _ s hsame
  refine wp_bind.mpr (wp_readJournal (hinv s hsame) (fun j hj => ?_) fun e => hQ _ s hsame)
  rw [onOk_ok]
  split
  · exact hQ _ s hsame
  refine wp_bind.mpr ?_
  cases hb : j.backup with
  | none => exact hQ _ s hsame
  | some b =>
    rw [safeSibling, wp_pure, onOk_ok]
    refine wp_bind.mpr ?_
    cases j.candidate with
    | none => exact hQ _ s hsame
    | some c =>
      rw [safeSibling, wp_pure, onOk_ok]
      exact wp_rollBack_nothing (h j b hj hb) hinv hQ

end Recovery

end Kripto.Deploy.ReleaseUpdate
