/-
# Recovering an update with a migration inside

`scripts/deployment_transaction_state.py` and `scripts/deployment_recovery_coordinator.py`: a
release update and the migration of its database have been interrupted together.  If the database
is still where it was, the journal of the migration is dropped and the update is rolled back; if
it has been migrated, nothing is done.

The two journals lie in one directory.  What an inspection finds of the journal of the dependency
locks and of the operation lock are arguments.  Of the disk of the migration only its journal is
used here.

* `recovery_safe`: wherever a recovery is cut short, the update can still be rolled back, and the
  journal of the migration is gone only if the database was seen at the head of before;
* `recovery_outcome`: what each answer says, and that only a recovery that succeeds or raises
  changes anything.
-/
import Kripto.Deploy.MigrationGuard
import Kripto.Deploy.UpdateCrashes
import Kripto.Effect.Play

namespace Kripto.Deploy.CrossRecovery

open Effect Effect.Files

/-! ## 1. The state of the transactions -/

inductive Kind
  | releaseUpdate
  | databaseMigration
  | dependencyLocks
  | operationLock
  deriving DecidableEq

/-- What is at the place of a journal or of the lock: nothing, what belongs there, or something
that is no file or cannot be read. -/
inductive Found
  | nothing
  | active
  | problem
  deriving DecidableEq

/-- What is found of the two that a recovery leaves alone. -/
structure Others where
  dependencyLocks : Found
  operationLock : Found
  deriving DecidableEq

inductive Problem
  | unusable (kind : Kind)
  | multipleMutationJournalsPresent (kinds : List Kind)
  deriving DecidableEq

structure State where
  active : List Kind
  problems : List Problem

def State.safeToStartNewMutation (state : State) : Bool :=
  state.active = [] ∧ state.problems = []

/-- What `inspect` makes of what it finds. -/
def stateOf (release migration : Found) (others : Others) : State :=
  let found := [(Kind.releaseUpdate, release), (.databaseMigration, migration),
    (.dependencyLocks, others.dependencyLocks), (.operationLock, others.operationLock)]
  let active := found.filterMap fun (kind, what) => if what = .active then some kind else none
  let unusable := found.filterMap fun (kind, what) =>
    if what = .problem then some (Problem.unusable kind) else none
  let conflicting := active.filter (· ≠ .operationLock)
  { active := active
    problems := unusable ++
      if 1 < conflicting.length then [.multipleMutationJournalsPresent conflicting] else [] }

/-! ## 2. The recovery -/

variable {T : Type}

/-- Both directories of files, which are one on disk. -/
abbrev both (T : Type) : Sig :=
  (sig (ReleaseUpdate.releases T)).beside (Op MigrationGuard.stateDir) Op.Val

abbrev Program (T α : Type) : Type := Prog (both T) α

def release {α : Type} (p : ReleaseUpdate.Program T α) : Program T α := p.inLeft

def migration {α : Type} (p : MigrationGuard.Program α) : Program T α :=
  Prog.inRight (S := sig (ReleaseUpdate.releases T)) p

/-- A journal that can be read, or anything else at its place. -/
def foundRelease : Option (ReleaseUpdate.Node T) → Found
  | some (.journal _) => .active
  | some _ => .problem
  | none => .nothing

def foundMigration : Option MigrationGuard.Node → Found
  | some (.journal _) => .active
  | some _ => .problem
  | none => .nothing

def inspect (others : Others) : Program T State := do
  let update ← release (ReleaseUpdate.look .journal)
  let migrated ← migration (MigrationGuard.look .journal)
  return stateOf (foundRelease update) (foundMigration migrated) others

inductive Recovery
  | notRequired
  | blockedDatabaseAdvancedApplicationUncommitted
  | recoveredPreMigrationUpdate
  deriving DecidableEq

/-- `u` names the directory that what is active is moved to; `before` and `after` are what the two
inspections find of the rest. -/
def recoverCrossTransaction (active : String) (u : ℕ) (before after : Others) :
    Program T Recovery := do
  let state ← inspect before
  if ¬ (.releaseUpdate ∈ state.active ∧ .databaseMigration ∈ state.active) then pure .notRequired
  else do
    let journal ← migration MigrationGuard.readJournal
    let observed : String ← migration (MigrationGuard.ask .probe)
    if observed = journal.migration.toHead then
      pure .blockedDatabaseAdvancedApplicationUncommitted
    else if observed ≠ journal.migration.fromHead then
      .raise (.runtimeError "CROSS_TRANSACTION_DATABASE_STATE_AMBIGUOUS")
    else do
      migration (MigrationGuard.unlink .journal)
      let _ ← release (ReleaseUpdate.recoverIncompleteUpdate active u)
      let state ← inspect after
      if state.safeToStartNewMutation then pure .recoveredPreMigrationUpdate
      else .raise (.runtimeError "CROSS_TRANSACTION_RECOVERY_INCOMPLETE")

/-! ## 3. What an inspection says -/

section State

variable {release migration : Found} {others : Others}

theorem releaseUpdate_mem_iff :
    .releaseUpdate ∈ (stateOf release migration others).active ↔ release = .active := by
  simp [stateOf]

theorem databaseMigration_mem_iff :
    .databaseMigration ∈ (stateOf release migration others).active ↔ migration = .active := by
  simp [stateOf]

/-- Nothing at all may be found: the operation lock counts, though it is no journal. -/
theorem safeToStartNewMutation_iff :
    (stateOf release migration others).safeToStartNewMutation = true ↔
      release = .nothing ∧ migration = .nothing ∧ others = ⟨.nothing, .nothing⟩ := by
  obtain ⟨locks, lock⟩ := others
  cases release <;> cases migration <;> cases locks <;> cases lock <;> decide

theorem foundRelease_eq_active {n : Option (ReleaseUpdate.Node T)} :
    foundRelease n = .active ↔ ∃ j, n = some (.journal j) := by
  rcases n with _ | _ | _ <;> simp [foundRelease]

theorem foundMigration_eq_active {n : Option MigrationGuard.Node} :
    foundMigration n = .active ↔ ∃ j, n = some (.journal j) := by
  rcases n with _ | _ | _ <;> simp [foundMigration]

end State

/-! ## 4. The invariant -/

/-- The head of the database that was seen last. -/
def probes : Observer MigrationGuard.stateDir (Option String) where
  note
    | .ask .probe, _, .ok head, _ => some head
    | _, _, _, seen => seen
  note_error o s e g := by
    cases o with
    | ask q => cases q <;> rfl
    | _ => rfl

/-- The two disks, with what has been seen on them. -/
abbrev Disks (T : Type) : Type :=
  (ReleaseUpdate.Disk T × ReleaseUpdate.Seen T) × MigrationGuard.Disk × Option String

def handlers (T : Type) (mayFail : Bool) : Handler (both T) (Disks T) :=
  (handler ReleaseUpdate.journals mayFail).beside (handler probes mayFail)

/-- The disk of the migration is as it was, or the journal is gone and the database was seen at the
head of before. -/
inductive Kept (d : MigrationGuard.Disk) (s : MigrationGuard.Disk × Option String) : Prop
  | same (h : s.1 = d)
  | dropped (j : MigrationGuard.Journal) (journal : d .journal = some (.journal j))
      (rest : s.1 = Store.set (F := MigrationGuard.stateDir) d .journal none)
      (seen : s.2 = some j.migration.fromHead) (there : s.2 ≠ some j.migration.toHead)

/-- **What a recovery keeps**: the update can be rolled back, or has been, and the journal of the
migration is not dropped for nothing. -/
structure Safe (active : String) (first : ReleaseUpdate.Dir T) (d : MigrationGuard.Disk)
    (s : Disks T) : Prop where
  release : ReleaseUpdate.Sound active first False [] s.1
  migration : Kept d s.2

/-- The files are the same. -/
def Unchanged (s s' : Disks T) : Prop := s'.1.1 = s.1.1 ∧ s'.2.1 = s.2.1

variable {active : String} {first : ReleaseUpdate.Dir T} {d : MigrationGuard.Disk} {mayFail : Bool}
  {s : Disks T} {u : ℕ}

/-- Having read the journal of an update does no harm. -/
theorem sound_read {s : ReleaseUpdate.Disk T} {g : ReleaseUpdate.Seen T}
    (h : ReleaseUpdate.Sound active first False [] (s, g)) :
    ReleaseUpdate.Sound active first False [] (s, { g with read := true }) := by
  cases h with
  | closed journal active told own => exact .closed journal active nofun own
  | pending t j h told own => exact .pending t j h (.inl nofun) own

/-- The journal of the update is read. -/
theorem wp_lookRelease {s : ReleaseUpdate.Disk T × ReleaseUpdate.Seen T}
    (h : ReleaseUpdate.Sound active first False [] s) :
    wp (handler ReleaseUpdate.journals mayFail)
      (.keeping (ReleaseUpdate.Sound active first False [])) () (ReleaseUpdate.look .journal)
      (fun r s' => s'.1 = s.1 ∧ s'.2.finals = s.2.finals ∧
        ReleaseUpdate.Sound active first False [] s' ∧ (∀ n, r = .ok n → n = s.1 .journal) ∧
        ∀ e, r = .error e → mayFail = true) s := by
  obtain ⟨s, g⟩ := s
  refine wp_op h ?_ fun hmay e => ⟨rfl, rfl, h, nofun, fun _ _ => hmay⟩
  rintro r s' ⟨rfl, rfl⟩
  refine ⟨sound_read h, rfl, rfl, sound_read h, ?_, nofun⟩
  rintro n ⟨⟩
  rfl

/-- The journal of the migration is read. -/
theorem wp_lookMigration {s : MigrationGuard.Disk × Option String} {inv : _ → Prop} (h : inv s) :
    wp (handler probes mayFail) (.keeping inv) () (MigrationGuard.look .journal)
      (fun r s' => s' = s ∧ (∀ n, r = .ok n → n = s.1 .journal) ∧
        ∀ e, r = .error e → mayFail = true) s := by
  obtain ⟨s, g⟩ := s
  refine wp_op h ?_ fun hmay e => ⟨rfl, nofun, fun _ _ => hmay⟩
  rintro r s' ⟨rfl, rfl⟩
  refine ⟨h, rfl, ?_, nofun⟩
  rintro n ⟨⟩
  rfl

/-- **An inspection** tells what is there. -/
theorem wp_inspect (others : Others) (h : Safe active first d s) :
    wp (handlers T mayFail) (.keeping (Safe active first d)) () (inspect others)
      (fun r s' => Unchanged s s' ∧ s'.1.2.finals = s.1.2.finals ∧ s'.2.2 = s.2.2 ∧
        Safe active first d s' ∧
        (∀ state, r = .ok state → state =
          stateOf (foundRelease (s.1.1 .journal)) (foundMigration (s.2.1 .journal)) others) ∧
        ∀ e, r = .error e → mayFail = true) s := by
  obtain ⟨s, m⟩ := s
  refine wp_bind.mpr (wp_mono ?_ (wp_inLeft (fun s' hs' => ⟨hs', h.migration⟩) h.release
    (wp_lookRelease h.release)))
  rintro r ⟨s₁, m₁⟩ ⟨⟨hdisk, hfinals, hsound, hread, hraised⟩, rfl⟩
  have h₁ : Safe active first d (s₁, m₁) := ⟨hsound, h.migration⟩
  cases r with
  | error e => exact ⟨⟨hdisk, rfl⟩, hfinals, rfl, h₁, nofun, fun _ _ => hraised e rfl⟩
  | ok n =>
    obtain rfl := hread n rfl
    refine wp_bind.mpr (wp_mono ?_ (wp_inRight (I := Kept d) (fun m' hm' => ⟨hsound, hm'⟩)
      h.migration (wp_lookMigration h.migration)))
    rintro r ⟨s₂, m₂⟩ ⟨⟨rfl, hread', hraised'⟩, rfl⟩
    cases r with
    | error e => exact ⟨⟨hdisk, rfl⟩, hfinals, rfl, h₁, nofun, fun _ _ => hraised' e rfl⟩
    | ok n =>
      obtain rfl := hread' n rfl
      refine ⟨⟨hdisk, rfl⟩, hfinals, rfl, h₁, ?_, nofun⟩
      rintro state ⟨⟩
      rfl

/-- `_read_journal` accepts it. -/
def Accepted (j : MigrationGuard.Journal) : Prop :=
  j.schemaVersion = "1.0" ∧ j.classification = "DATABASE_MIGRATION_TRANSACTION"

theorem wp_readJournal {m : MigrationGuard.Disk × Option String} {inv : _ → Prop}
    {j : MigrationGuard.Journal} (hm : inv m) (hj : m.1 .journal = some (.journal j)) :
    wp (handler probes mayFail) (.keeping inv) () MigrationGuard.readJournal
      (fun r m' => m' = m ∧ (∀ j', r = .ok j' → j' = j) ∧
        ∀ e, r = .error e → mayFail = true ∨ ¬ Accepted j) m := by
  refine wp_bind.mpr (wp_mono ?_ (wp_lookMigration hm))
  rintro r m' ⟨rfl, hread, hraised⟩
  cases r with
  | error e =>
    refine ⟨rfl, ?_, fun _ _ => .inl (hraised e rfl)⟩
    rintro _ ⟨⟩
  | ok n =>
    obtain rfl := hread n rfl
    rw [onOk_ok, hj]
    unfold MigrationGuard.journalOf
    dsimp only
    split
    · rename_i hbad
      refine ⟨rfl, ?_, fun _ _ => .inr fun h => ?_⟩
      · rintro _ ⟨⟩
      · rcases hbad with hbad | hbad
        · exact hbad h.1
        · exact hbad h.2
    · refine ⟨rfl, ?_, ?_⟩
      · rintro j' ⟨⟩
        rfl
      · rintro _ ⟨⟩

theorem wp_probe {m : MigrationGuard.Disk × Option String} {inv : _ → Prop} (hm : inv m)
    (hinv : ∀ head, inv (m.1, some head)) :
    wp (handler probes mayFail) (.keeping inv) () (MigrationGuard.ask .probe)
      (fun r m' => m'.1 = m.1 ∧ (∀ head : String, r = .ok head → m'.2 = some head) ∧
        inv m' ∧ ∀ e, r = .error e → mayFail = true) m := by
  obtain ⟨m, seen⟩ := m
  refine wp_op hm ?_ fun hmay e => ⟨rfl, nofun, hm, fun _ _ => hmay⟩
  rintro r m' ⟨⟨head, rfl⟩, rfl⟩
  refine ⟨hinv head, rfl, ?_, hinv head, nofun⟩
  rintro head' ⟨⟩
  rfl

theorem wp_unlink {m : MigrationGuard.Disk × Option String} {inv : _ → Prop} (hm : inv m)
    (hinv : inv (Store.set (F := MigrationGuard.stateDir) m.1 .journal none, m.2)) :
    wp (handler probes mayFail) (.keeping inv) () (MigrationGuard.unlink .journal)
      (fun r m' => (r = .ok () →
          m' = (Store.set (F := MigrationGuard.stateDir) m.1 .journal none, m.2)) ∧
        ∀ e, r = .error e → m' = m ∧ (mayFail = true ∨ m.1 .journal = none)) m := by
  obtain ⟨m, seen⟩ := m
  refine wp_op hm ?_ fun hmay e => ⟨nofun, fun _ _ => ⟨rfl, .inl hmay⟩⟩
  rintro r m' (⟨-, rfl, rfl⟩ | ⟨-, hnone, rfl, rfl⟩)
  · exact ⟨hinv, fun _ => rfl, nofun⟩
  · exact ⟨hm, nofun, fun _ _ => ⟨rfl, .inr hnone⟩⟩

/-- The recovery of an update by itself. -/
theorem wp_recoverUpdate {s : ReleaseUpdate.Disk T × ReleaseUpdate.Seen T}
    (h : ReleaseUpdate.Sound active first False [] s) :
    wp (handler ReleaseUpdate.journals mayFail)
      (.keeping (ReleaseUpdate.Sound active first False [])) ()
      (ReleaseUpdate.recoverIncompleteUpdate active u)
      (fun r s' => ReleaseUpdate.Sound active first False [] s' ∧
        (∀ res, r = .ok res → ReleaseUpdate.Settled first s' ∧ s'.2.finals = s.2.finals) ∧
        ∀ e, r = .error e → mayFail = true ∨ s.1 (.failed u) ≠ none ∨
          ¬ ReleaseUpdate.BackupThere s.1) s := by
  have hall : (handler ReleaseUpdate.journals mayFail).meeting (fun _ _ _ => True) =
      handler (F := ReleaseUpdate.releases T) ReleaseUpdate.journals mayFail := by
    funext o s r s'
    simp [Handler.meeting]
  rw [← hall]
  refine ReleaseUpdate.wp_recover (fun _ _ _ hfalse => hfalse.elim) h ?_ ?_
  · intro res s' h' hsettled hfinals _
    refine ⟨h', fun _ _ => ⟨hsettled, hfinals⟩, ?_⟩
    rintro _ ⟨⟩
  · intro hwhy e s' h'
    refine ⟨h', ?_, fun _ _ => hwhy⟩
    rintro _ ⟨⟩

/-! ## 5. What a recovery comes to -/

/-- The journal of a migration, dropped. -/
abbrev dropped (d : MigrationGuard.Disk) : MigrationGuard.Disk :=
  Store.set (F := MigrationGuard.stateDir) d .journal none

/-- **The outcomes.**  `j` is the journal of the migration. -/
inductive Outcome (first : ReleaseUpdate.Dir T) (mayFail : Bool) (u : ℕ) (after : Others)
    (s s' : Disks T) : Except Raised Recovery → Prop
  | notRequired (unchanged : Unchanged s s')
      (h : (∀ j, s.1.1 .journal ≠ some (.journal j)) ∨ ∀ j, s.2.1 .journal ≠ some (.journal j)) :
      Outcome first mayFail u after s s' (.ok .notRequired)
  | blocked (unchanged : Unchanged s s') (j : MigrationGuard.Journal)
      (journal : s.2.1 .journal = some (.journal j)) (seen : s'.2.2 = some j.migration.toHead) :
      Outcome first mayFail u after s s' (.ok .blockedDatabaseAdvancedApplicationUncommitted)
  | recovered (settled : ReleaseUpdate.Settled first s'.1) (finals : s'.1.2.finals = s.1.2.finals)
      (j : MigrationGuard.Journal) (journal : s.2.1 .journal = some (.journal j))
      (gone : s'.2.1 = dropped s.2.1) (seen : s'.2.2 = some j.migration.fromHead)
      (alone : after = ⟨.nothing, .nothing⟩) :
      Outcome first mayFail u after s s' (.ok .recoveredPreMigrationUpdate)
  | incomplete (settled : ReleaseUpdate.Settled first s'.1) (gone : s'.2.1 = dropped s.2.1)
      (others : after ≠ ⟨.nothing, .nothing⟩) : Outcome first mayFail u after s s'
        (.error (.runtimeError "CROSS_TRANSACTION_RECOVERY_INCOMPLETE"))
  | ambiguous (unchanged : Unchanged s s') (j : MigrationGuard.Journal)
      (journal : s.2.1 .journal = some (.journal j)) (head : String) (seen : s'.2.2 = some head)
      (hfrom : head ≠ j.migration.fromHead) (hto : head ≠ j.migration.toHead) :
      Outcome first mayFail u after s s'
        (.error (.runtimeError "CROSS_TRANSACTION_DATABASE_STATE_AMBIGUOUS"))
  | refused (unchanged : Unchanged s s') (j : MigrationGuard.Journal)
      (journal : s.2.1 .journal = some (.journal j)) (h : ¬ Accepted j) (e : Raised) :
      Outcome first mayFail u after s s' (.error e)
  | hindered (h : s.1.1 (.failed u) ≠ none ∨ ¬ ReleaseUpdate.BackupThere s.1.1) (e : Raised) :
      Outcome first mayFail u after s s' (.error e)
  | failed (h : mayFail = true) (e : Raised) : Outcome first mayFail u after s s' (.error e)

/-- What follows once the database has been seen at the head of before. -/
theorem wp_rollBack {after : Others} {s₀ s : Disks T} {j : MigrationGuard.Journal}
    (h : Safe active first s₀.2.1 s) (hsame : Unchanged s₀ s)
    (hfinals : s.1.2.finals = s₀.1.2.finals) (hj : s₀.2.1 .journal = some (.journal j))
    (hfrom : s.2.2 = some j.migration.fromHead) (hto : s.2.2 ≠ some j.migration.toHead) :
    wp (handlers T mayFail) (.keeping (Safe active first s₀.2.1)) () (do
        migration (MigrationGuard.unlink .journal)
        let _ ← release (ReleaseUpdate.recoverIncompleteUpdate active u)
        let state ← inspect after
        if state.safeToStartNewMutation then pure .recoveredPreMigrationUpdate
        else .raise (.runtimeError "CROSS_TRANSACTION_RECOVERY_INCOMPLETE"))
      (fun r s' => Outcome first mayFail u after s₀ s' r) s := by
  obtain ⟨s, m⟩ := s
  obtain ⟨hdisk, hm⟩ := hsame
  have hdropped : Kept s₀.2.1 (dropped m.1, m.2) :=
    .dropped j hj (congrArg dropped hm) hfrom hto
  refine wp_bind.mpr (wp_mono ?_ (wp_inRight (I := Kept s₀.2.1)
    (fun m' hm' => ⟨h.release, hm'⟩) h.migration (wp_unlink h.migration hdropped)))
  rintro r ⟨s₁, m₁⟩ ⟨⟨hok, herror⟩, rfl⟩
  cases r with
  | error e =>
    refine .failed ((herror e rfl).2.resolve_right fun hnone => ?_) e
    exact nomatch hnone.symm.trans ((congrFun hm _).trans hj)
  | ok _ =>
    obtain rfl := hok rfl
    refine wp_bind.mpr (wp_mono ?_ (wp_inLeft (fun s' hs' => ⟨hs', hdropped⟩) h.release
      (wp_recoverUpdate h.release)))
    rintro r ⟨s₂, m₂⟩ ⟨⟨hsound, hsettled, hraised⟩, rfl⟩
    cases r with
    | error e =>
      rcases hraised e rfl with hmay | hwhy
      · exact .failed hmay e
      · refine .hindered ?_ e
        rwa [show s₁.1 = s₀.1.1 from hdisk] at hwhy
    | ok res =>
      obtain ⟨hsettled, hfinals'⟩ := hsettled res rfl
      refine wp_bind.mpr (wp_mono ?_ (wp_inspect after ⟨hsound, hdropped⟩))
      rintro r s₃ ⟨⟨hdisk₃, hm₃⟩, hfinals₃, hseen₃, -, hstate, hraised'⟩
      have hsettled₃ : ReleaseUpdate.Settled first s₃.1 := by
        refine ⟨(congrFun hdisk₃ _).trans hsettled.1, (congrFun hdisk₃ _).trans ?_⟩
        rw [hsettled.2, ReleaseUpdate.Seen.current, ReleaseUpdate.Seen.current, hfinals₃]
      have hgone : s₃.2.1 = dropped s₀.2.1 := hm₃.trans (congrArg dropped hm)
      cases r with
      | error e => exact .failed (hraised' e rfl) e
      | ok state =>
        obtain rfl := hstate state rfl
        have hupdate : foundRelease (s₂.1 .journal) = .nothing := by
          rw [show s₂.1 .journal = none from hsettled.1]
          rfl
        have hmigrated : foundMigration (dropped m.1 .journal) = .nothing := by
          rw [show dropped m.1 .journal = none from
            Store.set_self (F := MigrationGuard.stateDir) m.1 .journal none]
          rfl
        rw [onOk_ok]
        dsimp only
        rw [hupdate, hmigrated]
        by_cases hafter : after = ⟨.nothing, .nothing⟩
        · rw [if_pos (safeToStartNewMutation_iff.mpr ⟨rfl, rfl, hafter⟩)]
          exact .recovered hsettled₃ (hfinals₃.trans (hfinals'.trans hfinals)) j hj hgone
            (hseen₃.trans hfrom) hafter
        · rw [if_neg fun hsafe => hafter (safeToStartNewMutation_iff.mp hsafe).2.2]
          exact .incomplete hsettled₃ hgone hafter

/-- **The recovery.** -/
theorem wp_recoverCrossTransaction {before after : Others}
    (h : ReleaseUpdate.Sound active first False [] s.1) :
    wp (handlers T mayFail) (.keeping (Safe active first s.2.1)) ()
      (recoverCrossTransaction active u before after)
      (fun r s' => Outcome first mayFail u after s s' r) s := by
  have hsafe : Safe active first s.2.1 s := ⟨h, .same rfl⟩
  refine wp_bind.mpr (wp_mono ?_ (wp_inspect before hsafe))
  rintro r s₁ ⟨hsame, hfinals, -, hsafe₁, hstate, hraised⟩
  cases r with
  | error e => exact .failed (hraised e rfl) e
  | ok state =>
    obtain rfl := hstate state rfl
    rw [onOk_ok]
    split
    · rename_i hnot
      rw [releaseUpdate_mem_iff, databaseMigration_mem_iff, foundRelease_eq_active,
        foundMigration_eq_active] at hnot
      refine .notRequired hsame ?_
      rcases not_and_or.mp hnot with hnot | hnot
      · exact .inl (not_exists.mp hnot)
      · exact .inr (not_exists.mp hnot)
    · rename_i hthere
      rw [releaseUpdate_mem_iff, databaseMigration_mem_iff, foundRelease_eq_active,
        foundMigration_eq_active] at hthere
      obtain ⟨-, j, hj⟩ := not_not.mp hthere
      obtain ⟨s₁, m₁⟩ := s₁
      have hj₁ : m₁.1 .journal = some (.journal j) := (congrFun hsame.2 _).trans hj
      refine wp_bind.mpr (wp_mono ?_ (wp_inRight (I := Kept s.2.1)
        (fun m' hm' => ⟨hsafe₁.release, hm'⟩) hsafe₁.migration
        (wp_readJournal hsafe₁.migration hj₁)))
      rintro r ⟨s₂, m₂⟩ ⟨⟨hm₂, hread, hraised⟩, hs₂⟩
      obtain rfl : m₂ = m₁ := hm₂
      obtain rfl : s₂ = s₁ := hs₂
      cases r with
      | error e =>
        rcases hraised e rfl with hmay | hbad
        · exact .failed hmay e
        · exact .refused hsame j hj hbad e
      | ok j' =>
        obtain rfl := hread j' rfl
        have hkept : ∀ head, Kept s.2.1 (m₂.1, some head) := fun head => .same hsame.2
        refine wp_bind.mpr (wp_mono ?_ (wp_inRight (I := Kept s.2.1)
          (fun m' hm' => ⟨hsafe₁.release, hm'⟩) hsafe₁.migration
          (wp_probe hsafe₁.migration hkept)))
        rintro r ⟨s₃, m₃⟩ ⟨⟨hm₃, hhead, hkept₃, hraised⟩, hs₃⟩
        obtain rfl : s₃ = s₂ := hs₃
        have hsame₃ : Unchanged s (s₃, m₃) := ⟨hsame.1, hm₃.trans hsame.2⟩
        cases r with
        | error e => exact .failed (hraised e rfl) e
        | ok head =>
          have hseen : m₃.2 = some head := hhead head rfl
          rw [onOk_ok]
          split
          · rename_i hto
            exact .blocked hsame₃ j' hj (hto ▸ hseen)
          · rename_i hto
            split
            · rename_i hfrom
              exact .ambiguous hsame₃ j' hj head hseen hfrom hto
            · rename_i hfrom
              obtain rfl := not_not.mp hfrom
              refine wp_rollBack ⟨hsafe₁.release, hkept₃⟩ hsame₃ hfinals hj hseen ?_
              rw [hseen]
              exact fun heq => hto (Option.some.inj heq)

section Histories

variable [DecidableEq T] {s₀ : ReleaseUpdate.Disk T} {before after : Others}
  {tr : List (Effect.Event (sig (ReleaseUpdate.releases T)) ReleaseUpdate.Recovery
    ReleaseUpdate.Call Empty)}

/-- What updates and recoveries of them leave behind. -/
theorem sound_of_history (hs : ReleaseUpdate.Beginning first s₀)
    (h : Session (ReleaseUpdate.guarded T active False) (s₀, .start) tr s.1) :
    ReleaseUpdate.Sound active first False [] s.1 := by
  cases ReleaseUpdate.sound_of_session h hs.sound with
  | closed journal active told own => exact .closed journal active nofun own
  | pending t j h told own => exact .pending t j h (.inl nofun) own

/-- **Wherever a recovery is cut short**, the update can still be rolled back: a recovery of it
alone that nothing hinders puts the directory of before back.  The journal of the migration is
there, or the database has been seen at the head of before. -/
theorem recovery_safe {p : Program T Recovery} {s' : Disks T}
    (hs : ReleaseUpdate.Beginning first s₀)
    (h : Session (ReleaseUpdate.guarded T active False) (s₀, .start) tr s.1)
    (he : Exec (handlers T mayFail) (recoverCrossTransaction active u before after) s p s') :
    Safe active first s.2.1 s' ∧ ∀ u' r s'', s'.1.1 (.failed u') = none →
      ReleaseUpdate.BackupThere s'.1.1 →
      Runs (handler ReleaseUpdate.journals false) (ReleaseUpdate.recoverIncompleteUpdate active u')
        s'.1 r s'' → (∃ res, r = .ok res) ∧ ReleaseUpdate.Settled first s'' := by
  have hsound := sound_of_history hs h
  obtain ⟨hsafe, -, -⟩ := wp_exec he (wp_recoverCrossTransaction hsound) ⟨hsound, .same rfl⟩
  refine ⟨hsafe, fun u' r s'' hfree hthere hrun => ?_⟩
  obtain ⟨-, -, -, hsettled, hraised⟩ := wp_runs hrun (wp_recoverUpdate hsafe.release) hsafe.release
  cases r with
  | ok res => exact ⟨⟨res, rfl⟩, (hsettled res rfl).1⟩
  | error e =>
    rcases hraised e rfl with hmay | hwhy | hwhy
    · exact nomatch hmay
    · exact absurd hfree hwhy
    · exact absurd hthere hwhy

/-- **What a recovery comes to.** -/
theorem recovery_outcome {r : Except Raised Recovery} {s' : Disks T}
    (hs : ReleaseUpdate.Beginning first s₀)
    (h : Session (ReleaseUpdate.guarded T active False) (s₀, .start) tr s.1)
    (hr : Runs (handlers T mayFail) (recoverCrossTransaction active u before after) s r s') :
    Outcome first mayFail u after s s' r :=
  have hsound := sound_of_history hs h
  (wp_runs hr (wp_recoverCrossTransaction hsound) ⟨hsound, .same rfl⟩).2.2

end Histories

/-! ## 6. An update that is interrupted in its migration -/

/-- The update has just put the new release in its place; the database has not been migrated. -/
def interrupted : Disks ℕ :=
  (ReleaseUpdate.killed 20,
    fun
      | .journal => some (.journal ⟨"1.0", "DATABASE_MIGRATION_TRANSACTION", "PREPARED", 3,
          ⟨"a", "b", ["b"], "old", "new", none, "contract",
            ⟨"backup", "drill", "provenance", none⟩⟩⟩)
      | _ => none, none)

/-- Nothing fails, and the head of the database is "a". -/
def surroundings : Script (both ℕ) (Disks ℕ) :=
  let updating : Outside (ReleaseUpdate.releases ℕ) :=
    { ReleaseUpdate.accepting true with fails := fun _ _ => none }
  let migrating : Outside MigrationGuard.stateDir :=
    { answer := fun q _ => match q with
        | .conflict => true
        | .plan => none
        | .trees => ("old", "new")
        | .backup .. => ⟨"backup", "drill", "provenance", none⟩
        | .probe => "a"
        | .command => 0
        | .now => "now"
      leaves := fun _ => none
      fails := fun _ _ => none }
  (updating.script ReleaseUpdate.journals).beside (migrating.script probes)

theorem surroundings_picks (mayFail : Bool) : surroundings.Picks (handlers ℕ mayFail) :=
  picks_beside (script_picks (.inr fun _ _ => rfl)) (script_picks (.inr fun _ _ => rfl))

def recovering : Program ℕ Recovery :=
  recoverCrossTransaction "active" 10 ⟨.nothing, .nothing⟩ ⟨.nothing, .nothing⟩

/-- The recovery, cut short when it has dropped the journal of the migration. -/
theorem recovery_safe_dropped :
    let s := (recovering.playFor surroundings 5 interrupted).2
    (s.2.1 .journal).isNone = true ∧ (s.1.1 .journal).isSome = true ∧
      Safe "active" ReleaseUpdate.release interrupted.2.1 s :=
  ⟨rfl, rfl, (recovery_safe ReleaseUpdate.diskBefore_beginning (ReleaseUpdate.session_killed 20)
    (exec_playFor (surroundings_picks true) 5 recovering interrupted)).1⟩

/-- The recovery when nothing goes wrong. -/
theorem recovery_outcome_recovered :
    (recovering.play surroundings interrupted).1 = .ok .recoveredPreMigrationUpdate ∧
      Outcome ReleaseUpdate.release false 10 ⟨.nothing, .nothing⟩ interrupted
        (recovering.play surroundings interrupted).2 (recovering.play surroundings interrupted).1 :=
  ⟨rfl, recovery_outcome ReleaseUpdate.diskBefore_beginning (ReleaseUpdate.session_killed 20)
    (runs_play (surroundings_picks false) recovering interrupted)⟩

end Kripto.Deploy.CrossRecovery
