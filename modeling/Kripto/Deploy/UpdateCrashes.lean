/-
# Updates, crashes and recoveries

Histories of `apply_update` and `recover_incomplete_update` over one disk, any of them cut short
or failed anywhere.

* `recovery_converges_iff`: a recovery that nothing goes wrong with puts the right directory back
  and leaves no journal, exactly if the journal does not ask for a backup that is gone.  A
  recovery that is stopped between putting the backup back and removing the journal leaves such a
  journal, and every later one raises.
* `chain_tells_truth`: as long as no recovery begins with a journal whose update has its
  acceptance in the chain, the acceptances in the chain are, one by one, the updates that stayed.
  An update that is stopped between the two is rolled back, and its acceptance is not.
-/
import Kripto.Deploy.UpdateHistory
import Kripto.Effect.Play

namespace Kripto.Deploy.ReleaseUpdate

open Effect Effect.Files

variable {T : Type}

/-! ## 1. Histories -/

inductive Call
  | apply (n : Names)
  | recover (u : ℕ)

section Histories

variable [DecidableEq T] {active : String} {first : Dir T} {truth : Prop} {earlier : List ℕ}

/-- Calls for one active directory, each of which may fail or be cut short. -/
def crashing (T : Type) [DecidableEq T] (active : String) :
    Session.System (sig (releases T)) (Disk T × Seen T) Recovery Call Empty where
  body := fun
    | .apply n => applyUpdate active n
    | .recover u => recoverIncompleteUpdate active u
  handler := fun _ => handler journals true
  lose := fun _ s => s
  idle := fun _ _ _ => False

/-- The histories that meet a condition; tokens are new in all of them. -/
abbrev guarded (T : Type) [DecidableEq T] (active : String) (truth : Prop) :
    Session.System (sig (releases T)) (Disk T × Seen T) Recovery Call Empty :=
  (crashing T active).meeting fun _ => Guard truth

theorem wp_call (k : Call) {s : Disk T × Seen T} (h : Sound active first truth earlier s) :
    wp ((guarded T active truth).handler k) (.keeping (Sound active first truth earlier)) ()
      ((guarded T active truth).body k) (fun _ => Sound active first truth earlier) s := by
  cases k with
  | apply n => exact wp_applyUpdate h
  | recover u =>
    exact wp_recover (fun _ _ hguard => hguard) h (fun _ _ h' _ _ _ => h') fun _ _ _ h' => h'

/-- **The invariant holds in every history.** -/
theorem sound_of_session {s s₁ : Disk T × Seen T}
    {tr : List (Effect.Event (sig (releases T)) Recovery Call Empty)}
    (h : Session (guarded T active truth) s tr s₁) (hs : Sound active first truth earlier s) :
    Sound active first truth earlier s₁ := by
  exact h.keeping (fun k _ hs => wp_call k hs) (fun _ _ hs => hs) nofun hs

/-- A disk between transactions, before the first one we look at. -/
structure Beginning (first : Dir T) (s : Disk T) : Prop where
  journal : s .journal = none
  active : s .active = some (.dir first)
  ended : ∀ a, audit.chain s = some a → ∀ e, a.last ≠ some (some e)

omit [DecidableEq T] in
theorem Beginning.sound {s : Disk T} (h : Beginning first s) :
    Sound active first truth (accepted s) (s, .start) :=
  .closed h.journal h.active (fun _ => ⟨(List.append_nil _).symm, h.ended⟩) nofun

/-! ## 2. A recovery that nothing goes wrong with -/

/-- What a recovery from `s₁` has to come to. -/
structure Converges (first : Dir T) (s₁ : Disk T × Seen T) (r : Except Raised Recovery)
    (s₂ : Disk T × Seen T) : Prop where
  returns : ∃ res, r = .ok res
  journal : s₂.1 .journal = none
  active : s₂.1 .active = some (.dir (s₁.2.current first))
  committed : s₁.1 .journal = none → r = .ok .noTransaction

/-- Nothing goes wrong in the call. -/
abbrev undisturbed : Handler (sig (releases T)) (Disk T × Seen T) := handler journals false

omit [DecidableEq T] in
/-- The backup is missed, and will be missed again. -/
theorem wp_recover_missing {u : ℕ} {s : Disk T × Seen T}
    (h : Sound active first truth earlier s) (hmissing : ¬BackupThere s.1) :
    wp (undisturbed.meeting fun _ _ _ => True) (.keeping fun _ => True) ()
      (recoverIncompleteUpdate active u) (fun r s' => (∃ e, r = .error e) ∧ s'.1 = s.1) s := by
  obtain ⟨s, g⟩ := s
  simp only [BackupThere, not_forall] at hmissing
  obtain ⟨j, t, hj, hbackup, hstatus, hgone⟩ := hmissing
  have hjournal : s .journal = some (.journal j) := hj
  obtain ⟨t', status, rfl, -⟩ := h.opened hjournal
  obtain rfl : t' = t := Option.some.inj hbackup
  have hnone : s (.backup t') = none := Option.not_isSome_iff_eq_none.mp hgone
  have hmoved : status ≠ "PREPARED" := hstatus
  have hfail : ∀ {P : Prop}, false = true → P := nofun
  refine wp_recover_opened hjournal trivial (fun _ => ⟨trivial, ?_⟩) hfail
  refine wp_meeting (wp_bind.mpr (wp_bind.mpr (wp_present Unnoticed.present trivial ?_ hfail)))
  rw [onOk_ok, hnone, if_neg (by simp), if_pos hmoved]
  exact ⟨⟨_, rfl⟩, rfl⟩

/-- **A recovery that nothing goes wrong with converges** exactly if the journal does not ask for a
backup that is gone.  Before it, there may have been any number of updates and of recoveries,
failed or cut short anywhere. -/
theorem recovery_converges_iff {s : Disk T} {s₁ : Disk T × Seen T} {u : ℕ}
    {tr : List (Effect.Event (sig (releases T)) Recovery Call Empty)} (hs : Beginning first s)
    (h : Session (guarded T active False) (s, .start) tr s₁) (hname : s₁.1 (.failed u) = none) :
    (∃ r s₂, Runs undisturbed (recoverIncompleteUpdate active u) s₁ r s₂) ∧
    ∀ r s₂, Runs undisturbed (recoverIncompleteUpdate active u) s₁ r s₂ →
      (Converges first s₁ r s₂ ↔ BackupThere s₁.1) := by
  have hs₁ : Sound active first False (accepted s) s₁ := sound_of_session h hs.sound
  refine ⟨?_, fun r s₂ hr => ?_⟩
  · refine exists_runs (fun q => ?_) _ _
    cases q with
    | extract => exact ⟨(none : Option T)⟩
    | migration pre candidate => exact ⟨(none : Option (Option String))⟩
    | _ => exact ⟨false⟩
  have hr' : Runs (undisturbed.meeting fun _ _ _ => True) (recoverIncompleteUpdate active u) s₁ r
      s₂ := hr.mono fun _ _ _ _ h => ⟨h, trivial⟩
  constructor
  · intro hconverges
    by_contra hmissing
    obtain ⟨-, -, ⟨e, rfl⟩, -⟩ := wp_runs hr' (wp_recover_missing hs₁ hmissing) trivial
    obtain ⟨res, hres⟩ := hconverges.returns
    cases hres
  · intro hthere
    refine (wp_runs (Q := fun r s₂ => Converges first s₁ r s₂) hr' (wp_recover ?_ hs₁ ?_ ?_)
      hs₁).2.2
    · exact fun _ _ _ htruth => htruth.elim
    · intro res s' _ hsettled hfinals hnone
      refine ⟨⟨res, rfl⟩, hsettled.1, ?_, fun hj => by rw [hnone hj]⟩
      rw [hsettled.2, Seen.current, hfinals, ← Seen.current]
    · rintro (hmay | hfailed | hmissing) e s' _
      · cases hmay
      · exact absurd hname hfailed
      · exact absurd hthere hmissing

/-! ## 3. What the chain tells -/

/-- Between transactions, the acceptances that are new in the chain are those of the updates that
removed their journal themselves, with their candidate active, and the last of these candidates
is active. -/
structure Truthful (first : Dir T) (earlier : List ℕ) (s : Disk T × Seen T) : Prop where
  told : accepted s.1 = earlier ++ s.2.tokens
  own : ∀ f ∈ s.2.finals, f.2.origin = some f.1
  active : s.1 .active = some (.dir (s.2.current first))

/-- **The chain tells the truth** in all histories in which no recovery begins with the journal of
an update that has its acceptance in the chain. -/
theorem chain_tells_truth {s : Disk T} {s₁ : Disk T × Seen T}
    {tr : List (Effect.Event (sig (releases T)) Recovery Call Empty)} (hs : Beginning first s)
    (h : Session (guarded T active True) (s, .start) tr s₁) (hjournal : s₁.1 .journal = none) :
    Truthful first (accepted s) s₁ := by
  have hs₁ : Sound active first True (accepted s) s₁ := sound_of_session h hs.sound
  cases hs₁ with
  | closed _ hactive told own => exact ⟨(told trivial).1, own, hactive⟩
  | pending t j h _ _ => exact nomatch hjournal.symm.trans h.journal

end Histories

/-! ## 4. An update that is killed -/

section Killed

def release : Dir ℕ := ⟨none, 1⟩

def diskBefore : Disk ℕ
  | .active => some (.dir release)
  | _ => none

theorem diskBefore_beginning : Beginning release diskBefore where
  journal := rfl
  active := rfl
  ended a ha e := by
    obtain rfl : ChainFile.empty = a := Option.some.inj ha
    exact nofun

/-- The new release passes all checks.  `reads`: journals can be read. -/
def accepting (reads : Bool) : Outside (releases ℕ) where
  answer q _ := match q with
    | .extract => some 2
    | .migration .. => some none
    | .conflict | .identity _ | .acceptance _ | .compatible .. => true
  leaves _ := none
  fails o s := match o with
    | .look .journal => if reads then none else some .osError
    | .create (.extraction t) _ =>
      if s (.backup t) |>.isSome then some .osError
      else match s .active with
        | some (.dir d) => if d.origin = some t then some .osError else none
        | _ => none
    | _ => none

def names : Names := ⟨7, 8, 9⟩

theorem fresh_of_accepting {reads : Bool} {t : ℕ} {n : Node ℕ} {s : Disk ℕ}
    (h : (accepting reads).fails (.create (.extraction t) n) s = none) : Fresh t s := by
  simp only [accepting] at h
  split at h
  case isTrue => exact nomatch h
  rename_i hbackup
  refine ⟨Option.not_isSome_iff_eq_none.mp hbackup, fun d hd horigin => ?_⟩
  rw [hd] at h
  simp [horigin] at h

theorem accepting_picks {truth : Prop} {reads : Bool} (hreads : reads = true → ¬truth) (k : Call) :
    ((accepting reads).script journals).Picks ((guarded ℕ "active" truth).handler k) := by
  intro o s
  refine ⟨script_picks (.inl rfl) o s, ?_⟩
  cases o with
  | look p =>
    cases p with
    | journal =>
      cases reads with
      | true => exact fun htruth => absurd htruth (hreads rfl)
      | false => trivial
    | _ => trivial
  | create p n =>
    cases p with
    | extraction t =>
      unfold Outside.script
      split
      · trivial
      · rename_i hfails
        by_cases hthere : (s.1 (.extraction t)).isSome = true
        · simp only [Outside.act, if_pos hthere]
          trivial
        · simp only [Outside.act, if_neg hthere]
          exact fresh_of_accepting hfails
    | _ => trivial
  | _ => trivial

/-- The update is killed after so many operations. -/
def killed (steps : ℕ) : Disk ℕ × Seen ℕ :=
  (((crashing ℕ "active").body (.apply names)).playFor ((accepting true).script journals) steps
    (diskBefore, .start)).2

theorem exec_killed (steps : ℕ) : ∃ p, Exec ((guarded ℕ "active" False).handler (.apply names))
    ((guarded ℕ "active" False).body (.apply names)) (diskBefore, .start) p (killed steps) :=
  ⟨_, exec_playFor (accepting_picks (fun _ => id) (.apply names)) steps _ _⟩

theorem session_killed (steps : ℕ) : Session (guarded ℕ "active" False) (diskBefore, .start)
    [.crashed (.apply names)] (killed steps) := by
  obtain ⟨p, hexec⟩ := exec_killed steps
  exact .crashed _ p hexec (.nil _)

/-- Killed when the candidate has just become active, the update is rolled back. -/
theorem recovery_converges_iff_killed :
    (∃ r s₂, Runs undisturbed (recoverIncompleteUpdate "active" 10) (killed 20) r s₂) ∧
    ∀ r s₂, Runs undisturbed (recoverIncompleteUpdate "active" 10) (killed 20) r s₂ →
      Converges release (killed 20) r s₂ := by
  have h := recovery_converges_iff (u := 10) diskBefore_beginning (session_killed 20) rfl
  refine ⟨h.1, fun r s₂ hr => (h.2 r s₂ hr).mpr fun j t hj hbackup _ => ?_⟩
  have hjournal : (killed 20).1 .journal =
      some (.journal (opened "active" 7 "CANDIDATE_PROMOTED")) := rfl
  obtain rfl := Node.journal.inj (Option.some.inj (hjournal.symm.trans hj))
  obtain rfl : 7 = t := Option.some.inj hbackup
  rfl

/-- The recovery after it is killed, too, when it has just put the old release back. -/
def recoveryKilled : Disk ℕ × Seen ℕ :=
  (((crashing ℕ "active").body (.recover 10)).playFor ((accepting true).script journals) 7
    (killed 20)).2

theorem session_recoveryKilled : Session (guarded ℕ "active" False) (diskBefore, .start)
    [.crashed (.apply names), .crashed (.recover 10)] recoveryKilled := by
  obtain ⟨p, hexec⟩ := exec_killed 20
  have hrecovery : ∃ p', Exec ((guarded ℕ "active" False).handler (.recover 10))
      ((guarded ℕ "active" False).body (.recover 10)) (killed 20) p' recoveryKilled :=
    ⟨_, exec_playFor (accepting_picks (fun _ => id) (.recover 10)) 7 _ _⟩
  obtain ⟨p', hexec'⟩ := hrecovery
  exact .crashed _ p hexec (.crashed _ p' hexec' (.nil _))

/-- **A recovery that is killed at the wrong moment is the last one**: the old release is active,
and yet every further recovery raises. -/
theorem recovery_stuck :
    ¬∀ (s : Disk ℕ) tr s₁ u, Beginning release s →
      Session (guarded ℕ "active" False) (s, .start) tr s₁ → s₁.1 (.failed u) = none →
      ∀ r s₂, Runs undisturbed (recoverIncompleteUpdate "active" u) s₁ r s₂ →
        Converges release s₁ r s₂ := by
  intro h
  have hname : (recoveryKilled.1 (.failed 11)).isNone = true := by decide
  let e : Outside (releases ℕ) := { accepting true with fails := fun _ _ => none }
  have hpicks : (e.script journals).Picks undisturbed := script_picks (.inr fun _ _ => rfl)
  have hruns := runs_play hpicks (recoverIncompleteUpdate "active" 11) recoveryKilled
  obtain ⟨res, hres⟩ := (h _ _ _ 11 diskBefore_beginning session_recoveryKilled
    (Option.isNone_iff_eq_none.mp hname) _ _ hruns).returns
  have hraises : ((recoverIncompleteUpdate "active" 11).play (e.script journals)
    recoveryKilled).1.toBool = false := by decide
  rw [hres] at hraises
  exact nomatch hraises

/-- The update when nothing goes wrong. -/
def finished : Disk ℕ × Seen ℕ :=
  (((crashing ℕ "active").body (.apply names)).play ((accepting false).script journals)
    (diskBefore, .start)).2

theorem chain_tells_truth_finished :
    finished.1 .active = some (.dir ⟨some 7, 2⟩) ∧ Truthful release [] finished :=
  ⟨rfl, chain_tells_truth diskBefore_beginning
    (.done _ _ (runs_play (accepting_picks nofun (.apply names)) _ _) (.nil _)) rfl⟩

/-- The recovery of an update that was killed behind its acceptance. -/
def rolledBack : Disk ℕ × Seen ℕ :=
  (((crashing ℕ "active").body (.recover 10)).play ((accepting true).script journals)
    (killed 34)).2

theorem session_rolledBack : ∃ r, Session (guarded ℕ "active" False) (diskBefore, .start)
    [.crashed (.apply names), .done (.recover 10) r] rolledBack := by
  obtain ⟨p, hexec⟩ := exec_killed 34
  have hrecovery : ∃ r, Runs ((guarded ℕ "active" False).handler (.recover 10))
      ((guarded ℕ "active" False).body (.recover 10)) (killed 34) r rolledBack :=
    ⟨_, runs_play (accepting_picks (fun _ => id) (.recover 10)) _ _⟩
  obtain ⟨r, hruns⟩ := hrecovery
  exact ⟨r, .crashed _ p hexec (.done _ r hruns (.nil _))⟩

/-- **The acceptance survives, and the update does not.** -/
theorem acceptance_survives :
    ¬∀ (s : Disk ℕ) tr s₁, Beginning release s →
      Session (guarded ℕ "active" False) (s, .start) tr s₁ → s₁.1 .journal = none →
      Truthful release (accepted s) s₁ := by
  intro h
  obtain ⟨r, hsession⟩ := session_rolledBack
  have hjournal : (rolledBack.1 .journal).isNone = true := by decide
  have htold := (h _ _ _ diskBefore_beginning hsession
    (Option.isNone_iff_eq_none.mp hjournal)).told
  have hleft : accepted rolledBack.1 = [7] ∧ rolledBack.2.tokens = [] := by decide
  rw [hleft.1, hleft.2] at htold
  exact nomatch htold

end Killed

end Kripto.Deploy.ReleaseUpdate
