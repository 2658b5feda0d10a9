/-
# Is the operation lock exclusive?

Not in every interleaving: `recover_stale_lock` reads the lock a second time and then unlinks
whatever is at the path.  Between the two, another process that found the same stale lock can have
removed it and created its own.

* `lock_exclusive`: in every run in which the unlink of a recovery finds the lock that was read
  again, the refresh of a heartbeat replaces no lock of somebody else, and whoever identifies a
  process that lives arrives at the identity that process has given itself, at most one living
  process is in the with-body.

`two_inside` is the run of two processes that recover the same lock.  A refresh can replace a lock
of somebody else where the body raised while its heartbeat hung; identities can differ where one
process has psutil and another has not.
-/
import Kripto.Deploy.LockProtocol
import Kripto.Effect.Play
import Mathlib.Data.Fintype.Option

namespace Kripto.Deploy.OperationLock

open Effect

variable {ι : Type}

/-! ## 1. Recovery -/

section Recovery

variable [DecidableEq ι] {m : Machine ι} {t u : ι} {token : String} {p : Payload} {s : World ι}

/-- **A stale lock is removed**: it is still the one of a dead process. -/
theorem wp_unlink_stale (h : Dead u token s) :
    wp (stepOf m (.main t)) (exclusive m) (.main t) (perform (.unlink (.stale token)))
      (fun _ _ => True) s := by
  refine wp_perform (firm_dead (m := m)).stable h ?_
  rintro s₁ r s₂ hdead hi ⟨⟨rfl, hsome, rfl⟩ | ⟨-, -, rfl⟩, -, hcurrent⟩
  · have hhas : s₁.Has token := hcurrent.resolve_left hsome
    have hfree : ∀ v, s₁.alive v = true → ¬ s₁.Holds v := by
      intro v hlive hholds
      obtain rfl : u = v := World.Holds.unique (Or.inr ⟨token, hdead.1, hhas⟩) hholds
      rw [hdead.2] at hlive
      cases hlive
    refine ⟨leaves_file none fun v _ => hfree v, ?_, trivial⟩
    exact hi.file (fun p hp => by cases hp) fun v hlive hholds => absurd hholds (hfree v hlive)
  · exact ⟨Leaves.refl _ _, hi, trivial⟩

theorem wp_removeStale (age : ℚ) (state : OwnerState) (h : Dead u p.token s) :
    wp (stepOf m (.main t)) (exclusive m) (.main t) (removeStale p age state)
      (fun _ _ => True) s := by
  refine wp_bind.mpr (wp_mono ?_ (wp_quiet firm_dead within_readLock h))
  rintro (e | current) s₁ hdead
  · trivial
  dsimp only [onOk]
  split
  · trivial
  refine wp_bind.mpr (wp_mono ?_ (wp_unlink_stale hdead))
  rintro (e | a) s₂ - <;> trivial

/-- The state of the owner, for any lock that was read. -/
theorem wp_ownerState_owned (hu : s.issued p.token = some u)
    (hp : s.alive u = true → m.Describes u p) :
    wp (stepOf m (.main t)) (exclusive m) (.main t) (ownerState p) (fun r s' => ∀ state,
      r = .ok state → state.kept = none → Dead u p.token s') s := by
  by_cases hdescribes : m.Describes u p
  · refine wp_mono ?_ (wp_and (wp_quiet firm_drawn (within_ownerState p) hu)
      (wp_ownerState hdescribes))
    exact fun r s' h state hstate hkept => ⟨h.1, h.2 state hstate hkept⟩
  · have hdead : s.alive u = false := Bool.eq_false_iff.mpr fun hlive => hdescribes (hp hlive)
    refine wp_mono ?_ (wp_quiet firm_dead (within_ownerState p) ⟨hu, hdead⟩)
    exact fun r s' h _ _ _ => h

theorem wp_recoverFrom (minimumAge : ℚ) (h : Owned m p s) :
    wp (stepOf m (.main t)) (exclusive m) (.main t) (recoverFrom minimumAge p)
      (fun _ _ => True) s := by
  obtain ⟨u, hu, hp⟩ := h
  refine wp_bind.mpr (wp_mono ?_ (wp_ownerState_owned hu hp))
  rintro (e | state) s₁ hstate
  · trivial
  dsimp only [onOk]
  split
  · trivial
  rename_i hkept
  have hdead : Dead u p.token s₁ := hstate state rfl hkept
  refine wp_bind.mpr (wp_mono ?_ (wp_quiet firm_dead (within_leaseEpoch _ p) hdead))
  rintro (e | lease) s₂ hdead
  · trivial
  refine wp_bind.mpr (wp_mono ?_ (wp_quiet firm_dead within_wallClockEpoch hdead))
  rintro (e | now) s₃ hdead
  · trivial
  dsimp only [onOk]
  split
  · trivial
  · exact wp_removeStale _ _ hdead

theorem wp_recoverStaleLock (minimumAge : ℚ) :
    wp (stepOf m (.main t)) (exclusive m) (.main t) (recoverStaleLock minimumAge)
      (fun _ _ => True) s := by
  refine wp_bind.mpr (wp_mono ?_ (wp_quiet firm_true within_present trivial))
  rintro (e | there) s₁ -
  · trivial
  dsimp only [onOk]
  split
  · refine wp_bind.mpr (wp_mono ?_ wp_readLock)
    rintro (e | p) s₂ howned
    · trivial
    · exact wp_recoverFrom minimumAge (howned p rfl)
  · trivial

theorem wp_recoverIfAsked (args : LockArgs) :
    wp (stepOf m (.main t)) (exclusive m) (.main t) (recoverIfAsked args) (fun _ _ => True) s := by
  unfold recoverIfAsked
  split
  · refine wp_bind.mpr (wp_mono ?_ (wp_quiet firm_true within_present trivial))
    rintro (e | there) s₁ -
    · trivial
    dsimp only [onOk]
    split
    · exact wp_bind_pure (wp_recoverStaleLock _)
    · trivial
  · trivial

end Recovery

/-! ## 2. Taking the lock and giving it back -/

section Taking

variable [DecidableEq ι] {m : Machine ι} {t : ι} {token : String} {p : Payload} {s : World ι}

omit [DecidableEq ι] in
/-- What a process holds nobody else does. -/
theorem leaves_held {c : Option (Content ι)} (h : s.Holds t) :
    Leaves (fun u => Thread.main t ≠ .main u) s { s with file := c } :=
  leaves_file c fun _ hu _ hholds => hu (congrArg Thread.main (h.unique hholds))

omit [DecidableEq ι] in
theorem Inv.held {c : Option (Content ι)} (hi : Inv m s) (h : s.Holds t)
    (hout : s.inside t = none) (hc : ∀ p, c = some (.text p) → Owned m p s) :
    Inv m { s with file := c } := by
  refine hi.file hc fun u _ hholds => ?_
  obtain rfl := h.unique hholds
  exact hout

omit [DecidableEq ι] in
theorem Claimed.holds (h : Claimed t token s) (hlive : s.alive t = true) : s.Holds t :=
  (h.file hlive).imp id fun hhas => ⟨token, h.issued, hhas⟩

/-- A process unlinks the file it has claimed. -/
theorem wp_unlink_claimed (why : Removal) (h : Claimed t token s) :
    wp (stepOf m (.main t)) (exclusive m) (.main t) (perform (.unlink why))
      (fun _ _ => True) s := by
  refine wp_perform firm_claimed.stable h ?_
  rintro s₁ r s₂ hclaimed hi ⟨⟨rfl, hsome, rfl⟩ | ⟨-, -, rfl⟩, ⟨hlive, -⟩, -⟩
  · have hholds := hclaimed.holds hlive
    exact ⟨leaves_held hholds, hi.held hholds hclaimed.inside fun p hp => (by cases hp), trivial⟩
  · exact ⟨Leaves.refl _ _, hi, trivial⟩

omit [DecidableEq ι] in
theorem Locked.claimed (h : Locked t token none s) : Claimed t token s :=
  ⟨h.issued, h.inside, fun hlive => Or.inr (h.lock hlive)⟩

theorem wp_uuid4 :
    wp (stepOf m (.main t)) (exclusive m) (.main t) (perform .uuid4)
      (fun r s' => ∀ token, r = .ok token → Drawn t token s') s := by
  refine wp_perform_iff.mpr ?_
  rintro s₁ - hi r s₂ ⟨⟨token, rfl, hfresh, rfl⟩ | ⟨-, ⟨e, rfl⟩, rfl⟩, -⟩
  · have hissued : ∀ token' u, s₁.issued token' = some u →
        Function.update s₁.issued token (some t) token' = some u := by
      intro token' u hu
      by_cases htoken : token' = token
      · subst htoken
        rw [hfresh] at hu
        cases hu
      · rwa [Function.update_of_ne htoken]
    refine ⟨⟨⟨fun _ => id, hissued⟩, fun _ _ => ⟨rfl, fun _ => id, fun _ _ _ => id⟩⟩, ⟨?_, ?_⟩, ?_⟩
    · intro p hp
      obtain ⟨u, hu, hdescribes⟩ := hi.owned p hp
      exact ⟨u, hissued _ _ hu, hdescribes⟩
    · intro u token' hlive hin
      obtain ⟨hu, hhas⟩ := hi.inside u token' hlive hin
      exact ⟨hissued _ _ hu, hhas⟩
    · rintro _ ⟨rfl⟩
      exact Function.update_self ..
  · refine ⟨Leaves.refl _ _, hi, fun token htoken => by cases htoken⟩

/-- The file is created where there was none. -/
theorem wp_openExcl (h : Drawn t token s) :
    wp (stepOf m (.main t)) (exclusive m) (.main t) (perform .openExcl) (fun r s' =>
      r = .ok () → Claimed t token s') s := by
  refine wp_perform firm_drawn.stable h ?_
  rintro s₁ r s₂ hdrawn hi ⟨⟨rfl, hnone, rfl⟩ | ⟨-, ⟨e, rfl⟩, rfl⟩, ⟨hlive, -⟩, -⟩
  · have hfree : ∀ u, ¬ s₁.Holds u := by
      rintro u (hu | ⟨token', -, hhas⟩)
      · rw [hnone] at hu
        cases hu
      · rw [World.Has, hnone] at hhas
        cases hhas
    refine ⟨leaves_file _ fun u _ _ => hfree u, ?_, fun _ => ⟨hdrawn, ?_, fun _ => Or.inl rfl⟩⟩
    · exact hi.file (fun p hp => by cases hp) fun u _ hholds => absurd hholds (hfree u)
    · by_contra hin
      exact hfree t (hi.holds hlive hin)
  · exact ⟨Leaves.refl _ _, hi, fun hok => by cases hok⟩

/-- What is written into the file says who the process is. -/
theorem wp_write (h : Claimed t p.token s) (hp : m.Describes t p) :
    wp (stepOf m (.main t)) (exclusive m) (.main t) (perform (.write p)) (fun r s' =>
      Claimed t p.token s' ∧ (r = .ok () → Locked t p.token none s')) s := by
  refine wp_perform firm_claimed.stable h ?_
  rintro s₁ r s₂ hclaimed hi ⟨hdoes | ⟨-, ⟨e, rfl⟩, rfl⟩, ⟨hlive, -⟩, -⟩
  · replace hdoes : s₂ = s₁.written t p := hdoes
    by_cases hfile : s₁.file = some (.unfinished t)
    · rw [World.written, if_pos hfile] at hdoes
      subst hdoes
      have hholds := hclaimed.holds hlive
      refine ⟨leaves_held hholds, hi.held hholds hclaimed.inside ?_, ?_, fun _ => ?_⟩
      · rintro _ ⟨rfl⟩
        exact ⟨t, hclaimed.issued, fun _ => hp⟩
      · exact ⟨hclaimed.issued, hclaimed.inside, fun _ => Or.inr rfl⟩
      · exact ⟨hclaimed.issued, hclaimed.inside, fun _ => rfl⟩
    · rw [World.written, if_neg hfile] at hdoes
      subst hdoes
      refine ⟨Leaves.refl _ _, hi, hclaimed, fun _ => ⟨hclaimed.issued, hclaimed.inside, ?_⟩⟩
      exact fun hlive => (hclaimed.file hlive).resolve_left hfile
  · exact ⟨Leaves.refl _ _, hi, hclaimed, fun hok => by cases hok⟩

/-- **The lock is created**, or it is not. -/
theorem wp_createLock (h : Drawn t p.token s) (hp : m.Describes t p) :
    wp (stepOf m (.main t)) (exclusive m) (.main t) (createLock p) (fun r s' =>
      r = .ok () → Locked t p.token none s') s := by
  refine wp_tryCatch.mpr (wp_bind.mpr (wp_mono ?_ (wp_quiet firm_drawn (within_ask _) h)))
  have hbusy : ∀ e s', wp (stepOf m (.main t)) (exclusive m) (.main t)
      (if e = Raised.fileExistsError then do
        let existing ← readLock
        raiseError ("OPERATION_LOCK_BUSY:" ++ existing.operation ++ ":" ++ toString existing.pid)
      else .raise e) (fun r s' => r = .ok () → Locked t p.token none s') s' := by
    intro e s'
    split
    · refine wp_bind.mpr (wp_mono ?_ (wp_quiet firm_true within_readLock trivial))
      rintro (e | existing) s₁ - hok <;> cases hok
    · intro hok
      cases hok
  rintro (e | a) s₁ hdrawn
  · exact hbusy e s₁
  refine wp_bind.mpr (wp_mono ?_ (wp_openExcl hdrawn))
  rintro (e | a) s₂ hclaimed
  · exact hbusy e s₂
  refine wp_tryCatch.mpr (wp_mono ?_ (wp_write (hclaimed rfl) hp))
  rintro (e | a) s₃ ⟨hclaimed, hlocked⟩
  · refine wp_bind.mpr (wp_tryCatch.mpr (wp_mono ?_ (wp_unlink_claimed .unwritten hclaimed)))
    rintro (e' | a) s₄ -
    · dsimp only [onError]
      split
      · exact hbusy e s₄
      · exact hbusy e' s₄
    · exact hbusy e s₄
  · exact hlocked

/-- The others do not mind where a process is. -/
theorem leaves_inside (i : Option String) :
    Leaves (fun u => Thread.main t ≠ .main u) s
      { s with inside := Function.update s.inside t i } := by
  refine ⟨⟨fun _ => id, fun _ _ => id⟩, fun u hu => ⟨?_, fun _ => id, fun _ _ _ => id⟩⟩
  refine Function.update_of_ne ?_ _ _
  rintro rfl
  exact hu rfl

theorem Inv.moved {i : Option String} (hi : Inv m s)
    (h : ∀ token, i = some token → s.issued token = some t ∧ s.Has token) :
    Inv m { s with inside := Function.update s.inside t i } := by
  refine ⟨hi.owned, fun u token hlive hin => ?_⟩
  by_cases hu : u = t
  · subst hu
    exact h token (by simpa using hin)
  · exact hi.inside u token hlive (by simpa [Function.update_of_ne hu] using hin)

/-- Whoever has the lock may go in. -/
theorem wp_enter (h : Locked t token none s) :
    wp (stepOf m (.main t)) (exclusive m) (.main t) (perform (.enter token)) (fun _ s' =>
      Locked t token (some token) s') s := by
  refine wp_perform firm_locked.stable h ?_
  rintro s₁ r s₂ hlocked hi ⟨⟨rfl, hentered⟩ | ⟨hno, -⟩, ⟨hlive, -⟩, -⟩
  · obtain rfl : s₂ = { s₁ with inside := Function.update s₁.inside t (some token) } := hentered
    refine ⟨leaves_inside _, hi.moved ?_, hlocked.issued, Function.update_self .., hlocked.lock⟩
    rintro _ ⟨rfl⟩
    exact ⟨hlocked.issued, hlocked.lock hlive⟩
  · exact hno.elim

theorem wp_leave (h : Locked t token (some token) s) :
    wp (stepOf m (.main t)) (exclusive m) (.main t) (perform .leave) (fun _ s' =>
      Locked t token none s') s := by
  refine wp_perform firm_locked.stable h ?_
  rintro s₁ r s₂ hlocked hi ⟨hleft | ⟨hno, -⟩, -⟩
  · obtain rfl : s₂ = { s₁ with inside := Function.update s₁.inside t none } := hleft
    exact ⟨leaves_inside _, hi.moved (fun _ h => by cases h), hlocked.issued,
      Function.update_self .., hlocked.lock⟩
  · exact hno.elim

/-- **The lock is given back**, after a body that returned. -/
theorem wp_releaseReturned (boot start : String) (beat : Joined) (h : Locked t token none s) :
    wp (stepOf m (.main t)) (exclusive m) (.main t) (releaseReturned token boot start beat)
      (fun _ _ => True) s := by
  unfold releaseReturned
  split
  · trivial
  split
  · trivial
  refine wp_bind.mpr (wp_tryCatch.mpr (wp_mono ?_ (wp_quiet firm_locked within_readLock h)))
  rintro (e | current) s₁ hlocked
  · dsimp only [onError]
    split <;> trivial
  refine wp_bind.mpr (wp_mono ?_ (wp_quiet firm_locked (within_stillOwn _ _ _ _) hlocked))
  rintro (e | a) s₂ hlocked
  · trivial
  · exact wp_unlink_claimed .own hlocked.claimed

theorem wp_releaseRaised (boot start : String) (e : Raised) (h : Locked t token none s) :
    wp (stepOf m (.main t)) (exclusive m) (.main t) (releaseRaised token boot start e)
      (fun _ _ => True) s := by
  refine wp_bind.mpr (wp_tryCatch.mpr (wp_bind.mpr
    (wp_mono ?_ (wp_quiet firm_locked within_readLock h))))
  rintro (e' | current) s₁ hlocked
  · cases e' <;> trivial
  rw [onOk_ok, wp_pure, onError_ok, onOk_ok]
  dsimp only
  split
  · refine wp_bind.mpr (wp_mono ?_ (wp_unlink_claimed .own hlocked.claimed))
    rintro (e' | a) s₂ - <;> trivial
  · trivial

theorem wp_body (boot start : String) (h : Locked t token none s) :
    wp (stepOf m (.main t)) (exclusive m) (.main t) (body token boot start)
      (fun _ _ => True) s := by
  refine wp_bind.mpr (wp_mono ?_ (wp_enter h))
  rintro (e | a) s₁ hlocked
  · trivial
  refine wp_bind.mpr (wp_attempt.mpr (wp_mono ?_ (wp_leave hlocked)))
  intro outcome s₂ hlocked
  have hstop : (perform (.stop token) : Program Joined).Within Op.Quiet :=
    Prog.within_perform.mpr trivial
  refine wp_bind.mpr (wp_mono ?_ (wp_quiet firm_locked hstop hlocked))
  rintro (e | beat) s₃ hlocked
  · trivial
  cases outcome with
  | ok a => exact wp_releaseReturned boot start beat hlocked
  | error e => exact wp_releaseRaised boot start e hlocked

theorem wp_acquire (operation : String) :
    wp (stepOf m (.main t)) (exclusive m) (.main t)
      (acquire operation (m.pid t) (m.boot t) (m.start t)) (fun _ _ => True) s := by
  refine wp_bind.mpr (wp_mono ?_ wp_uuid4)
  rintro (e | token) s₁ hdrawn
  · trivial
  replace hdrawn := hdrawn token rfl
  refine wp_bind.mpr (wp_mono ?_ (wp_quiet firm_drawn within_wallClockEpoch hdrawn))
  rintro (e | now) s₂ hdrawn
  · trivial
  refine wp_bind.mpr (wp_ask_firm firm_drawn hdrawn fun s₃ r hdrawn _ htrue _ => ?_)
  obtain rfl : r = .ok (m.host t) := htrue
  refine wp_bind.mpr (wp_mono ?_ (wp_createLock hdrawn ⟨rfl, rfl, rfl, rfl, rfl⟩))
  rintro (e | a) s₄ hlocked
  · trivial
  have hstart : (perform (.settle token .resting) : Program Unit).Within Op.Quiet :=
    Prog.within_perform.mpr trivial
  refine wp_bind.mpr (wp_mono ?_ (wp_quiet firm_locked hstart (hlocked rfl)))
  rintro (e | a) s₅ hlocked
  · trivial
  · exact wp_body _ _ hlocked

theorem wp_operationLock (args : LockArgs) :
    wp (stepOf m (.main t)) (exclusive m) (.main t) (operationLock args) (fun _ _ => True) s := by
  refine wp_bind.mpr (wp_ask fun s₁ r _ _ _ => ?_)
  rcases r with e | safe
  · trivial
  dsimp only [onOk]
  split
  swap
  · trivial
  split
  · trivial
  refine wp_bind.mpr (wp_mono ?_ wp_bootIdentity)
  rintro (e | boot) s₂ hboot
  · trivial
  refine wp_bind.mpr (wp_ask fun s₃ r _ htrue _ => ?_)
  obtain ⟨rfl, -⟩ := htrue
  refine wp_bind.mpr (wp_mono ?_ (wp_processStartIdentity _))
  rintro (e | start) s₄ hstart
  · trivial
  cases boot with
  | none => trivial
  | some boot =>
    cases start with
    | none => trivial
    | some start =>
      obtain rfl : boot = m.boot t := (hboot boot rfl).own
      obtain rfl : start = m.start t := (hstart start rfl).own rfl
      refine wp_bind.mpr (wp_mono ?_ (wp_recoverIfAsked args))
      rintro (e | a) s₅ -
      · trivial
      · exact wp_acquire args.operation

end Taking

/-! ## 3. Heartbeats -/

section Heartbeats

variable [DecidableEq ι] {m : Machine ι} {x : Thread ι} {p : Payload} {s : World ι}

/-- **A refresh** puts a lock in the place of itself. -/
theorem wp_replace (h : Owned m p s) :
    wp (stepOf m x) (exclusive m) x (perform (.replace p)) (fun _ _ => True) s := by
  refine wp_perform firm_owned.stable h ?_
  rintro s₁ r s₂ howned hi ⟨⟨rfl, rfl⟩ | ⟨-, -, rfl⟩, -, hcurrent⟩
  · have hsame : ∀ token, s₁.Has token → token = p.token := by
      intro token hhas
      rcases hcurrent with hnone | hcurrent
      · rw [World.Has, hnone] at hhas
        cases hhas
      · exact hhas.unique hcurrent
    refine ⟨⟨⟨fun _ => id, fun _ _ => id⟩, fun t _ => ⟨rfl, ?_, ?_⟩⟩, ⟨?_, ?_⟩, trivial⟩
    · intro _ hfile
      rcases hcurrent with hnone | hcurrent
      · rw [hnone] at hfile
        cases hfile
      · rw [World.Has, hfile] at hcurrent
        cases hcurrent
    · intro _ token _ hhas
      exact congrArg some (hsame token hhas).symm
    · rintro _ ⟨rfl⟩
      exact howned
    · intro t token hlive hin
      obtain ⟨hissued, hhas⟩ := hi.inside t token hlive hin
      exact ⟨hissued, congrArg some (hsame token hhas).symm⟩
  · exact ⟨Leaves.refl _ _, hi, trivial⟩

theorem wp_atomicReplaceJson (h : Owned m p s) :
    wp (stepOf m x) (exclusive m) x (atomicReplaceJson p) (fun _ _ => True) s := by
  refine wp_bind.mpr (wp_mono ?_ (wp_quiet firm_owned within_present h))
  rintro (e | there) s₁ howned
  · trivial
  dsimp only [onOk]
  split
  swap
  · trivial
  refine wp_bind.mpr (wp_mono ?_ (wp_quiet firm_owned (within_ask _) howned))
  rintro (e | a) s₂ howned
  · trivial
  have htemp : ∀ e : Raised, (do tolerate (ask .unlinkTemp); .raise e : Program Unit).Within
      Op.Quiet := by
    refine fun e => ((within_ask _).tryCatch fun e' => ?_).bind fun _ => trivial
    split <;> trivial
  refine wp_tryCatch_kept (wp_bind.mpr (wp_mono ?_ (wp_quiet firm_owned (within_ask _) howned)))
    fun e s' _ => wp_quiet firm_true (htemp e) trivial
  rintro (e | a) s₃ howned
  · trivial
  · exact wp_replace howned

theorem wp_heartbeatTurn (token boot start : String) :
    wp (stepOf m x) (exclusive m) x (heartbeatTurn token boot start) (fun _ _ => True) s := by
  have hquiet : ∀ o : Op, o.Quiet → (perform o).Within Op.Quiet :=
    fun o ho => Prog.within_perform.mpr ho
  refine wp_bind.mpr (wp_mono ?_ (wp_quiet firm_true (hquiet (.wake token) trivial) trivial))
  rintro (e | a) s₁ -
  · trivial
  refine wp_bind.mpr (wp_attempt.mpr (wp_mono (Q := fun _ _ => True) ?_ ?_))
  · rintro (e | a) s₂ -
    · exact wp_quiet firm_true (hquiet (.settle token .off) trivial) trivial
    · exact wp_quiet firm_true (hquiet (.settle token .resting) trivial) trivial
  refine wp_bind.mpr (wp_mono ?_ wp_readLock)
  rintro (e | p) s₂ howned
  · trivial
  refine wp_bind.mpr (wp_mono ?_ (wp_quiet firm_owned (within_stillOwn p _ _ _) (howned p rfl)))
  rintro (e | a) s₃ howned
  · trivial
  refine wp_bind.mpr (wp_mono ?_ (wp_quiet firm_owned (within_nextHeartbeatEpoch p) howned))
  rintro (e | now) s₄ ⟨u, hu, hdescribes⟩
  · trivial
  refine wp_atomicReplaceJson ⟨u, hu, fun hlive => ?_⟩
  obtain ⟨hschema, hhost, hpid, hboot, hstart⟩ := hdescribes hlive
  exact ⟨hschema, hhost, hpid, hboot, hstart⟩

end Heartbeats

/-! ## 4. The result -/

section Result

variable [DecidableEq ι]

theorem entrants_obey (m : Machine ι) :
    Pool.Obeys ((entrants m).meeting (Guarded m)) (exclusive m) where
  start x p s hp _ := by
    cases x with
    | main t =>
      obtain ⟨args, rfl⟩ := hp
      exact wp_operationLock args
    | heart t k =>
      obtain ⟨token, boot, start, rfl⟩ := hp
      exact wp_heartbeatTurn token boot start
  env := by
    rintro s s' ⟨t, rfl⟩ hi
    have hlater : ∀ u, Function.update s.alive t false u = true → s.alive u = true := by
      intro u hu
      by_cases hut : u = t
      · subst hut
        simp at hu
      · rwa [Function.update_of_ne hut] at hu
    refine ⟨⟨fun p hp => ?_, fun u token hu hin => hi.inside u token (hlater u hu) hin⟩,
      fun x => ⟨⟨hlater, fun _ _ => id⟩, fun _ _ => ⟨rfl, fun _ => id, fun _ _ _ => id⟩⟩⟩
    obtain ⟨u, hu, hdescribes⟩ := hi.owned p hp
    exact ⟨u, hu, fun hlive => hdescribes (hlater u hlive)⟩

/-- **At most one living process is in the with-body**, in every state of every run that meets the
conditions: any number of processes, entering as often as they like, recovering or not, from no
lock or from the lock of a dead process. -/
theorem lock_exclusive (m : Machine ι) (s : World ι) (hs : Beginning s)
    (c : Pool (Thread ι) lockSig (World ι) Unit)
    (h : Pool.Reaches ((entrants m).meeting (Guarded m)) (Pool.idle s) c) :
    Exclusive c.shared :=
  (Pool.sound (entrants_obey m) (Pool.safe_idle (hs.inv m)) h).inv.exclusive

end Result

/-! ## 5. Two processes -/

section Two

/-- A stale lock of a process that is dead, and two processes that live. -/
abbrev Third : Type := Option Bool

def pidOf : Third → ℤ
  | none => 1
  | some false => 2
  | some true => 3

theorem pidOf_injective : Function.Injective pidOf := by decide

def machine : Machine Third where
  host _ := "h"
  pid := pidOf
  boot _ := "linux-boot-id:b"
  start t := "psutil-create-time:" ++ toString (pidOf t)

def staleLock : Payload :=
  newPayload "release-update" "old" "h" "linux-boot-id:b" (machine.start none) 1 0

def leftBehind : World Third where
  file := some (.text staleLock)
  alive := Option.isSome
  beat _ := .off
  issued token := if token = "old" then some none else none
  inside _ := none

theorem beginning_leftBehind : Beginning leftBehind where
  stale := by
    rintro p ⟨⟩
    exact ⟨none, rfl, rfl⟩
  unfinished t h := by cases h
  outside _ := rfl

/-- The answers of the system around. -/
def reply (t : Third) : (q : Ask) → World Third → Except Raised q.Answer
  | .directorySafe, _ => .ok true
  | .getpid, _ => .ok (pidOf t)
  | .hostname, _ => .ok "h"
  | .bootIdFile, _ => .ok "b"
  | .bootTime, _ => .ok "1"
  | .createTime pid, _ => .ok (toString pid)
  | .statFields _, _ => .ok []
  | .instanceId, _ => .ok "1"
  | .kill pid, s =>
    if ∃ u, s.alive u = true ∧ pidOf u = pid then .ok () else .error .processLookupError
  | .time, _ => .ok (some 100)
  | .nextafter epoch, _ => .ok (some (epoch + 1))
  | .mkdir, _ => .ok ()
  | .openTemp, _ => .ok ()
  | .writeTemp, _ => .ok ()
  | .unlinkTemp, _ => .ok ()

/-- Everything works that can. -/
def cooperate (t : Third) : Script lockSig (World Third)
  | .ask q, s => (reply t q s, s)
  | .present, s => (.ok s.file.isSome, s)
  | .readText, s => match s.file with
    | some c => (.ok c.payload, s)
    | none => (.error .fileNotFoundError, s)
  | .openExcl, s => match s.file with
    | none => (.ok (), { s with file := some (.unfinished t) })
    | some _ => (.error .fileExistsError, s)
  | .write p, s => (.ok (), s.written t p)
  | .replace p, s => (.ok (), { s with file := some (.text p) })
  | .unlink _, s => match s.file with
    | some _ => (.ok (), { s with file := none })
    | none => (.error .fileNotFoundError, s)
  | .uuid4, s =>
    let token := if s.issued "a" = none then "a" else "b"
    if s.issued token = none then
      (.ok token, { s with issued := Function.update s.issued token (some t) })
    else (.error .osError, s)
  | .wake token, s =>
    if s.beat token = .resting then
      (.ok (), { s with beat := Function.update s.beat token .refreshing })
    else (.error .osError, s)
  | .settle token b, s => (.ok (), { s with beat := Function.update s.beat token b })
  | .stop token, s =>
    if s.beat token = .refreshing then (.ok ⟨true, none⟩, s)
    else (.ok ⟨false, none⟩, { s with beat := Function.update s.beat token .off })
  | .enter token, s => (.ok (), { s with inside := Function.update s.inside t (some token) })
  | .leave, s => (.ok (), { s with inside := Function.update s.inside t none })

theorem reply_truthful (t : Third) (q : Ask) (s : World Third) :
    Truthful machine t q s (reply t q s) := by
  cases q with
  | getpid => exact ⟨rfl, fun u _ _ hpid => pidOf_injective hpid⟩
  | hostname => rfl
  | kill pid =>
    intro hlookup u hlive _ hpid
    rw [reply, if_pos ⟨u, hlive, hpid⟩] at hlookup
    cases hlookup
  | _ => trivial

theorem cooperate_picks (t : Third) : (cooperate t).Picks (handler machine t) := by
  intro o s
  cases o with
  | ask q => exact Or.inl ⟨reply_truthful t q s, rfl⟩
  | present => exact Or.inl ⟨rfl, rfl⟩
  | readText =>
    cases hfile : s.file with
    | none =>
      simp only [cooperate, hfile]
      exact Or.inr ⟨trivial, ⟨_, rfl⟩, rfl⟩
    | some c =>
      simp only [cooperate, hfile]
      exact Or.inl ⟨⟨c, hfile, rfl⟩, rfl⟩
  | openExcl =>
    cases hfile : s.file with
    | none =>
      simp only [cooperate, hfile]
      exact Or.inl ⟨rfl, hfile, rfl⟩
    | some c =>
      simp only [cooperate, hfile]
      exact Or.inr ⟨trivial, ⟨_, rfl⟩, rfl⟩
  | write p => exact Or.inl rfl
  | replace p => exact Or.inl ⟨rfl, rfl⟩
  | unlink why =>
    cases hfile : s.file with
    | none =>
      simp only [cooperate, hfile]
      exact Or.inr ⟨trivial, ⟨_, rfl⟩, rfl⟩
    | some c =>
      simp only [cooperate, hfile]
      exact Or.inl ⟨rfl, by simp [hfile], rfl⟩
  | uuid4 =>
    simp only [cooperate]
    generalize (if s.issued "a" = none then "a" else "b") = token
    split
    · rename_i hfresh
      exact Or.inl ⟨token, rfl, hfresh, rfl⟩
    · exact Or.inr ⟨trivial, ⟨_, rfl⟩, rfl⟩
  | wake token =>
    simp only [cooperate]
    split
    · rename_i hresting
      exact Or.inl ⟨rfl, hresting, rfl⟩
    · exact Or.inr ⟨trivial, ⟨_, rfl⟩, rfl⟩
  | settle token b => exact Or.inl ⟨rfl, rfl⟩
  | stop token =>
    simp only [cooperate]
    split
    · exact Or.inl ⟨_, rfl, Or.inl ⟨rfl, rfl⟩⟩
    · rename_i hquiet
      exact Or.inl ⟨_, rfl, Or.inr ⟨rfl, hquiet, rfl⟩⟩
  | enter token => exact Or.inl ⟨rfl, rfl⟩
  | leave => exact Or.inl rfl

instance (t u : Third) (q : Ask) (x : String) : Decidable (machine.Identified t u q x) := by
  cases q <;> unfold Machine.Identified <;> infer_instance

instance (t : Third) (o : Op) (s : World Third) (r : lockSig.Ans o) :
    Decidable (Agrees machine t o s r) := by
  unfold Agrees
  split <;> infer_instance

instance (o : Op) (s : World Third) : Decidable (Current o s) := by
  unfold Current
  split <;> infer_instance

instance (x : Thread Third) (o : Op) (s : World Third) (r : lockSig.Ans o) :
    Decidable (Honest machine x o s r) :=
  inferInstanceAs (Decidable (_ ∧ _))

instance (x : Thread Third) (o : Op) (s : World Third) (r : lockSig.Ans o) :
    Decidable (Guarded machine x o s r) :=
  inferInstanceAs (Decidable (_ ∧ _))

def recovering : LockArgs := ⟨"release-update", true, 30, 5⟩

/-- The two processes under a schedule. -/
def entering (ms : List (Move (Thread Third) LockArgs)) :
    Pool (Thread Third) lockSig (World Third) Unit :=
  Pool.play (fun x => cooperate x.process) operationLock (Pool.idle leftBehind) ms

def acts (n : ℕ) (b : Bool) : List (Move (Thread Third) LockArgs) :=
  List.replicate n (.act (.main (some b)))

/-- Both enter and recover, and take turns of this many operations. -/
def turns (a b c d : ℕ) : List (Move (Thread Third) LockArgs) :=
  .spawn (.main (some false)) recovering :: .spawn (.main (some true)) recovering ::
    (acts a false ++ acts b true ++ acts c false ++ acts d true)

theorem starts_turns {a b c d : ℕ} {x : Thread Third} {k : LockArgs}
    (h : .spawn x k ∈ turns a b c d) : (entrants machine).start x (operationLock k) := by
  simp only [turns, acts, List.mem_cons, List.mem_append, List.mem_replicate, Move.spawn.injEq,
    reduceCtorEq, and_false, or_false] at h
  rcases h with ⟨rfl, rfl⟩ | ⟨rfl, rfl⟩ <;> exact ⟨recovering, rfl⟩

/-- One recovers the lock and goes in, and the other comes after it. -/
theorem lock_exclusive_turns : Exclusive (entering (turns 24 24 0 0)).shared :=
  lock_exclusive machine leftBehind beginning_leftBehind (entering (turns 24 24 0 0))
    (Pool.reaches_play_meeting (fun x => cooperate_picks x.process) _ _
      (fun _ _ => starts_turns) (by decide +kernel))

/-- **Two processes are in the with-body**, although identities agree: the second unlinks the new
lock of the first, having read the stale one again before. -/
theorem two_inside :
    ¬ ∀ c, Pool.Reaches ((entrants machine).meeting (Honest machine)) (Pool.idle leftBehind) c →
      Exclusive c.shared := by
  intro h
  have hreach : Pool.Reaches ((entrants machine).meeting (Honest machine)) (Pool.idle leftBehind)
      (entering (turns 15 15 9 9)) :=
    Pool.reaches_play_meeting (fun x => cooperate_picks x.process) _ _
      (fun _ _ => starts_turns) (by decide +kernel)
  have hsame := h _ hreach (some false) (some true) (by decide +kernel) (by decide +kernel)
    (by decide +kernel) (by decide +kernel)
  cases hsame

end Two

end Kripto.Deploy.OperationLock
