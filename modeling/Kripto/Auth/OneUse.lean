/-
# Is a reset token, or a recovery code, used once?

`consume_password_reset` and `login` read the row of a token that has not been used, and mark it
used in a later statement, whether it is still unused then or not.  Two calls that both read the
row before either commits both succeed.

* `one_use`: in every interleaving of such calls, with whatever others do that leaves used rows
  used, no token and no code is used twice if each commit finds what it uses unused.
* `one_returns`: then at most one of the calls with one token, or with one code, returns.

`reset_used_twice` is the run of two calls with one token.
-/
import Kripto.Auth.Commits
import Kripto.Effect.Play

namespace Kripto.Auth

open Effect Python

/-! ## 1. Callers -/

/-- When the row of a key was used, if there is one. -/
def World.usedAt (s : World) : Key → Option (Option ℚ)
  | .reset hash => (s.resets.lookup hash).map ResetRow.usedAt
  | .code hash => (s.codes.lookup hash).map CodeRow.usedAt

def Used (s : World) (key : Key) : Prop := ∃ at_, s.usedAt key = some (some at_)

def Unused (s : World) (key : Key) : Prop := s.usedAt key = some none

instance (s : World) (key : Key) : Decidable (Unused s key) := inferInstanceAs (Decidable (_ = _))

section Callers

variable [AuthRuntime] {ι : Type}

/-- **The callers** of `consume_password_reset` and `login`, as many as there are and each as often
as it likes.  Others may do anything but make a used row unused. -/
def callers (auth : DatabaseAuthService) : Pool.System ι authSig World Unit where
  handler := fun _ => handler
  start := fun _ p =>
    (∃ rawToken newPassword now,
      p = consumePasswordReset rawToken newPassword now >>= fun _ => pure ()) ∨
    ∃ a, p = login auth a >>= fun _ => pure ()
  env := fun s s' => ∀ key, Used s key → Used s' key

/-- A call succeeds with its commit: what it uses is noted then. -/
def noteUses (_ : ι) : (o : Op) → authSig.Ans o → List Key → List Key
  | .commit changes, .ok _, g => g ++ keysOf changes
  | _, _, g => g

/-- **The condition on a run**: a commit finds unused what it uses. -/
def FindsUnused (_ : ι) : (o : Op) → World × List Key → authSig.Ans o → Prop
  | .commit changes, s, _ => ∀ key ∈ keysOf changes, Unused s.1 key
  | _, _, _ => True

end Callers

/-! ## 2. What changes do to rows -/

variable {s : World} {key : Key} {change : Change} {changes : List Change}

/-- A row is used by a change that uses it, and left alone by the others. -/
theorem usedAt_applyOne (hclash : s.clashes change = false) (hrow : (s.usedAt key).isSome) :
    (s.applyOne change).usedAt key = s.usedAt key ∧ change.key? ≠ some key ∨
      change.key? = some key ∧ Used (s.applyOne change) key := by
  cases key with
  | reset hash =>
    cases change with
    | useReset hash' at_ =>
      by_cases hhash : hash = hash'
      · subst hhash
        obtain ⟨used, hused⟩ := Option.isSome_iff_exists.mp hrow
        obtain ⟨row, hlookup, -⟩ := Option.map_eq_some_iff.mp hused
        refine Or.inr ⟨rfl, at_, ?_⟩
        simp [World.usedAt, World.applyOne, Table.lookup_update, hlookup]
      · refine Or.inl ⟨?_, ?_⟩
        · simp [World.usedAt, World.applyOne, Table.lookup_update, hhash]
        · simp [Change.key?, Ne.symm hhash]
    | _ => exact Or.inl ⟨rfl, by simp [Change.key?]⟩
  | code hash =>
    cases change with
    | useCode hash' at_ =>
      by_cases hhash : hash = hash'
      · subst hhash
        obtain ⟨used, hused⟩ := Option.isSome_iff_exists.mp hrow
        obtain ⟨row, hlookup, -⟩ := Option.map_eq_some_iff.mp hused
        refine Or.inr ⟨rfl, at_, ?_⟩
        simp [World.usedAt, World.applyOne, Table.lookup_update, hlookup]
      · refine Or.inl ⟨?_, ?_⟩
        · simp [World.usedAt, World.applyOne, Table.lookup_update, hhash]
        · simp [Change.key?, Ne.symm hhash]
    | addCode hash' userId =>
      refine Or.inl ⟨?_, by simp [Change.key?]⟩
      have hhash : hash ≠ hash' := by
        rintro rfl
        simp only [World.clashes, Option.isSome_eq_false_iff, Option.isNone_iff_eq_none] at hclash
        simp [World.usedAt, hclash] at hrow
      simp [World.usedAt, World.applyOne, hhash]
    | _ => exact Or.inl ⟨rfl, by simp [Change.key?]⟩

theorem isSome_usedAt_of_used (h : Used s key) : (s.usedAt key).isSome := by
  obtain ⟨at_, hat⟩ := h
  rw [hat]
  rfl

/-- What is used stays used. -/
theorem used_applyOne (hclash : s.clashes change = false) (h : Used s key) :
    Used (s.applyOne change) key := by
  rcases usedAt_applyOne hclash (isSome_usedAt_of_used h) with ⟨hsame, -⟩ | ⟨-, hused⟩
  · obtain ⟨at_, hat⟩ := h
    exact ⟨at_, hsame.trans hat⟩
  · exact hused

theorem used_apply (hadmits : s.admits changes = true) (h : Used s key) :
    Used (s.apply changes) key := by
  induction changes generalizing s with
  | nil => exact h
  | cons change changes ih =>
    simp only [World.admits, Bool.and_eq_true, Bool.not_eq_true'] at hadmits
    exact ih hadmits.2 (used_applyOne hadmits.1 h)

/-- **A commit uses the rows it is to use**, if they are there. -/
theorem used_of_mem (hadmits : s.admits changes = true) (hrow : (s.usedAt key).isSome)
    (hkey : key ∈ keysOf changes) : Used (s.apply changes) key := by
  induction changes generalizing s with
  | nil => cases hkey
  | cons change changes ih =>
    simp only [World.admits, Bool.and_eq_true, Bool.not_eq_true'] at hadmits
    rcases usedAt_applyOne hadmits.1 hrow with ⟨hsame, hother⟩ | ⟨-, hused⟩
    · have hrest : key ∈ keysOf changes := by
        simp only [keysOf, List.mem_filterMap, List.mem_cons] at hkey ⊢
        obtain ⟨change', rfl | hmem, hchange⟩ := hkey
        · exact absurd hchange hother
        · exact ⟨change', hmem, hchange⟩
      exact ih hadmits.2 (by rw [hsame]; exact hrow) hrest
    · exact used_apply (s := s.applyOne change) hadmits.2 hused

/-! ## 3. The invariant -/

/-- What has been used is used, and has been used once. -/
structure UsedOnce (s : World × List Key) : Prop where
  once : ∀ key, s.2.count key ≤ 1
  used : ∀ key ∈ s.2, Used s.1 key

theorem UsedOnce.commit {g : List Key} (h : UsedOnce (s, g)) (hadmits : s.admits changes = true)
    (hnodup : (keysOf changes).Nodup) (hunused : ∀ key ∈ keysOf changes, Unused s key) :
    UsedOnce (s.apply changes, g ++ keysOf changes) := by
  constructor
  · intro key
    rw [List.count_append]
    by_cases hkey : key ∈ keysOf changes
    · have hnew : key ∉ g := by
        intro hold
        obtain ⟨at_, hat⟩ := h.used key hold
        have hnone : s.usedAt key = some none := hunused key hkey
        rw [show s.usedAt key = some (some at_) from hat] at hnone
        cases hnone
      have hzero : g.count key = 0 := List.count_eq_zero.mpr hnew
      have hone : (keysOf changes).count key ≤ 1 := List.nodup_iff_count_le_one.mp hnodup key
      omega
    · have hzero : (keysOf changes).count key = 0 := List.count_eq_zero.mpr hkey
      have hone : g.count key ≤ 1 := h.once key
      omega
  · intro key hkey
    rcases List.mem_append.mp hkey with hold | hnew
    · exact used_apply hadmits (h.used key hold)
    · refine used_of_mem hadmits ?_ hnew
      rw [show s.usedAt key = some none from hunused key hnew]
      rfl

theorem UsedOnce.of_rows {s s' : World × List Key} (h : UsedOnce s)
    (hresets : s'.1.resets = s.1.resets) (hcodes : s'.1.codes = s.1.codes) (hg : s'.2 = s.2) :
    UsedOnce s' := by
  have hrows : ∀ key, s'.1.usedAt key = s.1.usedAt key := by
    intro key
    cases key <;> simp [World.usedAt, hresets, hcodes]
  constructor
  · rw [hg]
    exact h.once
  · rw [hg]
    intro key hkey
    obtain ⟨at_, hat⟩ := h.used key hkey
    exact ⟨at_, (hrows key).trans hat⟩

/-! ## 4. A call succeeds with its commit -/

/-- Every way to a value leads through a commit that uses `key`, whatever is answered. -/
def UsesBeforeReturning {α : Type} (key : Key) : Program α → Prop
  | .ret _ => False
  | .raise _ => True
  | .op (.commit changes) k => ∀ r, (∃ u, r = .ok u) ∧ key ∈ keysOf changes ∨
      UsesBeforeReturning key (k r)
  | .op _ k => ∀ r, UsesBeforeReturning key (k r)

section Success

variable {α β : Type} {key : Key}

theorem UsesBeforeReturning.bind {p : Program α} {f : α → Program β}
    (h : ∀ a, UsesBeforeReturning key (f a)) : UsesBeforeReturning key (p >>= f) := by
  induction p with
  | ret a => exact h a
  | raise e => trivial
  | op o k ih =>
    cases o with
    | commit changes => exact fun r => Or.inr (ih r)
    | _ => exact fun r => ih r

theorem UsesBeforeReturning.andThen {p : Program α} {f : α → Program β}
    (h : UsesBeforeReturning key p) : UsesBeforeReturning key (p >>= f) := by
  induction p with
  | ret a => exact h.elim
  | raise e => trivial
  | op o k ih =>
    cases o with
    | commit changes => exact fun r => (h r).imp_right (ih r)
    | _ => exact fun r => ih r (h r)

theorem UsesBeforeReturning.commit {changes : List Change} {f : Unit → Program β}
    (h : key ∈ keysOf changes) : UsesBeforeReturning key (Auth.commit changes >>= f) := by
  rintro (e | u)
  · exact Or.inr trivial
  · exact Or.inl ⟨⟨u, rfl⟩, h⟩

variable [AuthRuntime]

/-- **A reset succeeds** only with a commit that uses its token. -/
theorem uses_consumePasswordReset (rawToken newPassword : String) (now : Option ℚ) :
    UsesBeforeReturning (.reset (AuthRuntime.sha256 rawToken))
      (consumePasswordReset rawToken newPassword now) := by
  refine UsesBeforeReturning.bind fun now => UsesBeforeReturning.bind fun row => ?_
  split
  · trivial
  refine UsesBeforeReturning.bind fun user => ?_
  cases user with
  | none => trivial
  | some user =>
    refine UsesBeforeReturning.bind fun hash => UsesBeforeReturning.bind fun sessions => ?_
    exact UsesBeforeReturning.commit (by simp [Change.key?, event])

theorem uses_openSession (auth : DatabaseAuthService) (name userId : String)
    (u : UserRow) {changes : List Change} (h : key ∈ keysOf changes) :
    UsesBeforeReturning key (openSession auth name userId u changes) := by
  refine UsesBeforeReturning.bind fun raw => UsesBeforeReturning.bind fun csrf =>
    UsesBeforeReturning.bind fun now => UsesBeforeReturning.commit ?_
  simp [h]

/-- **So does a login** for which a second factor is asked and only a code is given. -/
theorem uses_loginVerified (auth : DatabaseAuthService) (name userId : String) (u : UserRow)
    (a : LoginArgs) {code : String} (hmfa : u.mfaEnabled = true) (htotp : given a.mfaCode = none)
    (hcode : given a.recoveryCode = some code) :
    UsesBeforeReturning (.code (recoveryHash code)) (loginVerified auth name userId u a) := by
  refine UsesBeforeReturning.bind fun upgrade => ?_
  simp only [hmfa, if_true, secondFactor, totpAccepted, htotp, recoveryAccepted, hcode, pure_bind,
    Bool.false_eq_true, if_false, bind_assoc]
  refine UsesBeforeReturning.bind fun row => ?_
  cases row with
  | none =>
    simp only [pure_bind]
    exact UsesBeforeReturning.bind fun _ => UsesBeforeReturning.bind fun _ => trivial
  | some row =>
    simp only [bind_assoc, pure_bind]
    refine UsesBeforeReturning.bind fun now => uses_openSession auth _ _ _ ?_
    simp [Method.changes, Change.key?, event]

end Success

/-! ## 5. The result -/

section Result

variable [AuthRuntime] {ι : Type}

/-- The callers rely on nothing and owe nothing but the invariant. -/
def usedOnly : Protocol ι (World × List Key) where
  inv := UsedOnce
  rely := fun _ _ _ => True
  guar := fun _ _ _ => True
  rely_refl := fun _ _ => trivial
  rely_trans := fun _ {_ _ _} _ _ => trivial
  compat := fun _ _ _ _ => trivial

/-- What the callers do in a run that meets the condition. -/
abbrev meetingCallers (auth : DatabaseAuthService) :
    Pool.System ι authSig (World × List Key) Unit :=
  ((callers auth).withGhost noteUses).meeting FindsUnused

/-- **One statement of a call** keeps the invariant. -/
theorem UsedOnce.step {auth : DatabaseAuthService} {t : ι} {o : Op} {r : authSig.Ans o}
    {s s' : World × List Key} (h : UsedOnce s) (ho : Ordinary o)
    (hstep : (meetingCallers auth).handler t o s r s') : UsedOnce s' := by
  obtain ⟨⟨hdoes | ⟨⟨e, rfl⟩, hsame⟩, hnote⟩, hfinds⟩ := hstep
  · cases o with
    | commit changes =>
      obtain ⟨rfl, hadmits, happly⟩ := hdoes
      have hcommit := h.commit hadmits ho.1 hfinds
      rwa [show s' = (s.1.apply changes, s.2 ++ keysOf changes) from Prod.ext happly hnote]
    | ask q => exact h.of_rows (by rw [hdoes.2]) (by rw [hdoes.2]) hnote
    | setAttempts key xs => exact h.of_rows (by rw [hdoes.2]) (by rw [hdoes.2]) hnote
    | _ => exact h.of_rows (by rw [hdoes.2]) (by rw [hdoes.2]) hnote
  · have hg : s'.2 = s.2 := by
      rw [hnote]
      cases o <;> rfl
    rwa [show s' = s from Prod.ext hsame hg]

variable [DecidableEq ι]

omit [DecidableEq ι] in
theorem callers_obey (auth : DatabaseAuthService) :
    Pool.Obeys (meetingCallers (ι := ι) auth) usedOnly where
  start t p s hp _ := by
    have hwithin : p.Within Ordinary := by
      rcases hp with ⟨rawToken, newPassword, now, rfl⟩ | ⟨a, rfl⟩
      · exact (within_consumePasswordReset _ _ _).bind fun _ => trivial
      · exact (within_login auth a).bind fun _ => trivial
    refine wp_mono (fun _ _ _ => trivial) (wp_within (P := fun _ => True) (A := Ordinary) ?_ ?_
      hwithin trivial)
    · exact fun _ _ _ _ _ => trivial
    · exact fun o s₁ r s₂ ho _ hi hstep => ⟨trivial, hi.step ho hstep, trivial⟩
  env s s' h hi := by
    refine ⟨⟨?_, ?_⟩, fun _ => trivial⟩
    · rw [h.2]
      exact hi.once
    · rw [h.2]
      exact fun key hkey => h.1 key (hi.used key hkey)

/-- **A reset token and a recovery code are used once**, by all the callers together and in any
interleaving of their statements, in a run in which each commit finds unused what it uses. -/
theorem one_use (auth : DatabaseAuthService) (s : World)
    (c : Pool ι authSig (World × List Key) Unit)
    (h : Pool.Reaches (meetingCallers auth) (Pool.idle (s, [])) c) (key : Key) :
    c.shared.2.count key ≤ 1 :=
  (Pool.sound (callers_obey auth)
    (Pool.safe_idle ⟨fun _ => by simp, fun _ hkey => by cases hkey⟩) h).inv.once key

/-! ## 6. At most one call returns -/

/-- **The calls that use `key` before they return**, in runs that meet the same condition.  Other
calls are among what others do. -/
abbrev meetingUsers (auth : DatabaseAuthService) (key : Key) :
    Pool.System ι authSig (World × List Key) Unit :=
  ({ callers auth with start := fun _ => UsesBeforeReturning key }.withGhost noteUses).meeting
    FindsUnused

omit [DecidableEq ι] in
theorem start_consumePasswordReset (auth : DatabaseAuthService) (t : ι)
    (rawToken newPassword : String) (now : Option ℚ) :
    (meetingUsers auth (.reset (AuthRuntime.sha256 rawToken))).start t
      (consumePasswordReset rawToken newPassword now >>= fun _ => pure ()) :=
  (uses_consumePasswordReset rawToken newPassword now).andThen

omit [DecidableEq ι] in
/-- What is left of a login once the account is found and its password is right. -/
theorem start_loginVerified (auth : DatabaseAuthService) (t : ι) (name userId : String)
    (u : UserRow) (a : LoginArgs) {code : String} (hmfa : u.mfaEnabled = true)
    (htotp : given a.mfaCode = none) (hcode : given a.recoveryCode = some code) :
    (meetingUsers auth (.code (recoveryHash code))).start t
      (loginVerified auth name userId u a >>= fun _ => pure ()) :=
  (uses_loginVerified auth name userId u a hmfa htotp hcode).andThen

variable {auth : DatabaseAuthService} {key : Key} {c c' : Pool ι authSig (World × List Key) Unit}

/-- Not every way to the end of the call leads through a use any more. -/
def MayReturn (key : Key) (c : Pool ι authSig (World × List Key) Unit) (t : ι) : Prop :=
  ∃ p, c.threads t = some p ∧ ¬UsesBeforeReturning key p

/-- Only one call may return, and only when the row is used. -/
structure OneMayReturn (key : Key) (c : Pool ι authSig (World × List Key) Unit) : Prop where
  used : ∀ t, MayReturn key c t → Used c.shared.1 key
  one : ∀ t u, MayReturn key c t → MayReturn key c u → t = u

omit [DecidableEq ι] in
theorem used_step {t : ι} {o : Op} {r : authSig.Ans o} {s s' : World × List Key}
    (hstep : (meetingUsers auth key).handler t o s r s') (h : Used s.1 key) : Used s'.1 key := by
  obtain ⟨⟨hdoes | ⟨-, hsame⟩, -⟩, -⟩ := hstep
  · cases o with
    | commit changes => exact hdoes.2.2 ▸ used_apply hdoes.2.1 h
    | setAttempts => rw [hdoes.2]; cases key <;> exact h
    | _ => rwa [hdoes.2]
  · rwa [hsame]

omit [DecidableEq ι] in
/-- **One operation** of a call: if the call may return behind it, it has used an unused row. -/
theorem UsesBeforeReturning.step {t : ι} {o : Op} {k : authSig.Ans o → Program Unit}
    {r : authSig.Ans o} {s s' : World × List Key} (h : UsesBeforeReturning key (.op o k))
    (hstep : (meetingUsers auth key).handler t o s r s') :
    UsesBeforeReturning key (k r) ∨ Unused s.1 key ∧ Used s'.1 key := by
  cases o with
  | commit changes =>
    rcases h r with ⟨⟨u, rfl⟩, hkey⟩ | hrest
    · obtain ⟨⟨⟨-, hadmits, happly⟩ | ⟨⟨e, he⟩, -⟩, -⟩, hfinds⟩ := hstep
      · have hunused : Unused s.1 key := hfinds key hkey
        refine Or.inr ⟨hunused, happly ▸ used_of_mem hadmits ?_ hkey⟩
        rw [show s.1.usedAt key = some none from hunused]
        rfl
      · cases he
    · exact Or.inl hrest
  | _ => exact Or.inl (h r)

omit [AuthRuntime] in
theorem MayReturn.of_update {s : World × List Key} {x : Option (Program Unit)} {t u : ι}
    (hx : ∀ p, x = some p → UsesBeforeReturning key p)
    (h : MayReturn key ⟨s, Function.update c.threads t x⟩ u) : MayReturn key c u := by
  obtain ⟨p, hp, hnot⟩ := h
  by_cases hu : u = t
  · subst hu
    exact absurd (hx p (by simpa using hp)) hnot
  · exact ⟨p, by simpa [hu] using hp, hnot⟩

theorem OneMayReturn.step (h : OneMayReturn key c)
    (hs : Pool.Step (meetingUsers auth key) c c') : OneMayReturn key c' := by
  have hback : (∀ u, MayReturn key c' u → MayReturn key c u) →
      (Used c.shared.1 key → Used c'.shared.1 key) → OneMayReturn key c' := fun hmay hused =>
    ⟨fun u hu => hused (h.used u (hmay u hu)), fun u v hu hv => h.one u v (hmay u hu) (hmay v hv)⟩
  cases hs with
  | spawn t p idle hp =>
    refine hback (fun u => .of_update fun q hq => ?_) id
    rwa [← Option.some.inj hq]
  | act t o k r s' running hstep =>
    by_cases huses : UsesBeforeReturning key (.op o k)
    · rcases huses.step hstep with hrest | ⟨hunused, hused⟩
      · refine hback (fun u => .of_update fun q hq => ?_) (used_step hstep)
        rwa [← Option.some.inj hq]
      · -- no other call may return: the row was unused until now
        have ht : ∀ u, MayReturn key ⟨s', Function.update c.threads t (some (k r))⟩ u → u = t := by
          rintro u ⟨p, hp, hnot⟩
          by_contra hu
          obtain ⟨at_, hat⟩ := h.used u ⟨p, by simpa [hu] using hp, hnot⟩
          cases hat.symm.trans hunused
        exact ⟨fun _ _ => hused, fun u v hu hv => (ht u hu).trans (ht v hv).symm⟩
    · refine hback (fun u hu => ?_) (used_step hstep)
      obtain ⟨p, hp, hnot⟩ := hu
      by_cases hut : u = t
      · exact ⟨_, hut ▸ running, huses⟩
      · exact ⟨p, by simpa [hut] using hp, hnot⟩
  | stop t => exact hback (fun u => .of_update nofun) id
  | env s' henv => exact hback (fun _ => id) (henv.1 key)

/-- **At most one of the calls returns** that use the same token, or the same code. -/
theorem one_returns {s : World}
    (h : Pool.Reaches (meetingUsers auth key) (Pool.idle (s, [])) c) {t u : ι}
    (ht : c.threads t = some (.ret ())) (hu : c.threads u = some (.ret ())) : t = u := by
  have hone : OneMayReturn key c := by
    clear ht hu
    induction h with
    | refl => exact ⟨nofun, nofun⟩
    | tail _ hs ih => exact ih.step hs
  exact hone.one t u ⟨_, ht, id⟩ ⟨_, hu, id⟩

end Result

/-! ## 7. Two calls with one token -/

section TwoCalls

attribute [local instance] marked

/-- An account with one token that has not been used. -/
def oneReset : World where
  users := AList.insert "u-1" ⟨"alice", "$long password", "viewer", false, none⟩ ∅
  resets := AList.insert "token" ⟨"u-1", 900, none⟩ ∅
  codes := ∅
  sessions := ∅
  events := []
  attempts := fun _ => []

/-- Either of two calls with that token. -/
def resetCall (mine : Bool) : Program Unit :=
  consumePasswordReset "token" (if mine then "the first password" else "the second password") none
    >>= fun _ => pure ()

def playResets (ms : List (Move Bool Bool)) : Pool Bool authSig (World × List Key) Unit :=
  (Pool.idle (oneReset, [])).play (fun t => Pool.noting (serve digitsSecret) (noteUses t))
    resetCall ms

/-- Clock, row, user, hash, sessions and commit of one call, then all of the other. -/
def oneAfterTheOther : List (Move Bool Bool) :=
  .spawn true true :: List.replicate 6 (.act true) ++
    .spawn false false :: List.replicate 6 (.act false)

/-- Clock and row of one call, all of the other, the rest of the first. -/
def rowsBeforeCommits : List (Move Bool Bool) :=
  .spawn true true :: List.replicate 2 (.act true) ++
    .spawn false false :: List.replicate 6 (.act false) ++ List.replicate 4 (.act true)

theorem picks_noting (t : Bool) : (Pool.noting (serve digitsSecret) (noteUses t)).Picks
    (((callers (ι := Bool) ⟨3600⟩).withGhost noteUses).handler t) :=
  Pool.picks_noting (Y := callers (ι := Bool) ⟨3600⟩) (f := fun _ => serve digitsSecret)
    (fun _ => serve_picks digitsSecret) noteUses t

theorem starts_resetCall (auth : DatabaseAuthService) (t mine : Bool) :
    ((callers (ι := Bool) auth).withGhost noteUses).start t (resetCall mine) :=
  Or.inl ⟨_, _, _, rfl⟩

instance FindsUnused.decidable (t : Bool) :
    ∀ (o : Op) (s : World × List Key) (r : authSig.Ans o), Decidable (FindsUnused t o s r)
  | .commit changes, s, _ => inferInstanceAs (Decidable (∀ key ∈ keysOf changes, Unused s.1 key))
  | .ask _, _, _ | .userByName _, _, _ | .userById _, _, _ | .unusedReset _, _, _
  | .unusedCode _ _, _, _ | .unusedCodes _, _, _ | .liveSessions _, _, _ | .attempts _, _, _
  | .setAttempts _ _, _, _ => isTrue trivial

theorem one_use_oneAfterTheOther :
    (playResets oneAfterTheOther).shared.2.count (.reset "token") ≤ 1 :=
  one_use ⟨3600⟩ oneReset _
    (Pool.reaches_play_meeting picks_noting _ oneAfterTheOther
      (fun t mine _ => starts_resetCall ⟨3600⟩ t mine) (by decide))
    (.reset "token")

/-- **Both calls succeed**, with one token, when both read its row before either commits. -/
theorem reset_used_twice :
    ¬ ∀ c, Pool.Reaches ((callers (ι := Bool) ⟨3600⟩).withGhost noteUses)
      (Pool.idle (oneReset, [])) c → c.shared.2.count (.reset "token") ≤ 1 := by
  intro h
  have hreach : Pool.Reaches ((callers (ι := Bool) ⟨3600⟩).withGhost noteUses)
      (Pool.idle (oneReset, [])) (playResets rowsBeforeCommits) :=
    Pool.reaches_play picks_noting (starts_resetCall ⟨3600⟩) _ rowsBeforeCommits
  exact absurd (h _ hreach) (by decide)

end TwoCalls

end Kripto.Auth
