/-
# What the calls commit

A login and a password reset commit at their end.  What they commit uses no token and no code
twice, and has nothing to do with the second factor; all their other operations commit nothing.
-/
import Kripto.Auth.DbService

namespace Kripto.Auth

open Effect Python

/-! ## 1. Changes -/

/-- What can be used once: the hash of a reset token, or of a recovery code. -/
inductive Key
  | reset (hash : String)
  | code (hash : String)
  deriving DecidableEq

/-- What a change uses. -/
def Change.key? : Change → Option Key
  | .useReset hash _ => some (.reset hash)
  | .useCode hash _ => some (.code hash)
  | _ => none

/-- What a commit uses. -/
def keysOf (changes : List Change) : List Key := changes.filterMap Change.key?

/-- The changes that are not about the second factor. -/
def Change.neutral : Change → Bool
  | .setSecret .. | .setMfa .. => false
  | _ => true

@[simp] theorem keysOf_nil : keysOf [] = [] := rfl

@[simp] theorem keysOf_cons (change : Change) (changes : List Change) :
    keysOf (change :: changes) = change.key?.toList ++ keysOf changes := by
  cases h : change.key? <;> simp [keysOf, h]

@[simp] theorem keysOf_append (changes changes' : List Change) :
    keysOf (changes ++ changes') = keysOf changes ++ keysOf changes' :=
  List.filterMap_append

/-- Revoking sessions uses nothing. -/
@[simp] theorem keysOf_revoke (sessions : List String) (now : ℚ) :
    keysOf (sessions.map (.revoke · now)) = [] := by
  simp [keysOf, List.filterMap_map, Function.comp_def, Change.key?]

/-! ## 2. Operations -/

/-- Nothing is committed. -/
def Silent : Op → Prop
  | .commit _ => False
  | _ => True

/-- What is committed uses no key twice, and leaves the second factor alone. -/
def Ordinary : Op → Prop
  | .commit changes => (keysOf changes).Nodup ∧ ∀ change ∈ changes, change.neutral = true
  | _ => True

theorem Silent.ordinary {o : Op} (h : Silent o) : Ordinary o := by
  cases o with
  | commit changes => exact h.elim
  | _ => trivial

section Silent

theorem silent_ask (q : Ask) : (ask q).Within Silent := Prog.within_perform.mpr trivial

theorem silent_hashPassword (password : String) : (hashPassword password).Within Silent := by
  unfold hashPassword
  split
  · trivial
  · exact silent_ask _

theorem silent_fail (key : String) : (LoginThrottle.fail key).Within Silent := by
  refine (silent_ask _).bind fun now => ?_
  exact Prog.Within.bind (Prog.within_perform.mpr trivial) fun xs => Prog.within_perform.mpr trivial

theorem silent_check (key : String) : (LoginThrottle.check key).Within Silent := by
  refine (silent_ask _).bind fun now => ?_
  refine Prog.Within.bind (Prog.within_perform.mpr trivial) fun xs => ?_
  refine Prog.Within.bind (Prog.within_perform.mpr trivial) fun _ => ?_
  split <;> trivial

theorem silent_atOrNow (at_ : Option ℤ) : (atOrNow at_).Within Silent := by
  cases at_ with
  | none => exact (silent_ask _).bind fun _ => trivial
  | some at_ => trivial

theorem silent_clockOr (now : Option ℚ) : (clockOr now).Within Silent := by
  cases now with
  | none => exact silent_ask _
  | some now => trivial

theorem silent_generateRecoveryCodes (n : ℕ) : (generateRecoveryCodes n).Within Silent := by
  induction n with
  | zero => trivial
  | succ n ih => exact (silent_ask _).bind fun raw => ih.bind fun codes => trivial

variable [AuthRuntime]

theorem silent_decryptSecret (encrypted : String) : (decryptSecret encrypted).Within Silent := by
  unfold decryptSecret
  split <;> trivial

theorem silent_upgradePassword (userId : String) (u : UserRow) (password : String) :
    (upgradePassword userId u password).Within Silent := by
  unfold upgradePassword
  split
  · exact (silent_hashPassword _).bind fun hash => trivial
  · trivial

theorem silent_totpAccepted (u : UserRow) (mfaCode : Option String) (at_ : Option ℤ) :
    (totpAccepted u mfaCode at_).Within Silent := by
  unfold totpAccepted
  split
  · exact (silent_decryptSecret _).bind fun secret => (silent_atOrNow _).bind fun at_ =>
      Prog.within_ofExcept _
  · trivial

theorem silent_recoveryAccepted (userId : String) (recoveryCode : Option String) :
    (recoveryAccepted userId recoveryCode).Within Silent := by
  unfold recoveryAccepted
  split
  · trivial
  refine Prog.Within.bind (Prog.within_perform.mpr trivial) fun row => ?_
  cases row with
  | none => trivial
  | some row => exact (silent_ask _).bind fun _ => trivial

theorem silent_secondFactor (userId : String) (u : UserRow) (a : LoginArgs) :
    (secondFactor userId u a).Within Silent := by
  refine (silent_totpAccepted _ _ _).bind fun ok => ?_
  split
  · trivial
  · exact silent_recoveryAccepted _ _

end Silent

/-! ## 3. Calls -/

section Calls

variable [AuthRuntime]

theorem within_consumePasswordReset (rawToken newPassword : String) (now : Option ℚ) :
    (consumePasswordReset rawToken newPassword now).Within Ordinary := by
  refine Prog.Within.bind ((silent_clockOr _).mono fun _ => Silent.ordinary) fun now => ?_
  refine Prog.Within.bind (Prog.within_perform.mpr trivial) fun row => ?_
  split
  · trivial
  refine Prog.Within.bind (Prog.within_perform.mpr trivial) fun user => ?_
  cases user with
  | none => trivial
  | some user =>
    refine Prog.Within.bind ((silent_hashPassword _).mono fun _ => Silent.ordinary) fun hash => ?_
    refine Prog.Within.bind (Prog.within_perform.mpr trivial) fun sessions => ?_
    refine Prog.Within.bind (Prog.within_perform.mpr ⟨?_, ?_⟩) fun _ => trivial
    · simp [Change.key?, event]
    · intro change hchange
      simp only [List.mem_cons, List.mem_append, List.mem_map, List.not_mem_nil, or_false]
        at hchange
      rcases hchange with rfl | rfl | ⟨session, -, rfl⟩ | rfl <;> rfl

theorem within_openSession (auth : DatabaseAuthService) (key userId : String) (u : UserRow)
    {changes : List Change} (h : Ordinary (.commit changes)) :
    (openSession auth key userId u changes).Within Ordinary := by
  refine Prog.Within.bind (Prog.within_perform.mpr trivial) fun raw =>
    Prog.Within.bind (Prog.within_perform.mpr trivial) fun csrf =>
    Prog.Within.bind (Prog.within_perform.mpr trivial) fun now => ?_
  refine Prog.Within.bind (Prog.within_perform.mpr ⟨?_, ?_⟩) fun _ =>
    Prog.Within.bind (Prog.within_perform.mpr trivial) fun _ => trivial
  · simpa [Change.key?, event] using h.1
  · intro change hchange
    simp only [List.mem_cons, List.mem_append, List.not_mem_nil, or_false] at hchange
    rcases hchange with hold | rfl | rfl
    · exact h.2 change hold
    · rfl
    · rfl

omit [AuthRuntime] in
theorem ordinary_append {changes changes' : List Change} (h : Ordinary (.commit changes))
    (hkeys : keysOf changes = []) (h' : Ordinary (.commit changes')) :
    Ordinary (.commit (changes ++ changes')) := by
  refine ⟨by simpa [hkeys] using h'.1, fun change hchange => ?_⟩
  exact (List.mem_append.mp hchange).elim (h.2 change) (h'.2 change)

omit [AuthRuntime] in
/-- What the second factor changes. -/
theorem ordinary_changes (userId : String) (method : Method) :
    Ordinary (.commit (method.changes userId)) := by
  cases method with
  | totp => exact ⟨by simp [Method.changes], by simp [Method.changes]⟩
  | recoveryCode hash at_ =>
    exact ⟨by simp [Method.changes, Change.key?, event],
      by simp [Method.changes, Change.neutral, event]⟩

/-- What an upgrade of the password changes. -/
theorem returns_upgradePassword (userId : String) (u : UserRow) (password : String) :
    (upgradePassword userId u password).Returns fun changes =>
      Ordinary (.commit changes) ∧ keysOf changes = [] := by
  unfold upgradePassword
  split
  · unfold hashPassword
    split
    · trivial
    · refine Prog.returns_perform.bind fun hash _ => ?_
      exact ⟨⟨by simp [Change.key?], by simp [Change.neutral]⟩, by simp [Change.key?]⟩
  · exact ⟨⟨by simp, by simp⟩, rfl⟩

theorem within_login (auth : DatabaseAuthService) (a : LoginArgs) :
    (login auth a).Within Ordinary := by
  have hfail : ∀ (key msg : String) {changes : List Change}, Ordinary (.commit changes) →
      (LoginThrottle.fail key >>= fun _ => commit changes >>= fun _ =>
        (deny msg : Program LoginResult)).Within Ordinary := by
    intro key msg changes h
    exact Prog.Within.bind ((silent_fail _).mono fun _ => Silent.ordinary) fun _ =>
      Prog.Within.bind (Prog.within_perform.mpr h) fun _ => trivial
  refine Prog.Within.bind ((silent_check _).mono fun _ => Silent.ordinary) fun _ => ?_
  refine Prog.Within.bind (Prog.within_perform.mpr trivial) fun found => ?_
  split
  · rename_i userId u _
    refine Prog.Within.bind_returns ((silent_upgradePassword _ _ _).mono fun _ => Silent.ordinary)
      (returns_upgradePassword _ _ _) fun upgrade hupgrade => ?_
    split
    · refine Prog.Within.bind ((silent_secondFactor _ _ _).mono fun _ => Silent.ordinary)
        fun method => ?_
      cases method with
      | none =>
        refine hfail _ _ (ordinary_append hupgrade.1 hupgrade.2 ⟨?_, ?_⟩)
        · simp [Change.key?, event]
        · simp [Change.neutral, event]
      | some method =>
        exact within_openSession auth _ _ _
          (ordinary_append hupgrade.1 hupgrade.2 (ordinary_changes userId method))
    · exact within_openSession auth _ _ _ hupgrade.1
  · refine hfail _ _ ⟨?_, ?_⟩
    · simp [Change.key?, event]
    · simp [Change.neutral, event]

end Calls

end Kripto.Auth
