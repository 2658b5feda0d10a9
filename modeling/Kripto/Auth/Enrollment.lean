/-
# Does an unconfirmed enrollment change what login accepts?

The secret of a pending enrollment and that of the active second factor are one column,
`mfa_secret_encrypted`.  Beside every run we keep which secret was begun last for a user and which
was confirmed last, from the commits alone.

* `login_accepts_confirmed`: after every history in which no enrollment is begun for a user whose
  second factor is active, `login` accepts the codes of the secret that was confirmed last, and no
  others.

`accepts_unconfirmed` is the history with one more enrollment.
-/
import Kripto.Auth.Commits
import Kripto.Effect.Play

namespace Kripto.Auth

open Effect Python

/-! ## 1. Calls and their history -/

inductive Call
  | beginMfaEnrollment (userId password : String)
  | confirmMfaEnrollment (userId code : String) (at_ : Option ℤ)
  | login (a : LoginArgs)
  | resetMfa (userId actorUserId actorPassword : String)

/-- The secret begun last for a user, and the one confirmed last. -/
structure Enrollments where
  pending : String → Option String
  confirmed : String → Option String

section Calls

variable [AuthRuntime] (auth : DatabaseAuthService)

def Call.body : Call → Program Unit
  | .beginMfaEnrollment userId password =>
    Auth.beginMfaEnrollment userId password >>= fun _ => pure ()
  | .confirmMfaEnrollment userId code at_ =>
    Auth.confirmMfaEnrollment userId code at_ >>= fun _ => pure ()
  | .login a => Auth.login auth a >>= fun _ => pure ()
  | .resetMfa userId actorUserId actorPassword =>
    Auth.resetMfa userId actorUserId actorPassword

namespace Enrollments

/-- An enrollment begins with a new secret, and is confirmed when the second factor is switched
on. -/
def note (g : Enrollments) : Change → Enrollments
  | .setSecret userId encrypted =>
    { g with pending := Function.update g.pending userId (encrypted.bind AuthRuntime.decrypt) }
  | .setMfa userId true =>
    { g with confirmed := Function.update g.confirmed userId (g.pending userId) }
  | .setMfa userId false => { g with confirmed := Function.update g.confirmed userId none }
  | _ => g

def noteOp : (o : Op) → World → authSig.Ans o → Enrollments → Enrollments
  | .commit changes, _, .ok _, g => changes.foldl note g
  | _, _, _, g => g

end Enrollments

/-- What a user's row says of the second factor. -/
def World.mfa (s : World) (userId : String) : Option (Bool × Option String) :=
  (s.users.lookup userId).map fun u => (u.mfaEnabled, u.secret?)

/-- Calls one after the other, each of which may fail or be cut short anywhere; what the throttle
had in memory is then lost.  In between, users may be added and removed, and anything may be
changed but a second factor. -/
def enrolling : Session.System authSig (World × Enrollments) Unit Call Unit where
  body := Call.body auth
  handler := fun _ => handler.noting Enrollments.noteOp
  lose := fun _ s => ({ s.1 with attempts := fun _ => [] }, s.2)
  idle := fun _ s s' => s'.2 = s.2 ∧ ∀ userId, s'.1.mfa userId = s.1.mfa userId ∨
    s'.1.mfa userId = none ∨ s'.1.mfa userId = some (false, none)

/-- **The condition on a run**: no secret is written over an active second factor. -/
def OnlyInactive (_ : Call) : (o : Op) → World × Enrollments → authSig.Ans o → Prop
  | .commit changes, s, _ => ∀ userId encrypted, .setSecret userId (some encrypted) ∈ changes →
      ∀ secret, s.1.mfa userId ≠ some (true, secret)
  | _, _, _ => True

/-- Some run of this login succeeds. -/
def Accepts (s : World) (a : LoginArgs) : Prop :=
  ∃ result s', Runs handler (Auth.login auth a) s (.ok result) s'

end Calls

/-! ## 2. What changes do to the second factor -/

section Changes

variable {s : World} {change : Change} {changes : List Change} {userId : String}

theorem mfa_update {f : UserRow → UserRow} {g : Bool × Option String → Bool × Option String}
    (hf : ∀ u, ((f u).mfaEnabled, (f u).secret?) = g (u.mfaEnabled, u.secret?)) (other : String) :
    World.mfa { s with users := Table.update s.users userId f } other =
      if other = userId then (s.mfa userId).map g else s.mfa other := by
  simp only [World.mfa, Table.lookup_update]
  split
  · simp [Function.comp_def, hf]
  · rfl

theorem mfa_applyOne_of_neutral (h : change.neutral = true) :
    (s.applyOne change).mfa = s.mfa := by
  cases change with
  | setPassword userId hash =>
    funext other
    refine (mfa_update (f := fun u => { u with passwordHash := hash }) (g := id) (fun _ => rfl)
      other).trans ?_
    split <;> simp [*]
  | setSecret => cases h
  | setMfa => cases h
  | _ => rfl

theorem mfa_apply_of_neutral (h : ∀ change ∈ changes, change.neutral = true) :
    (s.apply changes).mfa = s.mfa := by
  induction changes generalizing s with
  | nil => rfl
  | cons change changes ih =>
    have hrest : ((s.applyOne change).apply changes).mfa = (s.applyOne change).mfa :=
      ih fun c hc => h c (List.mem_cons_of_mem change hc)
    exact hrest.trans (mfa_applyOne_of_neutral (h change List.mem_cons_self))

theorem mfa_setSecret (encrypted : Option String) (other : String) :
    (s.applyOne (.setSecret userId encrypted)).mfa other =
      if other = userId then (s.mfa userId).map fun m => (m.1, encrypted.filter (· ≠ ""))
      else s.mfa other :=
  mfa_update (fun _ => rfl) other

theorem mfa_setMfa (enabled : Bool) (other : String) :
    (s.applyOne (.setMfa userId enabled)).mfa other =
      if other = userId then (s.mfa userId).map fun m => (enabled, m.2) else s.mfa other :=
  mfa_update (fun _ => rfl) other

end Changes

/-! ## 3. The invariant -/

section Invariant

variable [AuthRuntime] {s : World} {g : Enrollments} {change : Change} {changes : List Change}

/-- The column holds what was begun last, and for an active second factor that is what was
confirmed last. -/
structure Enrolled (s : World × Enrollments) : Prop where
  pending : ∀ userId enabled encrypted, s.1.mfa userId = some (enabled, some encrypted) →
    ∃ secret, AuthRuntime.decrypt encrypted = some secret ∧ s.2.pending userId = some secret
  confirmed : ∀ userId secret, s.1.mfa userId = some (true, secret) →
    secret.isSome ∧ s.2.confirmed userId = s.2.pending userId

/-- What a change may not do to a second factor. -/
def Fits (s : World) : Change → Prop
  | .setSecret userId encrypted => (∀ secret, s.mfa userId ≠ some (true, secret)) ∧
      ∀ text ∈ encrypted, (AuthRuntime.decrypt text).isSome
  | .setMfa userId true => ∀ enabled secret, s.mfa userId = some (enabled, secret) → secret.isSome
  | _ => True

def FitsAll (s : World) : List Change → Prop
  | [] => True
  | change :: changes => Fits s change ∧ FitsAll (s.applyOne change) changes

theorem fits_of_neutral (h : change.neutral = true) : Fits s change := by
  cases change with
  | setSecret => cases h
  | setMfa => cases h
  | _ => trivial

theorem fitsAll_of_neutral (h : ∀ change ∈ changes, change.neutral = true) :
    FitsAll s changes := by
  induction changes generalizing s with
  | nil => trivial
  | cons change changes ih =>
    exact ⟨fits_of_neutral (h change List.mem_cons_self),
      ih fun c hc => h c (List.mem_cons_of_mem change hc)⟩

theorem fitsAll_append {changes' : List Change} (h : FitsAll s changes)
    (h' : FitsAll (s.apply changes) changes') : FitsAll s (changes ++ changes') := by
  induction changes generalizing s with
  | nil => exact h'
  | cons change changes ih => exact ⟨h.1, ih h.2 h'⟩

theorem note_of_neutral (h : change.neutral = true) : g.note change = g := by
  cases change with
  | setSecret => cases h
  | setMfa => cases h
  | _ => rfl

theorem Enrolled.setSecret {userId : String} {encrypted : Option String} (h : Enrolled (s, g))
    (hfits : Fits s (.setSecret userId encrypted)) :
    Enrolled (s.applyOne (.setSecret userId encrypted), g.note (.setSecret userId encrypted)) := by
  obtain ⟨hinactive, hdecrypts⟩ := hfits
  constructor
  · intro other enabled text htext
    rw [mfa_setSecret] at htext
    by_cases hother : other = userId
    · subst hother
      simp only [if_true] at htext
      obtain ⟨m, -, hm⟩ := Option.map_eq_some_iff.mp htext
      have hsome : encrypted.filter (· ≠ "") = some text := (Prod.mk.inj hm).2
      have hencrypted : encrypted = some text := (Option.filter_eq_some_iff.mp hsome).1
      obtain ⟨secret, hsecret⟩ := Option.isSome_iff_exists.mp (hdecrypts text hencrypted)
      exact ⟨secret, hsecret, by simp [Enrollments.note, hencrypted, hsecret]⟩
    · simp only [hother, if_false] at htext
      simpa [Enrollments.note, hother] using h.pending other enabled text htext
  · intro other secret hactive
    rw [mfa_setSecret] at hactive
    by_cases hother : other = userId
    · subst hother
      simp only [if_true] at hactive
      obtain ⟨m, hmfa, hm⟩ := Option.map_eq_some_iff.mp hactive
      have henabled : m.1 = true := (Prod.mk.inj hm).1
      exact absurd (by rw [hmfa, ← henabled]) (hinactive m.2)
    · simp only [hother, if_false] at hactive
      simpa [Enrollments.note, hother] using h.confirmed other secret hactive

theorem Enrolled.setMfa {userId : String} {enabled : Bool} (h : Enrolled (s, g))
    (hfits : Fits s (.setMfa userId enabled)) :
    Enrolled (s.applyOne (.setMfa userId enabled), g.note (.setMfa userId enabled)) := by
  constructor
  · intro other enabled' text htext
    have hpending : (g.note (.setMfa userId enabled)).pending = g.pending := by
      cases enabled <;> rfl
    simp only [hpending]
    rw [mfa_setMfa] at htext
    by_cases hother : other = userId
    · subst hother
      simp only [if_true] at htext
      obtain ⟨m, hmfa, hm⟩ := Option.map_eq_some_iff.mp htext
      have hsecret : m.2 = some text := (Prod.mk.inj hm).2
      exact h.pending other m.1 text (by rw [hmfa, ← hsecret])
    · simp only [hother, if_false] at htext
      exact h.pending other enabled' text htext
  · intro other secret hactive
    rw [mfa_setMfa] at hactive
    by_cases hother : other = userId
    · subst hother
      simp only [if_true] at hactive
      obtain ⟨m, hmfa, hm⟩ := Option.map_eq_some_iff.mp hactive
      obtain ⟨rfl, rfl⟩ := Prod.mk.inj hm
      exact ⟨hfits m.1 m.2 hmfa, by simp [Enrollments.note]⟩
    · simp only [hother, if_false] at hactive
      cases enabled <;> simpa [Enrollments.note, hother] using h.confirmed other secret hactive

/-- **One change** keeps the invariant. -/
theorem Enrolled.applyOne (h : Enrolled (s, g)) (hfits : Fits s change) :
    Enrolled (s.applyOne change, g.note change) := by
  cases hneutral : change.neutral with
  | true =>
    rw [note_of_neutral hneutral]
    have hmfa := mfa_applyOne_of_neutral (s := s) hneutral
    exact ⟨by simpa only [hmfa] using h.pending, by simpa only [hmfa] using h.confirmed⟩
  | false =>
    cases change with
    | setSecret userId encrypted => exact h.setSecret hfits
    | setMfa userId enabled => exact h.setMfa hfits
    | _ => cases hneutral

theorem Enrolled.apply (h : Enrolled (s, g)) (hfits : FitsAll s changes) :
    Enrolled (s.apply changes, changes.foldl Enrollments.note g) := by
  induction changes generalizing s g with
  | nil => exact h
  | cons change changes ih => exact ih (h.applyOne hfits.1) hfits.2

theorem Enrolled.of_mfa {s s' : World × Enrollments} (h : Enrolled s)
    (hmfa : ∀ userId, s'.1.mfa userId = s.1.mfa userId ∨ s'.1.mfa userId = none ∨
      s'.1.mfa userId = some (false, none)) (hg : s'.2 = s.2) : Enrolled s' := by
  constructor
  · intro userId enabled encrypted hsecret
    rw [hg]
    rcases hmfa userId with hsame | hnone | hoff
    · exact h.pending userId enabled encrypted (by rw [← hsame, hsecret])
    · rw [hnone] at hsecret
      cases hsecret
    · rw [hoff] at hsecret
      cases hsecret
  · intro userId secret hactive
    rw [hg]
    rcases hmfa userId with hsame | hnone | hoff
    · exact h.confirmed userId secret (by rw [← hsame, hactive])
    · rw [hnone] at hactive
      cases hactive
    · rw [hoff] at hactive
      cases hactive

/-- Where nobody has enrolled, nothing has been noted. -/
theorem enrolled_of_none (h : ∀ userId, s.mfa userId = none ∨ s.mfa userId = some (false, none)) :
    Enrolled (s, g) := by
  constructor
  · intro userId enabled encrypted hsecret
    rcases h userId with hnone | hoff
    · cases hnone.symm.trans hsecret
    · cases hoff.symm.trans hsecret
  · intro userId secret hactive
    rcases h userId with hnone | hoff
    · cases hnone.symm.trans hactive
    · cases hoff.symm.trans hactive

/-- **One operation** keeps it, if what it commits fits. -/
theorem Enrolled.step {o : Op} {r : authSig.Ans o} {s s' : World × Enrollments} (h : Enrolled s)
    (ho : ∀ changes, o = .commit changes → FitsAll s.1 changes)
    (hstep : handler.noting Enrollments.noteOp o s r s') : Enrolled s' := by
  obtain ⟨hdoes | ⟨⟨e, rfl⟩, hsame⟩, hnote⟩ := hstep
  · cases o with
    | commit changes =>
      obtain ⟨rfl, -, happly⟩ := hdoes
      have happlied := h.apply (s := s.1) (ho changes rfl)
      rwa [show s' = (s.1.apply changes, changes.foldl Enrollments.note s.2) from
        Prod.ext happly hnote]
    | setAttempts key xs =>
      refine h.of_mfa (fun userId => Or.inl ?_) hnote
      rw [hdoes.2]
      rfl
    | _ => exact h.of_mfa (fun userId => Or.inl (by rw [hdoes.2])) hnote
  · have hg : s'.2 = s.2 := by
      rw [hnote]
      cases o <;> rfl
    exact h.of_mfa (fun userId => Or.inl (by rw [hsame])) hg

end Invariant

/-! ## 4. The calls keep it -/

section Programs

variable [AuthRuntime] {k : Call} {s : World × Enrollments} {α β : Type}

/-- What the calls do in a run that meets the condition. -/
abbrev inactiveOnly (k : Call) : Handler authSig (World × Enrollments) :=
  (handler.noting Enrollments.noteOp).meeting (OnlyInactive k)

/-- The call keeps the invariant. -/
abbrev Keeps (k : Call) (p : Program α) (s : World × Enrollments) : Prop :=
  wp (inactiveOnly k) (.keeping Enrolled) () p (fun _ _ => True) s

theorem keeps_ordinary {p : Program α} (hp : p.Within Ordinary) : Keeps k p s := by
  refine wp_within (P := fun _ => True) (A := Ordinary) ?_ ?_ hp trivial
  · exact fun _ _ _ _ _ => trivial
  · intro o s₁ r s₂ ho _ hs₁ hstep
    refine ⟨trivial, hs₁.step ?_ hstep.1, trivial⟩
    rintro changes rfl
    exact fitsAll_of_neutral ho.2

/-- An operation that commits nothing changes nothing an enrollment is about. -/
theorem Enrolled.silent {o : Op} {r : authSig.Ans o} {s s' : World × Enrollments} (hs : Enrolled s)
    (ho : Silent o) (hstep : handler.noting Enrollments.noteOp o s r s') :
    Enrolled s' ∧ s'.1.mfa = s.1.mfa := by
  constructor
  · refine hs.step ?_ hstep
    rintro changes rfl
    exact ho.elim
  · obtain ⟨hdoes | ⟨-, hsame⟩, -⟩ := hstep
    · cases o with
      | commit changes => exact ho.elim
      | ask q => rw [hdoes.2]
      | setAttempts key xs =>
        rw [hdoes.2]
        rfl
      | _ => rw [hdoes.2]
    · rw [hsame]

theorem keeps_bind_silent {p : Program α} {f : α → Program β} (hp : p.Within Silent)
    (hf : ∀ a s', s'.1.mfa = s.1.mfa → Keeps k (f a) s') : Keeps k (p >>= f) s := by
  refine wp_bind.mpr (wp_mono ?_ (wp_within (P := fun s' => s'.1.mfa = s.1.mfa) (A := Silent)
    (Protocol.stable_alone _) ?_ hp rfl))
  · rintro (e | a) s' hs'
    · trivial
    · exact hf a s' hs'
  · intro o s₁ r s₂ ho hmfa hs₁ hstep
    obtain ⟨hs₂, hmfa₂⟩ := hs₁.silent ho hstep.1
    exact ⟨trivial, hs₂, hmfa₂.trans hmfa⟩

theorem keeps_bind_perform {o : Op} {f : authSig.Val o → Program β} (ho : Silent o)
    (hf : ∀ a s', s'.1.mfa = s.1.mfa → does o s.1 (.ok a) s'.1 → Keeps k (f a) s') :
    Keeps k (perform o >>= f) s := by
  refine wp_bind.mpr (wp_perform_iff.mpr ?_)
  rintro s₁ rfl hs r s₂ hstep
  obtain ⟨hs₂, hmfa⟩ := hs.silent ho hstep.1
  refine ⟨trivial, hs₂, ?_⟩
  cases r with
  | error e => trivial
  | ok a =>
    obtain ⟨⟨hdoes | ⟨⟨e, he⟩, -⟩, -⟩, -⟩ := hstep
    · exact hf a s₂ hmfa hdoes
    · cases he

/-- **A commit** that fits. -/
theorem keeps_commit {changes : List Change}
    (hfits : OnlyInactive k (.commit changes) s (.ok ()) → FitsAll s.1 changes) :
    Keeps k (commit changes) s := by
  refine wp_perform_iff.mpr ?_
  rintro s₁ rfl hs r s₂ hstep
  refine ⟨trivial, hs.step ?_ hstep.1, trivial⟩
  rintro _ ⟨⟩
  exact hfits hstep.2

theorem Keeps.bind {p : Program α} {f : α → Program β} (hp : Keeps k p s)
    (hf : ∀ a, (f a).Within Ordinary) : Keeps k (p >>= f) s := by
  refine wp_bind.mpr (wp_mono ?_ hp)
  rintro (e | a) s' -
  · trivial
  · exact keeps_ordinary (hf a)

/-- A refusal and its event. -/
theorem keeps_refusal (eventType severity msg : String) (userId : Option String) :
    Keeps k (commit [event eventType severity userId] >>= fun _ => (deny msg : Program α)) s := by
  refine (keeps_commit fun _ => fitsAll_of_neutral ?_).bind fun _ => trivial
  simp [Change.neutral, event]

theorem keeps_beginMfaEnrollment (userId password : String) :
    Keeps k (beginMfaEnrollment userId password) s := by
  refine keeps_bind_silent (Prog.within_perform.mpr trivial) fun user s' _ => ?_
  cases reauthenticated user password with
  | none => exact keeps_refusal _ _ _ _
  | some u =>
    refine keeps_bind_silent (silent_ask _) fun secret s' _ => ?_
    refine keeps_bind_perform trivial fun encrypted s' _ hencrypt => ?_
    obtain ⟨⟨-, hdecrypt⟩, -⟩ := hencrypt
    refine Keeps.bind (keeps_commit fun honly => ?_) fun _ => trivial
    refine ⟨⟨?_, ?_⟩, fitsAll_of_neutral ?_⟩
    · exact honly userId encrypted (by simp)
    · rintro _ ⟨⟩
      rw [hdecrypt]
      rfl
    · simp [Change.neutral, event]

theorem keeps_confirmMfaEnrollment (userId code : String) (at_ : Option ℤ) :
    Keeps k (confirmMfaEnrollment userId code at_) s := by
  refine keeps_bind_perform trivial fun user s₁ hmfa₁ hread => ?_
  obtain ⟨huser, -⟩ := hread
  cases huser
  split
  · trivial
  · rename_i encrypted hsecret
    refine keeps_bind_silent (silent_decryptSecret _) fun secret s₂ hmfa₂ => ?_
    refine keeps_bind_silent (silent_atOrNow _) fun at_ s₃ hmfa₃ => ?_
    refine keeps_bind_silent (Prog.within_ofExcept _) fun verified s₄ hmfa₄ => ?_
    split
    · refine keeps_bind_silent (silent_generateRecoveryCodes _) fun codes s₅ hmfa₅ => ?_
      refine Keeps.bind (keeps_commit fun _ => ?_) fun _ => trivial
      refine fitsAll_append (fitsAll_of_neutral ?_) ⟨?_, trivial, trivial⟩
      · simp [Change.neutral]
      · intro enabled secret' hmfa
        rw [mfa_apply_of_neutral (by simp [Change.neutral]), hmfa₅, hmfa₄, hmfa₃, hmfa₂, hmfa₁]
          at hmfa
        obtain ⟨u, hlookup, hu⟩ := Option.map_eq_some_iff.mp hmfa
        rw [hlookup] at hsecret
        have hstored : u.secret? = some encrypted := hsecret
        rw [← (Prod.mk.inj hu).2, hstored]
        rfl
    · exact keeps_refusal _ _ _ _

theorem keeps_resetMfa (userId actorUserId actorPassword : String) :
    Keeps k (resetMfa userId actorUserId actorPassword) s := by
  refine keeps_bind_silent (silent_ask _) fun now s₁ _ => ?_
  refine keeps_bind_silent (Prog.within_perform.mpr trivial) fun actor s₂ _ => ?_
  refine keeps_bind_silent (Prog.within_perform.mpr trivial) fun target s₃ _ => ?_
  split
  · exact keeps_refusal _ _ _ _
  · trivial
  · refine keeps_bind_silent (Prog.within_perform.mpr trivial) fun unused s₄ _ => ?_
    refine keeps_commit fun _ => ⟨trivial, ⟨?_, by simp⟩, fitsAll_of_neutral ?_⟩
    · intro secret hactive
      rw [mfa_setMfa, if_pos rfl] at hactive
      obtain ⟨m, -, hm⟩ := Option.map_eq_some_iff.mp hactive
      exact Bool.false_ne_true (Prod.mk.inj hm).1
    · intro change hchange
      simp only [List.mem_append, List.mem_map, List.mem_singleton] at hchange
      rcases hchange with ⟨hash, -, rfl⟩ | rfl <;> rfl

theorem keeps_body (auth : DatabaseAuthService) : Keeps k (k.body auth) s := by
  cases k with
  | beginMfaEnrollment userId password =>
    exact (keeps_beginMfaEnrollment userId password).bind fun _ => trivial
  | confirmMfaEnrollment userId code at_ =>
    exact (keeps_confirmMfaEnrollment userId code at_).bind fun _ => trivial
  | login a => exact keeps_ordinary ((within_login auth a).bind fun _ => trivial)
  | resetMfa userId actorUserId actorPassword =>
    exact keeps_resetMfa userId actorUserId actorPassword

/-- **A history** keeps the invariant. -/
theorem enrolled_of_session (auth : DatabaseAuthService) {s₀ s : World × Enrollments}
    {tr : List (Event authSig Unit Call Unit)} (hs₀ : Enrolled s₀)
    (h : Session ((enrolling auth).meeting OnlyInactive) s₀ tr s) : Enrolled s := by
  exact h.keeping (fun _ _ _ => keeps_body auth) (fun _ _ hs => hs.of_mfa (fun _ => .inl rfl) rfl)
    (fun _ _ _ hs hidle => hs.of_mfa hidle.2 hidle.1) hs₀

end Programs

/-! ## 5. What login accepts -/

section Accepts

variable [AuthRuntime] {auth : DatabaseAuthService} {s : World} {userId : String} {u : UserRow}
  {a : LoginArgs} {code encrypted secret : String}

omit [AuthRuntime] in
theorem lookup_of_userByName {username : String} (h : s.userByName username = some (userId, u)) :
    s.users.lookup userId = some u := by
  obtain ⟨e, hfind, he⟩ := Option.map_eq_some_iff.mp h
  obtain ⟨rfl, rfl⟩ := Prod.mk.inj he
  exact AList.mem_lookup_iff.mpr (List.mem_of_find?_eq_some hfind)

omit [AuthRuntime] in
theorem returns_atOrNow (at_ : Option ℤ) :
    (atOrNow at_).Returns fun t => at_ = none ∨ at_ = some t := by
  cases at_ with
  | none => exact Prog.returns_perform.bind fun _ _ => Or.inl rfl
  | some t => exact Or.inr rfl

/-- The code is one of the secret, at the time that is given or that the clock may say. -/
def Matches (secret code : String) (at_ : Option ℤ) : Prop :=
  ∃ t, (at_ = none ∨ at_ = some t) ∧ verifyTotp secret code t = .ok true

theorem returns_totpAccepted (hcode : given a.mfaCode = some code)
    (hsecret : u.secret? = some encrypted)
    (hdecrypt : AuthRuntime.decrypt encrypted = some secret) :
    (totpAccepted u a.mfaCode a.at_).Returns fun ok => ok = true → Matches secret code a.at_ := by
  simp only [totpAccepted, hcode, hsecret, decryptSecret, hdecrypt, pure_bind]
  refine (returns_atOrNow _).bind fun t ht => Prog.returns_ofExcept ?_
  rintro ok hverify rfl
  exact ⟨t, ht, hverify⟩

/-- A login for which a second factor is asked returns only if the code is right. -/
theorem returns_loginVerified (key : String) (hmfa : u.mfaEnabled = true)
    (hcode : given a.mfaCode = some code) (hrecovery : given a.recoveryCode = none)
    (hsecret : u.secret? = some encrypted)
    (hdecrypt : AuthRuntime.decrypt encrypted = some secret) :
    (loginVerified auth key userId u a).Returns fun _ => Matches secret code a.at_ := by
  refine (Prog.returns_any _).bind fun upgrade _ => ?_
  simp only [hmfa, if_true, secondFactor, recoveryAccepted, hrecovery, bind_assoc]
  refine (returns_totpAccepted hcode hsecret hdecrypt).bind fun ok hok => ?_
  cases ok with
  | true => exact (Prog.returns_any _).mono fun _ _ => hok rfl
  | false =>
    simp only [Bool.false_eq_true, if_false, pure_bind]
    exact (Prog.returns_any _).bind fun _ _ => (Prog.returns_any _).bind fun _ _ => trivial

theorem matches_of_accepts (huser : s.userByName a.username = some (userId, u))
    (hmfa : u.mfaEnabled = true) (hcode : given a.mfaCode = some code)
    (hrecovery : given a.recoveryCode = none) (hsecret : u.secret? = some encrypted)
    (hdecrypt : AuthRuntime.decrypt encrypted = some secret) (h : Accepts auth s a) :
    Matches secret code a.at_ := by
  obtain ⟨result, s', hruns⟩ := h
  refine hruns.of_wp (Q := fun r _ => ∀ result, r = .ok result → Matches secret code a.at_) ?_
    result rfl
  refine wp_bind.mpr (wp_mono ?_ (wp_within (P := fun s' => s'.users = s.users) (A := Silent)
    (Protocol.stable_alone _) ?_ (silent_check _) rfl))
  · rintro (e | _) s₁ hs₁
    · nofun
    · refine wp_bind.mpr (wp_free_perform.mpr ?_)
      rintro r s₂ (⟨rfl, -⟩ | ⟨⟨e, rfl⟩, -⟩)
      · have hfound : s₁.userByName a.username = some (userId, u) := by
          rw [← huser, World.userByName, hs₁, World.userByName]
        rw [onOk_ok, hfound]
        split
        · rename_i hverified
          have hsame := Option.some.inj (Option.filter_eq_some_iff.mp hverified).1
          obtain ⟨rfl, rfl⟩ := Prod.mk.inj hsame
          exact wp_free_returns (returns_loginVerified _ hmfa hcode hrecovery hsecret hdecrypt)
        · refine wp_free_returns ?_
          exact (Prog.returns_any _).bind fun _ _ => (Prog.returns_any _).bind fun _ _ => trivial
      · nofun
  · rintro o s₁ r s₂ ho hs₁ - (hdoes | ⟨-, rfl⟩)
    · refine ⟨trivial, trivial, ?_⟩
      cases o with
      | commit changes => exact ho.elim
      | ask q => rw [hdoes.2, hs₁]
      | setAttempts key xs => rw [hdoes.2]; exact hs₁
      | _ => rw [hdoes.2, hs₁]
    · exact ⟨trivial, trivial, hs₁⟩

omit [AuthRuntime] in
/-- There is a time when no attempt is recent. -/
theorem exists_later (xs : List ℚ) : ∃ now : ℚ, ∀ x ∈ xs, x + 300 ≤ now := by
  induction xs with
  | nil => exact ⟨0, by simp⟩
  | cons x xs ih =>
    obtain ⟨now, hnow⟩ := ih
    refine ⟨max (x + 300) now, fun y hy => ?_⟩
    rcases List.mem_cons.mp hy with rfl | hmem
    · exact le_max_left _ _
    · exact (hnow y hmem).trans (le_max_right _ _)

theorem may_check {key : String} {Q : Except Exc Unit → World → Prop}
    (hQ : ∀ attempts, Q (.ok ()) { s with attempts := attempts }) :
    may handler (LoginThrottle.check key) Q s := by
  obtain ⟨now, hnow⟩ := exists_later (s.attempts key)
  have hnone : (s.attempts key).filter (fun x => decide (now - x < 300)) = [] := by
    refine List.filter_eq_nil_iff.mpr fun x hx => ?_
    have hlater : x + 300 ≤ now := hnow x hx
    simp only [decide_eq_true_eq, not_lt]
    linarith
  refine may_bind.mpr (may_perform.mpr ⟨.ok now, s, Or.inl ⟨trivial, rfl⟩, ?_⟩)
  refine may_bind.mpr (may_perform.mpr ⟨.ok (s.attempts key), s, Or.inl ⟨rfl, rfl⟩, ?_⟩)
  refine may_bind.mpr (may_perform.mpr ⟨.ok (), _, Or.inl ⟨rfl, rfl⟩, ?_⟩)
  rw [onOk_ok, hnone]
  exact hQ _

theorem may_upgradePassword {password : String} {Q : Except Exc (List Change) → World → Prop}
    (hupgrade : AuthRuntime.needsUpgrade u.passwordHash = true → 12 ≤ password.length)
    (hQ : ∀ changes, (changes = [] ∨ ∃ hash, changes = [.setPassword userId hash]) →
      Q (.ok changes) s) : may handler (upgradePassword userId u password) Q s := by
  unfold upgradePassword hashPassword
  split
  · rename_i hneeds
    have hlong : ¬ password.length < 12 := not_lt.mpr (hupgrade hneeds)
    rw [if_neg hlong]
    refine may_bind.mpr (may_perform.mpr ⟨.ok "", s, Or.inl ⟨trivial, rfl⟩, ?_⟩)
    exact hQ _ (Or.inr ⟨"", rfl⟩)
  · exact hQ [] (Or.inl rfl)

omit [AuthRuntime] in
/-- The clock can show any time. -/
theorem may_atOrNow [AuthRuntime] {at_ : Option ℤ} {t : ℤ} {Q : Except Exc ℤ → World → Prop}
    (ht : at_ = none ∨ at_ = some t) (hQ : Q (.ok t) s) : may handler (atOrNow at_) Q s := by
  rcases ht with rfl | rfl
  · refine may_bind.mpr (may_perform.mpr ⟨.ok (t : ℚ), s, Or.inl ⟨trivial, rfl⟩, ?_⟩)
    rw [onOk_ok, Int.floor_intCast]
    exact hQ
  · exact hQ

theorem may_openSession {key : String} {changes : List Change}
    (hchanges : changes = [] ∨ ∃ hash, changes = [.setPassword userId hash])
    (hfresh : ∃ raw, s.sessions.lookup (AuthRuntime.sha256 raw) = none) :
    may handler (openSession auth key userId u changes) (fun r _ => ∃ result, r = .ok result)
      s := by
  obtain ⟨raw, hraw⟩ := hfresh
  refine may_bind.mpr (may_perform.mpr ⟨.ok raw, s, Or.inl ⟨trivial, rfl⟩, ?_⟩)
  refine may_bind.mpr (may_perform.mpr ⟨.ok "", s, Or.inl ⟨trivial, rfl⟩, ?_⟩)
  refine may_bind.mpr (may_perform.mpr ⟨.ok 0, s, Or.inl ⟨trivial, rfl⟩, ?_⟩)
  refine may_bind.mpr (may_perform.mpr ⟨.ok (), _, Or.inl ⟨rfl, ?_, rfl⟩, ?_⟩)
  · rcases hchanges with rfl | ⟨hash, rfl⟩ <;>
      simp [World.admits, World.clashes, World.applyOne, event, hraw]
  · exact may_bind.mpr (may_perform.mpr ⟨.ok (), _, Or.inl ⟨rfl, rfl⟩, _, rfl⟩)

theorem accepts_of_matches (huser : s.userByName a.username = some (userId, u))
    (hmfa : u.mfaEnabled = true)
    (hpassword : AuthRuntime.verifyPassword u.passwordHash a.password = true)
    (hupgrade : AuthRuntime.needsUpgrade u.passwordHash = true → 12 ≤ a.password.length)
    (hcode : given a.mfaCode = some code) (hsecret : u.secret? = some encrypted)
    (hdecrypt : AuthRuntime.decrypt encrypted = some secret)
    (hfresh : ∃ raw, s.sessions.lookup (AuthRuntime.sha256 raw) = none)
    (h : Matches secret code a.at_) : Accepts auth s a := by
  obtain ⟨t, ht, hverify⟩ := h
  have hmay : may handler (login auth a) (fun r _ => ∃ result, r = .ok result) s := by
    refine may_bind.mpr (may_check fun attempts => ?_)
    refine may_bind.mpr (may_perform.mpr ⟨.ok (some (userId, u)), _, Or.inl ⟨?_, rfl⟩, ?_⟩)
    · exact congrArg Except.ok huser.symm
    have hverified : (some (userId, u)).filter
        (fun e => AuthRuntime.verifyPassword e.2.passwordHash a.password) = some (userId, u) := by
      simp [hpassword]
    rw [onOk_ok, hverified]
    refine may_bind.mpr (may_upgradePassword hupgrade fun upgrade hchanges => ?_)
    simp only [hmfa, if_true, secondFactor, totpAccepted, hcode, hsecret, decryptSecret,
      hdecrypt, pure_bind, bind_assoc]
    refine may_bind.mpr (may_atOrNow ht ?_)
    rw [onOk_ok, hverify]
    refine may_openSession ?_ hfresh
    simpa [Method.changes] using hchanges
  obtain ⟨r, s', hruns, result, rfl⟩ := may_iff.mp hmay
  exact ⟨result, s', hruns⟩

end Accepts

/-! ## 6. The result -/

section Result

variable [AuthRuntime]

/-- **An unconfirmed enrollment changes nothing for login.**  After every history in which no
secret is written over an active second factor, the codes that a login with the right password
accepts are those of the secret that was confirmed last.  (The upgrade of an outdated hash must not
fail, and there must be a session token that is new.) -/
theorem login_accepts_confirmed (auth : DatabaseAuthService) {s₀ s : World × Enrollments}
    {tr : List (Event authSig Unit Call Unit)} (hs₀ : Enrolled s₀)
    (h : Session ((enrolling auth).meeting OnlyInactive) s₀ tr s)
    {userId code : String} {u : UserRow} {a : LoginArgs}
    (huser : s.1.userByName a.username = some (userId, u)) (hmfa : u.mfaEnabled = true)
    (hpassword : AuthRuntime.verifyPassword u.passwordHash a.password = true)
    (hupgrade : AuthRuntime.needsUpgrade u.passwordHash = true → 12 ≤ a.password.length)
    (hcode : given a.mfaCode = some code) (hrecovery : given a.recoveryCode = none)
    (hfresh : ∃ raw, s.1.sessions.lookup (AuthRuntime.sha256 raw) = none) :
    ∃ secret, s.2.confirmed userId = some secret ∧
      (Accepts auth s.1 a ↔ Matches secret code a.at_) := by
  have hs : Enrolled s := enrolled_of_session auth hs₀ h
  have hrow : s.1.mfa userId = some (true, u.secret?) := by
    rw [World.mfa, lookup_of_userByName huser, Option.map_some, hmfa]
  obtain ⟨hsome, hconfirmed⟩ := hs.confirmed userId u.secret? hrow
  obtain ⟨encrypted, hsecret⟩ := Option.isSome_iff_exists.mp hsome
  rw [hsecret] at hrow
  obtain ⟨secret, hdecrypt, hpending⟩ := hs.pending userId true encrypted hrow
  refine ⟨secret, hconfirmed.trans hpending, ?_, ?_⟩
  · exact matches_of_accepts huser hmfa hcode hrecovery hsecret hdecrypt
  · exact accepts_of_matches huser hmfa hpassword hupgrade hcode hsecret hdecrypt hfresh

end Result

/-! ## 7. Enrollments that succeed -/

section Succeeding

variable [AuthRuntime] {cond : (o : Op) → World × Enrollments → authSig.Ans o → Prop}
  {s : World × Enrollments} {userId password code encrypted secret : String} {u : UserRow}

/-- After a commit. -/
def committed (s : World × Enrollments) (changes : List Change) : World × Enrollments :=
  (s.1.apply changes, changes.foldl Enrollments.note s.2)

theorem may_bind_commit {β : Type} {changes : List Change} {f : Unit → Program β}
    {Q : Except Exc β → World × Enrollments → Prop} (hcond : cond (.commit changes) s (.ok ()))
    (hadmits : s.1.admits changes = true)
    (hf : may ((handler.noting Enrollments.noteOp).meeting cond) (f ()) Q (committed s changes)) :
    may ((handler.noting Enrollments.noteOp).meeting cond) (commit changes >>= f) Q s :=
  may_bind.mpr (may_perform.mpr ⟨.ok (), committed s changes,
    ⟨⟨Or.inl ⟨rfl, hadmits, rfl⟩, rfl⟩, hcond⟩, hf⟩)

/-- What an operation that commits nothing may answer. -/
theorem may_bind_answer {β : Type} {o : Op} {a : authSig.Val o} {f : authSig.Val o → Program β}
    {Q : Except Exc β → World × Enrollments → Prop} (ho : Silent o)
    (hsilent : ∀ o s r, Silent o → cond o s r) (hdoes : does o s.1 (.ok a) s.1)
    (hf : may ((handler.noting Enrollments.noteOp).meeting cond) (f a) Q s) :
    may ((handler.noting Enrollments.noteOp).meeting cond) (perform o >>= f) Q s := by
  refine may_bind.mpr (may_perform.mpr ⟨.ok a, s, ⟨⟨Or.inl hdoes, ?_⟩, hsilent _ _ _ ho⟩, hf⟩)
  cases o with
  | commit changes => exact ho.elim
  | _ => rfl

theorem may_beginMfaEnrollment (hsilent : ∀ o s r, Silent o → cond o s r)
    (huser : s.1.users.lookup userId = some u)
    (hpassword : AuthRuntime.verifyPassword u.passwordHash password = true)
    (hencrypted : encrypted ≠ "") (hdecrypt : AuthRuntime.decrypt encrypted = some secret)
    (hcond : cond (.commit [.setSecret userId (some encrypted),
      event "MFA_ENROLLMENT_STARTED" "INFO" userId]) s (.ok ())) :
    may ((handler.noting Enrollments.noteOp).meeting cond) (beginMfaEnrollment userId password)
      (fun r s' => r = .ok secret ∧ s' = committed s [.setSecret userId (some encrypted),
        event "MFA_ENROLLMENT_STARTED" "INFO" userId]) s := by
  refine may_bind_answer (a := some u) trivial hsilent ⟨congrArg Except.ok huser.symm, rfl⟩ ?_
  have hright : reauthenticated (some u) password = some u := by
    simp [reauthenticated, hpassword]
  rw [hright]
  refine may_bind_answer (a := secret) trivial hsilent ⟨trivial, rfl⟩ ?_
  refine may_bind_answer (a := encrypted) trivial hsilent ⟨⟨hencrypted, hdecrypt⟩, rfl⟩ ?_
  exact may_bind_commit hcond rfl ⟨rfl, rfl⟩

/-- Ten codes of ten tokens. -/
def codesOf (raws : List String) : List String :=
  raws.map fun raw => raw.map fun c => if c = '-' then 'A' else if c = '_' then 'B' else c

theorem may_generateRecoveryCodes (hsilent : ∀ o s r, Silent o → cond o s r) (raws : List String)
    {Q : Except Exc (List String) → World × Enrollments → Prop} (hQ : Q (.ok (codesOf raws)) s) :
    may ((handler.noting Enrollments.noteOp).meeting cond) (generateRecoveryCodes raws.length) Q
      s := by
  induction raws generalizing Q with
  | nil => exact hQ
  | cons raw raws ih =>
    refine may_bind_answer (a := raw) trivial hsilent ⟨trivial, rfl⟩ ?_
    exact may_bind.mpr (ih hQ)

/-- What a confirmation commits. -/
def confirmation (userId : String) (codes : List String) : List Change :=
  codes.map (fun c => .addCode (recoveryHash c) userId) ++
    [.setMfa userId true, event "MFA_ENABLED" "INFO" userId]

theorem may_confirmMfaEnrollment (hsilent : ∀ o s r, Silent o → cond o s r)
    (huser : s.1.users.lookup userId = some u) (hsecret : u.secret? = some encrypted)
    (hdecrypt : AuthRuntime.decrypt encrypted = some secret) {t : ℤ}
    (hverify : verifyTotp secret code t = .ok true) {raws : List String} (hten : raws.length = 10)
    (hcond : cond (.commit (confirmation userId (codesOf raws))) s (.ok ()))
    (hadmits : s.1.admits (confirmation userId (codesOf raws)) = true) :
    may ((handler.noting Enrollments.noteOp).meeting cond)
      (confirmMfaEnrollment userId code (some t))
      (fun r s' => r = .ok (codesOf raws) ∧
        s' = committed s (confirmation userId (codesOf raws))) s := by
  refine may_bind_answer (a := some u) trivial hsilent ⟨congrArg Except.ok huser.symm, rfl⟩ ?_
  have hpending : (some u).bind UserRow.secret? = some encrypted := hsecret
  simp only [hpending, decryptSecret, hdecrypt, pure_bind, atOrNow, lift, hverify]
  refine may_bind.mpr (may_ofExcept.mpr ?_)
  rw [onOk_ok, if_pos rfl, ← hten]
  refine may_bind.mpr (may_generateRecoveryCodes hsilent raws ?_)
  exact may_bind_commit hcond hadmits ⟨rfl, rfl⟩

omit [AuthRuntime] in
/-- A call whose result is not looked at. -/
theorem runs_of_may {α : Type} {H : Handler authSig (World × Enrollments)} {p : Program α} {a : α}
    {s' : World × Enrollments} (h : may H p (fun r t => r = .ok a ∧ t = s') s) :
    Runs H (p >>= fun _ => pure ()) s (.ok ()) s' := by
  have hbody : may H (p >>= fun _ => pure ()) (fun r t => r = .ok () ∧ t = s') s := by
    refine may_bind.mpr (may_mono ?_ h)
    rintro r t ⟨rfl, rfl⟩
    exact ⟨rfl, rfl⟩
  obtain ⟨r, t, hruns, rfl, rfl⟩ := may_iff.mp hbody
  exact hruns

end Succeeding

/-! ## 8. A second enrollment that is not confirmed -/

section SecondEnrollment

attribute [local instance] marked

/-- A user without a second factor. -/
def newUser : World × Enrollments where
  fst := {
    users := AList.insert "u-1" ⟨"alice", "$a long password", "viewer", false, none⟩ ∅
    resets := ∅
    codes := ∅
    sessions := ∅
    events := []
    attempts := fun _ => [] }
  snd := ⟨fun _ => none, fun _ => none⟩

/-- The secret is stored under a mark. -/
def begun (s : World × Enrollments) (secret : String) : World × Enrollments :=
  committed s [.setSecret "u-1" (some (String.ofList ('*' :: secret.toList))),
    event "MFA_ENROLLMENT_STARTED" "INFO" "u-1"]

def tenTokens : List String :=
  ["token-0", "token-1", "token-2", "token-3", "token-4", "token-5", "token-6", "token-7",
    "token-8", "token-9"]

/-- One enrollment, begun and confirmed. -/
def enrolledUser : World × Enrollments :=
  committed (begun newUser digitsSecret) (confirmation "u-1" (codesOf tenTokens))

def firstCalls : List (Event authSig Unit Call Unit) :=
  [.done (.beginMfaEnrollment "u-1" "a long password") (.ok ()),
    .done (.confirmMfaEnrollment "u-1" "287082" (some 59)) (.ok ())]

theorem silent_onlyInactive (k : Call) (o : Op) (s : World × Enrollments) (r : authSig.Ans o)
    (ho : Silent o) : OnlyInactive k o s r := by
  cases o with
  | commit changes => exact ho.elim
  | _ => trivial

theorem lookup_newUser : newUser.1.users.lookup "u-1" =
    some ⟨"alice", "$a long password", "viewer", false, none⟩ := by
  decide

theorem lookup_begun : (begun newUser digitsSecret).1.users.lookup "u-1" =
    some ⟨"alice", "$a long password", "viewer", false,
      some (String.ofList ('*' :: digitsSecret.toList))⟩ := by
  decide

theorem lookup_enrolledUser : enrolledUser.1.users.lookup "u-1" =
    some ⟨"alice", "$a long password", "viewer", true,
      some (String.ofList ('*' :: digitsSecret.toList))⟩ := by
  decide

theorem runs_newUser : Runs (inactiveOnly (.beginMfaEnrollment "u-1" "a long password"))
    (beginMfaEnrollment "u-1" "a long password" >>= fun _ => pure ()) newUser (.ok ())
    (begun newUser digitsSecret) := by
  refine runs_of_may (may_beginMfaEnrollment (silent_onlyInactive _) lookup_newUser
    (by decide) (mark_ne_empty _) (decrypt_mark _) ?_)
  intro userId encrypted hmem secret hactive
  obtain ⟨rfl, -⟩ : userId = "u-1" ∧ _ := by simpa [event] using hmem
  rw [World.mfa, lookup_newUser] at hactive
  cases hactive

theorem runs_begun : Runs (inactiveOnly (.confirmMfaEnrollment "u-1" "287082" (some 59)))
    (confirmMfaEnrollment "u-1" "287082" (some 59) >>= fun _ => pure ())
    (begun newUser digitsSecret) (.ok ()) enrolledUser := by
  have hverify : verifyTotp digitsSecret "287082" 59 = .ok true := by decide
  refine runs_of_may (may_confirmMfaEnrollment (silent_onlyInactive _) lookup_begun
    (by decide +kernel) (decrypt_mark digitsSecret) hverify rfl ?_ (by decide +kernel))
  intro userId encrypted hmem
  simp [confirmation, codesOf, event] at hmem

theorem session_enrolledUser :
    Session ((enrolling ⟨3600⟩).meeting OnlyInactive) newUser firstCalls enrolledUser :=
  .done _ _ runs_newUser (.done _ _ runs_begun (.nil _))

theorem enrolled_newUser : Enrolled newUser := by
  refine enrolled_of_none (s := newUser.1) fun userId => ?_
  by_cases huser : userId = "u-1"
  · subst huser
    exact Or.inr (by decide)
  · refine Or.inl ?_
    have hother : newUser.1.users.lookup userId = none := by
      rw [newUser, AList.lookup_insert_ne huser]
      rfl
    rw [World.mfa, hother, Option.map_none]

/-- A login with a code of the time 59. -/
def aliceWith (code : String) : LoginArgs := ⟨"alice", "a long password", code, none, some 59⟩

theorem login_accepts_confirmed_enrolledUser :
    ∃ secret, enrolledUser.2.confirmed "u-1" = some secret ∧
      (Accepts ⟨3600⟩ enrolledUser.1 (aliceWith "287082") ↔ Matches secret "287082" (some 59)) :=
  login_accepts_confirmed (a := aliceWith "287082") ⟨3600⟩ enrolled_newUser session_enrolledUser
    (by decide :
      enrolledUser.1.userByName "alice" = some ("u-1", ⟨"alice", "$a long password", "viewer", true,
        some (String.ofList ('*' :: digitsSecret.toList))⟩))
    rfl (by decide) (by decide) (by decide) (by decide)
    ⟨"token", by decide⟩

/-- The history with one more enrollment, that is not confirmed. -/
theorem session_begun : Session (enrolling ⟨3600⟩) newUser
    (firstCalls ++ [.done (.beginMfaEnrollment "u-1" "a long password") (.ok ())])
    (begun enrolledUser helloSecret) := by
  have hagain : Runs ((handler.noting Enrollments.noteOp).meeting fun _ _ _ => True)
      (beginMfaEnrollment "u-1" "a long password" >>= fun _ => pure ()) enrolledUser (.ok ())
      (begun enrolledUser helloSecret) :=
    runs_of_may (may_beginMfaEnrollment (fun _ _ _ _ => trivial) lookup_enrolledUser
      (by decide) (mark_ne_empty _) (decrypt_mark helloSecret) trivial)
  exact .done _ _ runs_newUser.of_meeting (.done _ _ runs_begun.of_meeting
    (.done _ _ hagain.of_meeting (.nil _)))

/-- **The code of a secret that was never confirmed** is accepted. -/
theorem accepts_unconfirmed :
    ¬ ∀ (s : World × Enrollments) (tr : List (Event authSig Unit Call Unit)),
      Session (enrolling ⟨3600⟩) newUser tr s →
      ∀ (userId code : String) (u : UserRow) (a : LoginArgs),
        s.1.userByName a.username = some (userId, u) → u.mfaEnabled = true →
        AuthRuntime.verifyPassword u.passwordHash a.password = true →
        (AuthRuntime.needsUpgrade u.passwordHash = true → 12 ≤ a.password.length) →
        given a.mfaCode = some code → given a.recoveryCode = none →
        (∃ raw, s.1.sessions.lookup (AuthRuntime.sha256 raw) = none) →
        ∃ secret, s.2.confirmed userId = some secret ∧
          (Accepts ⟨3600⟩ s.1 a ↔ Matches secret code a.at_) := by
  intro h
  have huser : (begun enrolledUser helloSecret).1.userByName "alice" =
      some ("u-1", ⟨"alice", "$a long password", "viewer", true,
        some (String.ofList ('*' :: helloSecret.toList))⟩) := by decide
  have hfresh : ∃ raw, (begun enrolledUser helloSecret).1.sessions.lookup
      (AuthRuntime.sha256 raw) = none := ⟨"token", by decide⟩
  obtain ⟨secret, hconfirmed, haccepts⟩ := h _ _ session_begun "u-1" "503347" _
    (aliceWith "503347") huser rfl (by decide) (by decide) (by decide)
    (by decide) hfresh
  have hdigits : (begun enrolledUser helloSecret).2.confirmed "u-1" = some digitsSecret := by
    decide
  obtain rfl : secret = digitsSecret := Option.some.inj (hconfirmed.symm.trans hdigits)
  have hnew : verifyTotp helloSecret "503347" 59 = .ok true := by decide
  have haccept : Accepts ⟨3600⟩ (begun enrolledUser helloSecret).1 (aliceWith "503347") :=
    accepts_of_matches huser rfl (by decide) (by decide) (by decide)
      (by decide) (decrypt_mark helloSecret) hfresh ⟨59, Or.inr rfl, hnew⟩
  obtain ⟨t, ht, hold⟩ := haccepts.mp haccept
  obtain rfl : t = 59 := by
    rcases ht with hnone | hsome
    · cases hnone
    · exact (Option.some.inj hsome).symm
  exact absurd hold (by decide)

end SecondEnrollment

end Kripto.Auth
