/-
# What the processes of an operation lock leave each other

The invariant of the lock file and the protocol of the processes, for runs that meet the
conditions of section 1.  The lock of a process that lives stays as it is, except for a heartbeat,
until the process removes it itself.  What carries this is `wp_ownerState`: a lock that says who
its owner is, is not to be recovered while that owner lives, because everything that could tell
another process otherwise agrees with the lock.
-/
import Kripto.Deploy.OperationLock

namespace Kripto.Deploy.OperationLock

open Effect

variable {ι : Type}

/-! ## 1. The conditions on a run -/

/-- The identity that an answer to `t` about `u` should come to. -/
def Machine.Identified (m : Machine ι) (t u : ι) : Ask → String → Prop
  | .bootIdFile, x | .bootTime, x => x = m.boot u
  | .createTime pid, x | .statFields pid, x => m.pid u = pid → x = m.start u
  | .instanceId, x => u = t → x = m.start u
  | _, _ => True

/-- An identity read is that of every living process of the host it can be about. -/
def Agrees (m : Machine ι) (t : ι) : (o : Op) → World ι → lockSig.Ans o → Prop
  | .ask q, s, .ok a => ∀ x ∈ q.identity a, ∀ u, s.alive u = true → m.host u = m.host t →
      m.Identified t u q x
  | _, _, _ => True

/-- What is unlinked as stale is the lock that was read again, and what a refresh replaces is the
lock it refreshes, if there is anything. -/
def Current : Op → World ι → Prop
  | .unlink (.stale token), s => s.file = none ∨ s.Has token
  | .replace p, s => s.file = none ∨ s.Has p.token
  | _, _ => True

/-- The dead do nothing, and identities agree. -/
def Honest (m : Machine ι) (x : Thread ι) (o : Op) (s : World ι) (r : lockSig.Ans o) : Prop :=
  s.alive x.process = true ∧ Agrees m x.process o s r

def Guarded (m : Machine ι) (x : Thread ι) (o : Op) (s : World ι) (r : lockSig.Ans o) : Prop :=
  Honest m x o s r ∧ Current o s

/-- No lock, or a lock of a process that is dead.  Nobody is inside. -/
structure Beginning (s : World ι) : Prop where
  stale : ∀ p, s.file = some (.text p) → ∃ u, s.issued p.token = some u ∧ s.alive u = false
  unfinished : ∀ t, s.file = some (.unfinished t) → s.alive t = false
  outside : ∀ t, s.inside t = none

/-- At most one living process is in the with-body. -/
def Exclusive (s : World ι) : Prop :=
  ∀ t u, s.alive t = true → s.alive u = true → s.inside t ≠ none → s.inside u ≠ none → t = u

/-! ## 2. The invariant -/

/-- A lock file that says who `u` is. -/
structure Machine.Describes (m : Machine ι) (u : ι) (p : Payload) : Prop where
  schemaVersion : p.schemaVersion = "1.1"
  hostname : p.hostname = m.host u
  pid : p.pid = m.pid u
  boot : p.bootIdentity = m.boot u
  start : p.processStartIdentity = m.start u

/-- Somebody has drawn the token, and the lock says who, as long as that process lives. -/
def Owned (m : Machine ι) (p : Payload) (s : World ι) : Prop :=
  ∃ u, s.issued p.token = some u ∧ (s.alive u = true → m.Describes u p)

structure Inv (m : Machine ι) (s : World ι) : Prop where
  owned : ∀ p, s.file = some (.text p) → Owned m p s
  inside : ∀ t token, s.alive t = true → s.inside t = some token →
    s.issued token = some t ∧ s.Has token

theorem has_iff {s : World ι} {token : String} :
    s.Has token ↔ ∃ p, s.file = some (.text p) ∧ p.token = token := by
  unfold World.Has
  constructor
  · intro h
    obtain ⟨c, hc, htoken⟩ := Option.bind_eq_some_iff.mp h
    cases c with
    | unfinished t => cases htoken
    | text p => exact ⟨p, hc, Option.some.inj htoken⟩
  · rintro ⟨p, hp, rfl⟩
    rw [hp]
    rfl

theorem World.Has.unique {s : World ι} {token token' : String} (h : s.Has token)
    (h' : s.Has token') : token = token' :=
  Option.some.inj (h.symm.trans h')

/-- The file at the path is one `v` has created. -/
def World.Holds (s : World ι) (v : ι) : Prop :=
  s.file = some (.unfinished v) ∨ ∃ token, s.issued token = some v ∧ s.Has token

/-- Only one process holds a file. -/
theorem World.Holds.unique {s : World ι} {t u : ι} (h : s.Holds t) (h' : s.Holds u) : t = u := by
  rcases h with h | ⟨token, ht, htoken⟩ <;> rcases h' with h' | ⟨token', hu, htoken'⟩
  · rw [h] at h'
    cases h'
    rfl
  · obtain ⟨p, hp, -⟩ := has_iff.mp htoken'
    rw [h] at hp
    cases hp
  · obtain ⟨p, hp, -⟩ := has_iff.mp htoken
    rw [h'] at hp
    cases hp
  · obtain rfl := htoken.unique htoken'
    exact Option.some.inj (ht.symm.trans hu)

/-- Whoever is inside holds the lock. -/
theorem Inv.holds {m : Machine ι} {s : World ι} (hi : Inv m s) {t : ι} (hlive : s.alive t = true)
    (hin : s.inside t ≠ none) : s.Holds t := by
  obtain ⟨token, htoken⟩ := Option.ne_none_iff_exists'.mp hin
  exact Or.inr ⟨token, hi.inside t token hlive htoken⟩

/-- **So no two are.** -/
theorem Inv.exclusive {m : Machine ι} {s : World ι} (hi : Inv m s) : Exclusive s :=
  fun _ _ ht hu hint hinu => (hi.holds ht hint).unique (hi.holds hu hinu)

theorem Beginning.inv {s : World ι} (h : Beginning s) (m : Machine ι) : Inv m s where
  owned p hp := by
    obtain ⟨u, hu, hdead⟩ := h.stale p hp
    exact ⟨u, hu, fun hlive => absurd hlive (by simp [hdead])⟩
  inside t token _ hin := by
    rw [h.outside t] at hin
    cases hin

/-! ## 3. What the others leave alone -/

/-- Nobody comes back to life, and tokens are drawn once. -/
structure Later (s s' : World ι) : Prop where
  alive : ∀ t, s'.alive t = true → s.alive t = true
  issued : ∀ token t, s.issued token = some t → s'.issued token = some t

/-- The lock of `t` stays, as long as `t` lives. -/
structure Kept (s s' : World ι) (t : ι) : Prop where
  inside : s'.inside t = s.inside t
  unfinished : s'.alive t = true → s.file = some (.unfinished t) → s'.file = some (.unfinished t)
  lock : s'.alive t = true → ∀ token, s.issued token = some t → s.Has token → s'.Has token

/-- A change that leaves the processes of `T` their locks. -/
structure Leaves (T : ι → Prop) (s s' : World ι) : Prop extends Later s s' where
  kept : ∀ t, T t → Kept s s' t

section Leaves

variable {T T' : ι → Prop} {s s' s'' : World ι}

theorem Leaves.refl (T : ι → Prop) (s : World ι) : Leaves T s s :=
  ⟨⟨fun _ => id, fun _ _ => id⟩, fun _ _ => ⟨rfl, fun _ => id, fun _ _ _ => id⟩⟩

theorem Leaves.trans (h : Leaves T s s') (h' : Leaves T s' s'') : Leaves T s s'' where
  alive t ht := h.alive t (h'.alive t ht)
  issued token t ht := h'.issued token t (h.issued token t ht)
  kept t ht := by
    have k := h.kept t ht
    have k' := h'.kept t ht
    constructor
    · exact k'.inside.trans k.inside
    · exact fun hlive hfile => k'.unfinished hlive (k.unfinished (h'.alive t hlive) hfile)
    · exact fun hlive token hissued htoken => k'.lock hlive token (h.issued token t hissued)
        (k.lock (h'.alive t hlive) token hissued htoken)

theorem Leaves.mono (h : Leaves T s s') (hT : ∀ t, T' t → T t) : Leaves T' s s' :=
  ⟨h.toLater, fun t ht => h.kept t (hT t ht)⟩

/-- The file may change if no living process of `T` holds it. -/
theorem leaves_file (c : Option (Content ι)) (h : ∀ t, T t → s.alive t = true → ¬ s.Holds t) :
    Leaves T s { s with file := c } := by
  refine ⟨⟨fun _ => id, fun _ _ => id⟩, fun t ht => ⟨rfl, ?_, ?_⟩⟩
  · exact fun hlive hfile => absurd (Or.inl hfile) (h t ht hlive)
  · exact fun hlive token hissued htoken => absurd (Or.inr ⟨token, hissued, htoken⟩) (h t ht hlive)

theorem Inv.file {m : Machine ι} {c : Option (Content ι)} (hi : Inv m s)
    (hc : ∀ p, c = some (.text p) → Owned m p s)
    (h : ∀ t, s.alive t = true → s.Holds t → s.inside t = none) :
    Inv m { s with file := c } := by
  refine ⟨hc, fun t token hlive hin => ?_⟩
  replace hlive : s.alive t = true := hlive
  replace hin : s.inside t = some token := hin
  have hnone := h t hlive (hi.holds hlive (by simp [hin]))
  rw [hin] at hnone
  cases hnone

end Leaves

/-! ## 4. The protocol -/

/-- Everybody leaves the others their locks. -/
def exclusive (m : Machine ι) : Protocol (Thread ι) (World ι) where
  inv := Inv m
  rely x := Leaves fun t => x = .main t
  guar x := Leaves fun t => x ≠ .main t
  rely_refl _ := Leaves.refl _
  rely_trans _ {_ _ _} := Leaves.trans
  compat hxy _ _ h := h.mono fun _ ht hx => hxy (hx.trans ht.symm)

section Steps

variable [DecidableEq ι] {m : Machine ι} {x : Thread ι} {t : ι} {s s' : World ι}

/-- What a thread can do in a run that meets the conditions. -/
abbrev stepOf (m : Machine ι) (x : Thread ι) : Handler lockSig (World ι) :=
  ((entrants m).meeting (Guarded m)).handler x

/-- Operations that touch nothing but heartbeats. -/
def Op.Quiet : Op → Prop
  | .ask _ | .present | .readText | .wake _ | .settle .. | .stop _ => True
  | _ => False

theorem quiet_step {o : Op} (ho : o.Quiet) {r : lockSig.Ans o} (h : stepOf m x o s r s') :
    ∃ b, s' = { s with beat := b } := by
  obtain ⟨hdoes | ⟨-, -, rfl⟩, -⟩ := h
  · cases o with
    | ask q => exact ⟨s.beat, hdoes.2⟩
    | present => exact ⟨s.beat, hdoes.2⟩
    | readText => exact ⟨s.beat, hdoes.2⟩
    | wake token => exact ⟨_, hdoes.2.2⟩
    | settle token b => exact ⟨_, hdoes.2⟩
    | stop token =>
      obtain ⟨j, -, ⟨-, rfl⟩ | ⟨-, -, rfl⟩⟩ := hdoes
      · exact ⟨s'.beat, rfl⟩
      · exact ⟨_, rfl⟩
    | _ => exact ho.elim
  · exact ⟨s'.beat, rfl⟩

/-- An assertion about the lock that the others cannot falsify and heartbeats do not touch. -/
structure Firm (m : Machine ι) (x : Thread ι) (P : World ι → Prop) : Prop where
  stable : (exclusive m).Stable x P
  beat : ∀ s b, P s → P { s with beat := b }

theorem wp_quiet {α : Type} {P : World ι → Prop} (hP : Firm m x P) {p : Program α}
    (hp : p.Within Op.Quiet) (h : P s) :
    wp (stepOf m x) (exclusive m) x p (fun _ => P) s := by
  refine wp_within hP.stable ?_ hp h
  rintro o s₁ r s₂ ho h₁ hi hstep
  obtain ⟨b, rfl⟩ := quiet_step ho hstep
  refine ⟨⟨⟨fun _ => id, fun _ _ => id⟩, fun _ _ => ⟨rfl, fun _ => id, fun _ _ _ => id⟩⟩, ?_,
    hP.beat s₁ b h₁⟩
  exact ⟨hi.owned, hi.inside⟩

omit [DecidableEq ι] in
theorem firm_true : Firm m x fun _ => True := ⟨fun _ _ _ _ _ => trivial, fun _ _ _ => trivial⟩

/-- A question, and what its answer says. -/
theorem wp_ask_firm {q : Ask} {P : World ι → Prop} (hP : Firm m x P) (hs : P s)
    {Q : Except Raised q.Answer → World ι → Prop}
    (h : ∀ s₁ r, P s₁ → s₁.alive x.process = true → Truthful m x.process q s₁ r →
      Agrees m x.process (.ask q) s₁ r → Q r s₁) :
    wp (stepOf m x) (exclusive m) x (ask q) Q s := by
  refine wp_perform hP.stable hs ?_
  rintro s₁ r s₂ h₁ hi ⟨⟨htrue, rfl⟩ | ⟨hno, -⟩, ⟨hlive, hagrees⟩, -⟩
  · exact ⟨Leaves.refl _ _, hi, h _ r h₁ hlive htrue hagrees⟩
  · exact hno.elim

theorem wp_ask {q : Ask} {Q : Except Raised q.Answer → World ι → Prop}
    (h : ∀ s₁ r, s₁.alive x.process = true → Truthful m x.process q s₁ r →
      Agrees m x.process (.ask q) s₁ r → Q r s₁) :
    wp (stepOf m x) (exclusive m) x (ask q) Q s :=
  wp_ask_firm firm_true trivial fun s₁ r _ => h s₁ r

end Steps

/-! ## 5. Programs that only look -/

section Looking

theorem within_ask (q : Ask) : (ask q).Within Op.Quiet := Prog.within_perform.mpr trivial

theorem within_probe (closed : Raised → Bool) (q : Ask) : (probe closed q).Within Op.Quiet := by
  refine ((within_ask q).bind fun _ => Prog.within_pure _).tryCatch fun e => ?_
  split <;> trivial

theorem within_bootIdentity : bootIdentity.Within Op.Quiet := by
  refine (within_probe _ _).bind fun linux => ?_
  split
  · trivial
  · exact within_probe _ _

theorem within_processStartIdentity (pid : ℤ) :
    (processStartIdentity pid).Within Op.Quiet := by
  refine (within_probe _ _).bind fun created => ?_
  split
  · trivial
  refine (within_probe _ _).bind fun ticks => ?_
  split
  · trivial
  refine (within_ask _).bind fun own => ?_
  split
  · exact (within_ask _).bind fun _ => Prog.within_pure _
  · trivial

theorem within_pidAlive (pid : ℤ) : (pidAlive pid).Within Op.Quiet := by
  refine (within_ask _).bind fun own => ?_
  split
  · trivial
  refine ((within_ask _).bind fun _ => Prog.within_pure _).tryCatch fun e => ?_
  split
  · trivial
  · split <;> trivial

theorem within_ownerState (p : Payload) : (ownerState p).Within Op.Quiet := by
  unfold ownerState
  split
  · exact (within_pidAlive _).bind fun _ => Prog.within_pure _
  refine (within_ask _).bind fun host => ?_
  split
  · trivial
  refine within_bootIdentity.bind fun boot => ?_
  cases boot with
  | none => trivial
  | some boot =>
    dsimp only
    split
    · trivial
    refine (within_pidAlive _).bind fun alive => ?_
    split
    · refine (within_processStartIdentity _).bind fun start => ?_
      cases start <;> trivial
    · trivial

theorem within_checked (found : Option Payload) : (checked found).Within Op.Quiet := by
  cases found with
  | none => trivial
  | some p =>
    dsimp only [checked]
    split <;> trivial

theorem within_readText : (perform .readText : Program (Option Payload)).Within Op.Quiet :=
  Prog.within_perform.mpr trivial

theorem within_present : (perform .present : Program Bool).Within Op.Quiet :=
  Prog.within_perform.mpr trivial

theorem within_readLock : readLock.Within Op.Quiet := by
  refine within_present.bind fun there => ?_
  split
  · refine (within_readText.tryCatch fun e => ?_).bind fun found => within_checked found
    split <;> trivial
  · trivial

theorem within_wallClockEpoch : wallClockEpoch.Within Op.Quiet := by
  refine (within_ask _).bind fun now => ?_
  split <;> trivial

theorem within_leaseEpoch (code : String) (p : Payload) : (leaseEpoch code p).Within Op.Quiet := by
  unfold leaseEpoch
  dsimp only
  split
  · split <;> trivial
  all_goals trivial

theorem within_stillOwn (p : Payload) (token boot start : String) :
    (stillOwn p token boot start).Within Op.Quiet := by
  unfold stillOwn
  split
  · trivial
  · split <;> trivial

theorem within_nextHeartbeatEpoch (p : Payload) : (nextHeartbeatEpoch p).Within Op.Quiet := by
  refine (within_leaseEpoch _ _).bind fun previous => ?_
  refine within_wallClockEpoch.bind fun now => ?_
  refine (within_ask _).bind fun after => ?_
  split <;> trivial

end Looking

/-! ## 6. Who owns a lock that was read -/

section Owners

variable [DecidableEq ι] {m : Machine ι} {t u : ι} {s : World ι}

/-- What a process that lives has been told about all those of its host. -/
def Told (m : Machine ι) (t : ι) (R : ι → Prop) (s : World ι) : Prop :=
  s.alive t = true ∧ ∀ u, s.alive u = true → m.host u = m.host t → R u

omit [DecidableEq ι] in
theorem Told.own {R : ι → Prop} (h : Told m t R s) : R t := h.2 t h.1 rfl

/-- An identity that was read. -/
theorem wp_probe (closed : Raised → Bool) (q : Ask) :
    wp (stepOf m (.main t)) (exclusive m) (.main t) (probe closed q) (fun r s' => ∀ x,
      r = .ok (some x) → Told m t (fun u => m.Identified t u q x) s') s := by
  refine wp_tryCatch.mpr (wp_bind.mpr (wp_ask fun s₁ r hlive _ hagrees => ?_))
  cases r with
  | ok a =>
    intro x hx
    exact ⟨hlive, hagrees x (Except.ok.inj hx)⟩
  | error e =>
    dsimp only [onOk, onError]
    split
    · intro x hx
      cases hx
    · intro x hx
      cases hx

theorem wp_bootIdentity :
    wp (stepOf m (.main t)) (exclusive m) (.main t) bootIdentity (fun r s' => ∀ x,
      r = .ok (some x) → Told m t (fun u => x = m.boot u) s') s := by
  refine wp_bind.mpr (wp_mono ?_ (wp_probe _ _))
  rintro (e | linux) s₁ hlinux
  · intro x hx
    cases hx
  cases linux with
  | some x => exact hlinux
  | none => exact wp_probe _ _

theorem wp_processStartIdentity (pid : ℤ) :
    wp (stepOf m (.main t)) (exclusive m) (.main t) (processStartIdentity pid) (fun r s' => ∀ x,
      r = .ok (some x) → Told m t (fun u => m.pid u = pid → x = m.start u) s') s := by
  refine wp_bind.mpr (wp_mono ?_ (wp_probe _ _))
  rintro (e | created) s₁ hcreated
  · intro x hx
    cases hx
  cases created with
  | some x => exact hcreated
  | none =>
    refine wp_bind.mpr (wp_mono ?_ (wp_probe _ _))
    rintro (e | ticks) s₂ hticks
    · intro x hx
      cases hx
    cases ticks with
    | some x => exact hticks
    | none =>
      refine wp_bind.mpr (wp_ask fun s₃ r _ htrue _ => ?_)
      obtain ⟨rfl, hunique⟩ := htrue
      dsimp only [onOk]
      split
      · rename_i hown
        have hfirm : Firm m (.main t) fun s => ∀ u, s.alive u = true → m.host u = m.host t →
            m.pid u = m.pid t → u = t := by
          refine ⟨fun s s' h hlater _ u hu => h u (hlater.alive u hu), fun _ _ => id⟩
        refine wp_bind.mpr (wp_ask_firm hfirm hunique fun s₄ r hunique₄ hlive _ hagrees => ?_)
        cases r with
        | error e =>
          intro x hx
          cases hx
        | ok nonce =>
          refine fun x hx => ⟨hlive, fun u hu hhost hpid => ?_⟩
          have hself : u = t := hunique₄ u hu hhost (hpid.trans hown)
          exact hagrees x (Except.ok.inj hx) u hu hhost hself
      · intro x hx
        cases hx

/-- Nobody of the host answers to the pid. -/
theorem wp_pidAlive (pid : ℤ) :
    wp (stepOf m (.main t)) (exclusive m) (.main t) (pidAlive pid) (fun r s' => r = .ok false →
      ∀ u, s'.alive u = true → m.host u = m.host t → m.pid u ≠ pid) s := by
  refine wp_bind.mpr (wp_ask fun s₁ r _ htrue _ => ?_)
  obtain ⟨rfl, -⟩ := htrue
  dsimp only [onOk]
  split
  · intro h
    cases h
  refine wp_tryCatch.mpr (wp_bind.mpr (wp_ask fun s₂ r _ htrue _ => ?_))
  cases r with
  | ok a =>
    intro h
    cases h
  | error e =>
    dsimp only [onOk, onError]
    split
    · rename_i hlookup
      intro _
      exact htrue (congrArg Except.error hlookup)
    · split
      · intro h
        cases h
      · intro h
        cases h

/-- **The owner of a lock that says who it is.**  If the lock is not to be kept, the owner is
dead. -/
theorem wp_ownerState {p : Payload} (hp : m.Describes u p) :
    wp (stepOf m (.main t)) (exclusive m) (.main t) (ownerState p) (fun r s' => ∀ state,
      r = .ok state → state.kept = none → s'.alive u = false) s := by
  have hschema : p.schemaVersion ≠ "1.0" := by
    rw [hp.schemaVersion]
    decide
  rw [ownerState, if_neg hschema]
  refine wp_bind.mpr (wp_ask fun s₁ r _ htrue _ => ?_)
  obtain rfl : r = .ok (m.host t) := htrue
  dsimp only [onOk]
  split
  · rintro state ⟨rfl⟩ hkept
    cases hkept
  rename_i hhost
  replace hhost : m.host u = m.host t := by
    rw [← hp.hostname]
    exact not_not.mp hhost
  refine wp_bind.mpr (wp_mono ?_ wp_bootIdentity)
  rintro (e | boot) s₂ hboot
  · intro state hstate
    cases hstate
  cases boot with
  | none =>
    rintro state ⟨rfl⟩ hkept
    cases hkept
  | some boot =>
    dsimp only [onOk]
    split
    · rename_i hprior
      intro _ _ _
      refine Bool.eq_false_iff.mpr fun hlive => hprior ?_
      rw [hp.boot, (hboot boot rfl).2 u hlive hhost]
    refine wp_bind.mpr (wp_mono ?_ (wp_pidAlive _))
    rintro (e | alive) s₃ halive
    · intro state hstate
      cases hstate
    cases alive with
    | false =>
      intro _ _ _
      exact Bool.eq_false_iff.mpr fun hlive => halive rfl u hlive hhost hp.pid.symm
    | true =>
      refine wp_bind.mpr (wp_mono ?_ (wp_processStartIdentity _))
      rintro (e | start) s₄ hstart
      · intro state hstate
        cases hstate
      cases start with
      | none =>
        rintro state ⟨rfl⟩ hkept
        cases hkept
      | some start =>
        by_cases hreused : start = p.processStartIdentity
        · rintro state ⟨rfl⟩ hkept
          simp [hreused, OwnerState.kept] at hkept
        · intro _ _ _
          refine Bool.eq_false_iff.mpr fun hlive => hreused ?_
          rw [hp.start, (hstart start rfl).2 u hlive hhost hp.pid.symm]

/-- A lock that was read is owned. -/
theorem wp_readLock {x : Thread ι} :
    wp (stepOf m x) (exclusive m) x readLock (fun r s' => ∀ p, r = .ok p → Owned m p s') s := by
  refine wp_bind.mpr (wp_mono ?_ (wp_quiet firm_true within_present trivial))
  rintro (e | there) s₁ -
  · intro p hp
    cases hp
  dsimp only [onOk]
  split
  · refine wp_bind.mpr (wp_tryCatch.mpr (wp_perform_iff.mpr ?_))
    rintro s₂ - hi r s₃ ⟨⟨⟨c, hc, rfl⟩, rfl⟩ | ⟨-, ⟨e, rfl⟩, rfl⟩, -⟩
    · refine ⟨Leaves.refl _ _, hi, ?_⟩
      cases c with
      | unfinished v =>
        intro p hp
        cases hp
      | text p =>
        dsimp only [onError, onOk, Content.payload, checked]
        split
        · intro q hq
          cases hq
        · rintro q ⟨rfl⟩
          exact hi.owned p hc
    · refine ⟨Leaves.refl _ _, hi, ?_⟩
      dsimp only [onError]
      split
      · intro p hp
        cases hp
      · intro p hp
        cases hp
  · intro p hp
    cases hp

end Owners

/-! ## 7. What a thread knows of a token -/

section Assertions

variable {m : Machine ι} {x : Thread ι} {t u : ι} {token : String} {p : Payload}

def Drawn (u : ι) (token : String) (s : World ι) : Prop := s.issued token = some u

/-- The owner of the token is dead. -/
def Dead (u : ι) (token : String) (s : World ι) : Prop :=
  s.issued token = some u ∧ s.alive u = false

/-- The file is of `t`, written or not. -/
structure Claimed (t : ι) (token : String) (s : World ι) : Prop where
  issued : s.issued token = some t
  inside : s.inside t = none
  file : s.alive t = true → s.file = some (.unfinished t) ∨ s.Has token

/-- The lock is of `t`. -/
structure Locked (t : ι) (token : String) (i : Option String) (s : World ι) : Prop where
  issued : s.issued token = some t
  inside : s.inside t = i
  lock : s.alive t = true → s.Has token

theorem firm_drawn : Firm m x (Drawn u token) :=
  ⟨fun _ _ h hlater _ => hlater.issued token u h, fun _ _ => id⟩

theorem firm_dead : Firm m x (Dead u token) where
  stable s s' h hlater _ := by
    refine ⟨hlater.issued token u h.1, Bool.eq_false_iff.mpr fun hlive => ?_⟩
    exact absurd (hlater.alive u hlive) (by simp [h.2])
  beat _ _ := id

theorem firm_owned : Firm m x (Owned m p) where
  stable := by
    rintro s s' ⟨u, hu, hdescribes⟩ hlater -
    exact ⟨u, hlater.issued _ u hu, fun hlive => hdescribes (hlater.alive u hlive)⟩
  beat _ _ := id

theorem firm_claimed : Firm m (.main t) (Claimed t token) where
  stable s s' h hrely _ := by
    have hkept := hrely.kept t rfl
    refine ⟨hrely.issued token t h.issued, hkept.inside.trans h.inside, fun hlive => ?_⟩
    rcases h.file (hrely.alive t hlive) with hfile | hhas
    · exact Or.inl (hkept.unfinished hlive hfile)
    · exact Or.inr (hkept.lock hlive token h.issued hhas)
  beat _ _ h := ⟨h.issued, h.inside, h.file⟩

theorem firm_locked {i : Option String} : Firm m (.main t) (Locked t token i) where
  stable s s' h hrely _ := by
    have hkept := hrely.kept t rfl
    refine ⟨hrely.issued token t h.issued, hkept.inside.trans h.inside, fun hlive => ?_⟩
    exact hkept.lock hlive token h.issued (h.lock (hrely.alive t hlive))
  beat _ _ h := ⟨h.issued, h.inside, h.lock⟩

end Assertions

end Kripto.Deploy.OperationLock
