/-
# Recovery grants

`auth/recovery_policy.py`: a grant lets a user recover an account with a token, of which the store
keeps the digest only.

* `consume_ok_iff`: a token is accepted while it is alive: for the user it has been issued to, in
  time, and once;
* `consume_exhausted_iff`: the limit of attempts never refuses a token, unless it allows none.  What
  is refused is not counted, so a token may be tried as often as one likes.

Times are exact numbers; a token is whatever the generator has come up with.
-/
import Kripto.Python.Json
import Mathlib.Data.List.Induction
import Mathlib.Tactic.Linarith

namespace Kripto.Auth.RecoveryGrants

open Python

/-! ## 1. The store -/

inductive Exc
  | permissionError (msg : String)
  deriving DecidableEq

/-- `text.lower()` -/
class CaseRuntime where
  lower : String → String

def PRIVILEGED : List String := ["admin", "trader"]

structure RecoveryPolicy where
  requireMfaForPrivileged : Bool := true
  requireAdminApprovalForAdminReset : Bool := true
  tokenTtlSeconds : ℤ := 900
  maxAttempts : ℤ := 5

structure RecoveryGrant where
  tokenHash : String
  userId : String
  role : String
  expiresAt : ℚ
  attempts : ℤ := 0
  used : Bool := false
  approvedBy : Option String := none

structure RecoveryGrantStore where
  policy : RecoveryPolicy
  grants : List RecoveryGrant := []

/-- The arguments of `issue`, the token that is drawn and the time it is drawn at. -/
structure Issue where
  userId : String
  role : String
  mfaVerified : Bool := false
  approvedBy : Option String := none
  raw : String
  now : ℚ

structure Consume where
  raw : String
  userId : String
  now : ℚ

/-- `bool(approved_by)` -/
def truthy : Option String → Bool
  | none => false
  | some s => s ≠ ""

/-- The grant that the loop is left with: the last one with the digest. -/
def matched (digest : String) (grants : List RecoveryGrant) : Option RecoveryGrant :=
  grants.foldl (fun matched grant => if grant.tokenHash = digest then some grant else matched) none

def RecoveryGrant.use (grant : RecoveryGrant) : RecoveryGrant :=
  { grant with attempts := grant.attempts + 1, used := true }

/-- The grants after the last one with the digest has been used. -/
def useMatched (digest : String) : List RecoveryGrant → List RecoveryGrant
  | [] => []
  | grant :: grants =>
    if (matched digest grants).isSome then grant :: useMatched digest grants
    else if grant.tokenHash = digest then grant.use :: grants
    else grant :: grants

section Store

variable [CaseRuntime] [Hashlib] (self : RecoveryGrantStore)

def RecoveryGrantStore.issue (a : Issue) : Except Exc String × RecoveryGrantStore :=
  let role := CaseRuntime.lower a.role
  if role ∈ PRIVILEGED ∧ self.policy.requireMfaForPrivileged ∧ !a.mfaVerified then
    (.error (.permissionError "privileged recovery requires MFA evidence"), self)
  else if role = "admin" ∧ self.policy.requireAdminApprovalForAdminReset ∧
      !truthy a.approvedBy then
    (.error (.permissionError "admin recovery requires independent approval"), self)
  else
    let grant : RecoveryGrant := {
      tokenHash := Hashlib.sha256 a.raw
      userId := a.userId
      role := role
      expiresAt := a.now + self.policy.tokenTtlSeconds
      approvedBy := a.approvedBy }
    (.ok a.raw, { self with grants := self.grants ++ [grant] })

def RecoveryGrantStore.consume (c : Consume) : Except Exc RecoveryGrant × RecoveryGrantStore :=
  let digest := Hashlib.sha256 c.raw
  match matched digest self.grants with
  | none => (.error (.permissionError "invalid or expired recovery token"), self)
  | some grant =>
    if grant.userId ≠ c.userId ∨ grant.used ∨ grant.expiresAt ≤ c.now then
      (.error (.permissionError "invalid or expired recovery token"), self)
    else if self.policy.maxAttempts ≤ grant.attempts then
      (.error (.permissionError "recovery attempts exhausted"), self)
    else (.ok grant.use, { self with grants := useMatched digest self.grants })

/-- A call of the store. -/
inductive Call
  | issue (a : Issue)
  | consume (c : Consume)

/-- What a call leaves, returned or raised. -/
def RecoveryGrantStore.step : Call → RecoveryGrantStore
  | .issue a => (self.issue a).2
  | .consume c => (self.consume c).2

def run (policy : RecoveryPolicy) (calls : List Call) : RecoveryGrantStore :=
  calls.foldl RecoveryGrantStore.step { policy }

end Store

/-! ## 2. The grant of a digest -/

section Matched

variable {digest : String} {grants : List RecoveryGrant} {grant : RecoveryGrant}

@[simp] theorem matched_nil : matched digest [] = none := rfl

theorem matched_concat : matched digest (grants ++ [grant]) =
    if grant.tokenHash = digest then some grant else matched digest grants := by
  simp [matched, List.foldl_append]

theorem matched_cons : matched digest (grant :: grants) =
    (matched digest grants).or (if grant.tokenHash = digest then some grant else none) := by
  induction grants using List.reverseRecOn with
  | nil => simp [matched]
  | append_singleton grants last ih =>
    rw [← List.cons_append, matched_concat, matched_concat, ih]
    split <;> simp

/-- Only the grant of the digest is used. -/
theorem matched_useMatched (digest' : String) : matched digest' (useMatched digest grants) =
    if digest' = digest then (matched digest grants).map RecoveryGrant.use
    else matched digest' grants := by
  induction grants with
  | nil => simp [useMatched]
  | cons grant grants ih =>
    rw [useMatched]
    cases hm : matched digest grants with
    | some last =>
      rw [Option.isSome_some, if_pos rfl, matched_cons, ih, hm]
      by_cases hd : digest' = digest
      · subst hd
        simp [matched_cons, hm]
      · simp [hd, matched_cons]
    | none =>
      rw [Option.isSome_none, if_neg Bool.false_ne_true]
      by_cases hg : grant.tokenHash = digest
      · rw [if_pos hg, matched_cons]
        by_cases hd : digest' = digest
        · subst hd
          simp [matched_cons, hm, hg, RecoveryGrant.use]
        · have hne : grant.tokenHash ≠ digest' := fun h => hd (h.symm.trans hg)
          simp [hd, matched_cons, hne, RecoveryGrant.use]
      · rw [if_neg hg]
        by_cases hd : digest' = digest
        · subst hd
          simp [matched_cons, hm, hg]
        · rw [if_neg hd]

end Matched

/-! ## 3. What a call does to it -/

section Calls

variable [CaseRuntime] [Hashlib] {policy : RecoveryPolicy} {self : RecoveryGrantStore}
  {digest : String} {a : Issue} {c : Consume}

/-- There is what the policy asks for. -/
def Issue.Permitted (policy : RecoveryPolicy) (a : Issue) : Prop :=
  ¬(CaseRuntime.lower a.role ∈ PRIVILEGED ∧ policy.requireMfaForPrivileged ∧ !a.mfaVerified) ∧
    ¬(CaseRuntime.lower a.role = "admin" ∧ policy.requireAdminApprovalForAdminReset ∧
      !truthy a.approvedBy)

/-- The grant of a permitted issue. -/
def Issue.grant (policy : RecoveryPolicy) (a : Issue) : RecoveryGrant where
  tokenHash := Hashlib.sha256 a.raw
  userId := a.userId
  role := CaseRuntime.lower a.role
  expiresAt := a.now + policy.tokenTtlSeconds
  approvedBy := a.approvedBy

/-- The token is accepted. -/
def RecoveryGrantStore.Accepts (self : RecoveryGrantStore) (c : Consume) : Prop :=
  ∃ grant, (self.consume c).1 = .ok grant

theorem issue_spec : (self.issue a).2.policy = self.policy ∧
    (a.Permitted self.policy ∧ (self.issue a).2.grants = self.grants ++ [a.grant self.policy] ∨
      ¬a.Permitted self.policy ∧ (self.issue a).2 = self) := by
  unfold RecoveryGrantStore.issue Issue.Permitted
  dsimp only
  split_ifs with hmfa happroval
  · exact ⟨rfl, .inr ⟨fun h => h.1 hmfa, rfl⟩⟩
  · exact ⟨rfl, .inr ⟨fun h => h.2 happroval, rfl⟩⟩
  · exact ⟨rfl, .inl ⟨⟨hmfa, happroval⟩, rfl⟩⟩

omit [CaseRuntime] in
theorem consume_spec : (self.consume c).2.policy = self.policy ∧
    (self.Accepts c ∧
        (self.consume c).2.grants = useMatched (Hashlib.sha256 c.raw) self.grants ∨
      ¬self.Accepts c ∧ (self.consume c).2 = self) := by
  unfold RecoveryGrantStore.Accepts RecoveryGrantStore.consume
  dsimp only
  split
  · exact ⟨rfl, .inr ⟨by simp, rfl⟩⟩
  · split_ifs
    · exact ⟨rfl, .inr ⟨by simp, rfl⟩⟩
    · exact ⟨rfl, .inr ⟨by simp, rfl⟩⟩
    · exact ⟨rfl, .inl ⟨⟨_, rfl⟩, rfl⟩⟩

/-- It may be used by the caller, if there are attempts left. -/
structure RecoveryGrant.Valid (grant : RecoveryGrant) (c : Consume) : Prop where
  userId : grant.userId = c.userId
  unused : grant.used = false
  inTime : c.now < grant.expiresAt

omit [CaseRuntime] in
theorem consume_valid {grant : RecoveryGrant}
    (hgrant : matched (Hashlib.sha256 c.raw) self.grants = some grant) (h : grant.Valid c) :
    (self.consume c).1 = if self.policy.maxAttempts ≤ grant.attempts then
      .error (.permissionError "recovery attempts exhausted") else .ok grant.use := by
  have hvalid : ¬(grant.userId ≠ c.userId ∨ grant.used = true ∨ grant.expiresAt ≤ c.now) := by
    rintro (hother | hused | hexpired)
    · exact hother h.userId
    · exact nomatch hused.symm.trans h.unused
    · exact absurd h.inTime (not_lt.mpr hexpired)
  unfold RecoveryGrantStore.consume
  simp only [hgrant, if_neg hvalid]
  split <;> rfl

omit [CaseRuntime] in
theorem consume_invalid
    (h : ∀ grant, matched (Hashlib.sha256 c.raw) self.grants = some grant → ¬grant.Valid c) :
    (self.consume c).1 = .error (.permissionError "invalid or expired recovery token") := by
  unfold RecoveryGrantStore.consume
  dsimp only
  split
  · rfl
  · rename_i grant hgrant
    rw [if_pos]
    by_contra hvalid
    simp only [not_or, not_not, Bool.not_eq_true, not_le] at hvalid
    exact h grant hgrant ⟨hvalid.1, hvalid.2.1, hvalid.2.2⟩

omit [CaseRuntime] in
/-- What is accepted has a grant that is valid. -/
theorem RecoveryGrantStore.Accepts.valid (h : self.Accepts c) :
    ∃ grant, matched (Hashlib.sha256 c.raw) self.grants = some grant ∧ grant.Valid c := by
  obtain ⟨used, hused⟩ := h
  by_contra hnone
  rw [consume_invalid fun grant hgrant hvalid => hnone ⟨grant, hgrant, hvalid⟩] at hused
  cases hused

theorem run_concat (calls : List Call) (call : Call) :
    run policy (calls ++ [call]) = (run policy calls).step call := by
  simp [run, List.foldl_append]

@[simp] theorem run_policy (calls : List Call) : (run policy calls).policy = policy := by
  induction calls using List.reverseRecOn with
  | nil => rfl
  | append_singleton calls call ih =>
    rw [run_concat]
    cases call with
    | issue a => exact issue_spec.1.trans ih
    | consume c => exact consume_spec.1.trans ih

theorem matched_issue {calls : List Call} (h : a.Permitted policy)
    (hdigest : Hashlib.sha256 a.raw = digest) :
    matched digest (run policy (calls ++ [.issue a])).grants = some (a.grant policy) := by
  rcases (@issue_spec _ _ (run policy calls) a).2 with ⟨-, hgrants⟩ | ⟨hnot, -⟩
  · rw [run_concat, RecoveryGrantStore.step, hgrants, matched_concat, run_policy]
    exact if_pos hdigest
  · rw [run_policy] at hnot
    exact absurd h hnot

theorem matched_issue_other {calls : List Call}
    (h : a.Permitted policy → Hashlib.sha256 a.raw ≠ digest) :
    matched digest (run policy (calls ++ [.issue a])).grants =
      matched digest (run policy calls).grants := by
  rw [run_concat, RecoveryGrantStore.step]
  rcases (@issue_spec _ _ (run policy calls) a).2 with ⟨hpermitted, hgrants⟩ | ⟨-, hsame⟩
  · rw [run_policy] at hpermitted
    rw [hgrants, matched_concat]
    exact if_neg (h hpermitted)
  · rw [hsame]

theorem matched_consume {calls : List Call} (h : (run policy calls).Accepts c)
    (hdigest : Hashlib.sha256 c.raw = digest) :
    matched digest (run policy (calls ++ [.consume c])).grants =
      (matched digest (run policy calls).grants).map RecoveryGrant.use := by
  rcases (@consume_spec _ (run policy calls) c).2 with ⟨-, hgrants⟩ | ⟨hnot, -⟩
  · rw [run_concat, RecoveryGrantStore.step, hgrants, matched_useMatched, if_pos hdigest.symm,
      hdigest]
  · exact absurd h hnot

theorem matched_consume_other {calls : List Call}
    (h : (run policy calls).Accepts c → Hashlib.sha256 c.raw ≠ digest) :
    matched digest (run policy (calls ++ [.consume c])).grants =
      matched digest (run policy calls).grants := by
  rw [run_concat, RecoveryGrantStore.step]
  rcases (@consume_spec _ (run policy calls) c).2 with ⟨haccepts, hgrants⟩ | ⟨-, hsame⟩
  · rw [hgrants, matched_useMatched, if_neg (h haccepts).symm]
  · rw [hsame]

end Calls

/-! ## 4. Every run -/

section Runs

variable [CaseRuntime] [Hashlib] {policy : RecoveryPolicy} {calls before after : List Call}
  {digest : String} {a : Issue} {c : Consume}

/-- The last permitted issue of a token with the digest, and what has been called since. -/
structure LastIssue (policy : RecoveryPolicy) (calls : List Call) (digest : String)
    (before : List Call) (a : Issue) (after : List Call) : Prop where
  calls_eq : calls = before ++ .issue a :: after
  permitted : a.Permitted policy
  digest_eq : Hashlib.sha256 a.raw = digest
  last : ∀ b, .issue b ∈ after → b.Permitted policy → Hashlib.sha256 b.raw ≠ digest

/-- In `after`, called after `before`, a token with the digest has been accepted. -/
def AcceptedIn (policy : RecoveryPolicy) (before after : List Call) (digest : String) : Prop :=
  ∃ pre c post, after = pre ++ .consume c :: post ∧ Hashlib.sha256 c.raw = digest ∧
    (run policy (before ++ pre)).Accepts c

/-- **The grant of an issue**, used once or not at all. -/
structure Describes (policy : RecoveryPolicy) (a : Issue) (accepted : Prop)
    (grant : RecoveryGrant) : Prop where
  userId : grant.userId = a.userId
  expiresAt : grant.expiresAt = a.now + policy.tokenTtlSeconds
  used_iff : grant.used = true ↔ accepted
  attempts : grant.attempts = grant.used.toNat

theorem matched_of_noIssue
    (h : ∀ a, .issue a ∈ calls → a.Permitted policy → Hashlib.sha256 a.raw ≠ digest) :
    matched digest (run policy calls).grants = none := by
  induction calls using List.reverseRecOn with
  | nil => rfl
  | append_singleton calls call ih =>
    have hbefore := ih fun a ha => h a (List.mem_append_left _ ha)
    cases call with
    | issue a => rw [matched_issue_other (h a (by simp)), hbefore]
    | consume c =>
      by_cases haccepts : (run policy calls).Accepts c ∧ Hashlib.sha256 c.raw = digest
      · rw [matched_consume haccepts.1 haccepts.2, hbefore]
        rfl
      · rw [matched_consume_other (not_and.mp haccepts), hbefore]

theorem not_acceptedIn_nil : ¬AcceptedIn policy before [] digest := by
  rintro ⟨pre, c, post, heq, -⟩
  exact List.append_ne_nil_of_right_ne_nil pre (List.cons_ne_nil _ _) heq.symm

theorem acceptedIn_concat {call : Call} : AcceptedIn policy before (after ++ [call]) digest ↔
    AcceptedIn policy before after digest ∨ ∃ c, call = .consume c ∧
      Hashlib.sha256 c.raw = digest ∧ (run policy (before ++ after)).Accepts c := by
  constructor
  · rintro ⟨pre, c, post, heq, hdigest, haccepts⟩
    rcases List.eq_nil_or_concat' post with rfl | ⟨post, last, rfl⟩
    · obtain ⟨rfl, hcall⟩ := List.append_inj' heq rfl
      exact .inr ⟨c, (List.cons.inj hcall).1, hdigest, haccepts⟩
    · rw [← List.cons_append, ← List.append_assoc] at heq
      obtain ⟨rfl, -⟩ := List.append_inj' heq rfl
      exact .inl ⟨pre, c, post, rfl, hdigest, haccepts⟩
  · rintro (⟨pre, c, post, rfl, hdigest, haccepts⟩ | ⟨c, rfl, hdigest, haccepts⟩)
    · exact ⟨pre, c, post ++ [call], by simp, hdigest, haccepts⟩
    · exact ⟨after, c, [], rfl, hdigest, haccepts⟩

/-- What happens to the grant of an issue. -/
theorem matched_of_lastIssue (h : LastIssue policy calls digest before a after) :
    ∃ grant, matched digest (run policy calls).grants = some grant ∧
      Describes policy a (AcceptedIn policy (before ++ [.issue a]) after digest) grant := by
  obtain ⟨rfl, hpermitted, hdigest, hlast⟩ := h
  induction after using List.reverseRecOn with
  | nil =>
    exact ⟨_, matched_issue hpermitted hdigest, rfl, rfl,
      iff_of_false Bool.false_ne_true not_acceptedIn_nil, rfl⟩
  | append_singleton after call ih =>
    obtain ⟨grant, hgrant, huser, hexpires, hused, hattempts⟩ :=
      ih fun b hb => hlast b (List.mem_append_left _ hb)
    have hcalls : before ++ [Call.issue a] ++ after = before ++ .issue a :: after := by simp
    rw [← List.cons_append, ← List.append_assoc]
    cases call with
    | issue b =>
      refine ⟨grant, (matched_issue_other (hlast b (by simp))).trans hgrant, huser, hexpires, ?_,
        hattempts⟩
      simp [acceptedIn_concat, hused]
    | consume c =>
      by_cases haccepts : (run policy (before ++ .issue a :: after)).Accepts c ∧
          Hashlib.sha256 c.raw = digest
      · -- it has not been used before, or it would not be accepted
        obtain ⟨grant', hgrant', hvalid⟩ := haccepts.1.valid
        obtain rfl := Option.some.inj (hgrant.symm.trans (haccepts.2 ▸ hgrant'))
        refine ⟨grant.use, ?_, huser, hexpires, ?_, ?_⟩
        · rw [matched_consume haccepts.1 haccepts.2, hgrant]
          rfl
        · exact iff_of_true rfl (acceptedIn_concat.mpr
            (.inr ⟨c, rfl, haccepts.2, hcalls ▸ haccepts.1⟩))
        · rw [RecoveryGrant.use, hattempts, hvalid.unused]
          rfl
      · refine ⟨grant, (matched_consume_other (not_and.mp haccepts)).trans hgrant, huser, hexpires,
          ?_, hattempts⟩
        rw [hused, acceptedIn_concat, hcalls]
        refine ⟨.inl, fun h => h.resolve_right ?_⟩
        rintro ⟨c', hc, hdigest', haccepts'⟩
        obtain rfl := Call.consume.inj hc
        exact haccepts ⟨haccepts', hdigest'⟩

/-- A token that has been issued has been issued for a last time. -/
theorem exists_lastIssue (hmem : .issue a ∈ calls) (hpermitted : a.Permitted policy)
    (hdigest : Hashlib.sha256 a.raw = digest) :
    ∃ before a after, LastIssue policy calls digest before a after := by
  induction calls using List.reverseRecOn with
  | nil => cases hmem
  | append_singleton calls call ih =>
    by_cases hcall : ∃ b, call = .issue b ∧ b.Permitted policy ∧ Hashlib.sha256 b.raw = digest
    · obtain ⟨b, rfl, hpermitted, hdigest⟩ := hcall
      exact ⟨calls, b, [], rfl, hpermitted, hdigest, fun _ h => nomatch h⟩
    · have hmem : .issue a ∈ calls := by
        rcases List.mem_append.mp hmem with h | h
        · exact h
        · exact absurd ⟨a, (List.mem_singleton.mp h).symm, hpermitted, hdigest⟩ hcall
      obtain ⟨before, b, after, rfl, hb, hdigest, hlast⟩ := ih hmem
      refine ⟨before, b, after ++ [call], by simp, hb, hdigest, fun b' hb' hpermitted' h => ?_⟩
      rcases List.mem_append.mp hb' with hb' | hb'
      · exact hlast b' hb' hpermitted' h
      · exact hcall ⟨b', (List.mem_singleton.mp hb').symm, hpermitted', h⟩

/-- **A token is alive** for a caller: it has been issued to him, the time is not over, and it has
not been accepted since. -/
def Live (policy : RecoveryPolicy) (calls : List Call) (c : Consume) : Prop :=
  ∃ before a after, LastIssue policy calls (Hashlib.sha256 c.raw) before a after ∧
    a.userId = c.userId ∧ c.now < a.now + policy.tokenTtlSeconds ∧
      ¬AcceptedIn policy (before ++ [.issue a]) after (Hashlib.sha256 c.raw)

/-- A token that is alive has a valid grant, without attempts. -/
theorem Live.valid (h : Live policy calls c) : ∃ grant,
    matched (Hashlib.sha256 c.raw) (run policy calls).grants = some grant ∧ grant.Valid c ∧
      grant.attempts = 0 := by
  obtain ⟨before, a, after, hlast, huser, hnow, hunused⟩ := h
  obtain ⟨grant, hgrant, hdescribes⟩ := matched_of_lastIssue hlast
  rw [← hdescribes.used_iff, Bool.not_eq_true] at hunused
  refine ⟨grant, hgrant, ⟨hdescribes.userId.trans huser, hunused, ?_⟩, ?_⟩
  · rwa [hdescribes.expiresAt]
  · rw [hdescribes.attempts, hunused]
    rfl

theorem live_of_valid {grant : RecoveryGrant}
    (hgrant : matched (Hashlib.sha256 c.raw) (run policy calls).grants = some grant)
    (hvalid : grant.Valid c) : Live policy calls c := by
  have hissued : ∃ a, .issue a ∈ calls ∧ a.Permitted policy ∧
      Hashlib.sha256 a.raw = Hashlib.sha256 c.raw := by
    by_contra hnone
    have hnone' := @matched_of_noIssue _ _ policy calls (Hashlib.sha256 c.raw)
      fun a ha hpermitted hdigest => hnone ⟨a, ha, hpermitted, hdigest⟩
    exact nomatch hgrant.symm.trans hnone'
  obtain ⟨a, ha, hpermitted, hdigest⟩ := hissued
  obtain ⟨before, a, after, hlast⟩ := exists_lastIssue ha hpermitted hdigest
  obtain ⟨grant', hgrant', hdescribes⟩ := matched_of_lastIssue hlast
  obtain rfl := Option.some.inj (hgrant.symm.trans hgrant')
  refine ⟨before, a, after, hlast, hdescribes.userId.symm.trans hvalid.userId, ?_, ?_⟩
  · rw [← hdescribes.expiresAt]
    exact hvalid.inTime
  · rw [← hdescribes.used_iff, hvalid.unused]
    exact Bool.false_ne_true

/-- What a call comes to, whatever has been called before. -/
theorem consume_cases (policy : RecoveryPolicy) (calls : List Call) (c : Consume) :
    (Live policy calls c ∧ ∃ grant : RecoveryGrant, ((run policy calls).consume c).1 =
        if policy.maxAttempts ≤ 0 then .error (.permissionError "recovery attempts exhausted")
        else .ok grant) ∨
      (¬Live policy calls c ∧ ((run policy calls).consume c).1 =
        .error (.permissionError "invalid or expired recovery token")) := by
  by_cases hlive : Live policy calls c
  · obtain ⟨grant, hgrant, hvalid, hattempts⟩ := hlive.valid
    refine .inl ⟨hlive, grant.use, ?_⟩
    rw [consume_valid hgrant hvalid, run_policy, hattempts]
  · exact .inr ⟨hlive, consume_invalid fun _ hgrant hvalid => hlive (live_of_valid hgrant hvalid)⟩

/-- **When a token is accepted**: while it is alive, if attempts are allowed at all. -/
theorem consume_ok_iff : (∃ grant, ((run policy calls).consume c).1 = .ok grant) ↔
    0 < policy.maxAttempts ∧ Live policy calls c := by
  rcases consume_cases policy calls c with ⟨hlive, grant, h⟩ | ⟨hdead, h⟩
  · rw [h]
    split
    · simp
      omega
    · simp [hlive]
      omega
  · simp [h, hdead]

/-- **The number of attempts** is never what a token is refused for, unless none is allowed. -/
theorem consume_exhausted_iff : ((run policy calls).consume c).1 =
      .error (.permissionError "recovery attempts exhausted") ↔
    policy.maxAttempts ≤ 0 ∧ Live policy calls c := by
  rcases consume_cases policy calls c with ⟨hlive, grant, h⟩ | ⟨hdead, h⟩
  · rw [h]
    split
    · simp [hlive]
      omega
    · simp
      omega
  · simp [h, hdead]

end Runs

end Kripto.Auth.RecoveryGrants
