/-
# The fence before the side effect

`DatabaseExecutionFence.require_current` (`execution/persistent.py`) asks two things: a guard of
this process, which refuses tokens below the highest one it has seen, and the leader registry.
The guard is asked first and remembers the token whether or not the registry then knows it.  So
a token that was never issued, once presented, shuts out the valid leader;
`require_current_iff` says that nothing else does.
-/
import Kripto.Execution.Leader

namespace Kripto.Execution

open Effect

/-! ## 1. The guard and the fence -/

/-- `FencingTokenGuard`. -/
structure FencingTokenGuard where
  highest : Table String ℤ := ∅

namespace FencingTokenGuard

def accept (accountId : String) (token : ℤ) (self : FencingTokenGuard) :
    Bool × FencingTokenGuard :=
  match self.highest.lookup accountId with
  | some highest =>
    if token < highest then (false, self)
    else (true, ⟨self.highest.insert accountId (max highest token)⟩)
  | none => (true, ⟨self.highest.insert accountId token⟩)

def require (accountId : String) (token : ℤ) (self : FencingTokenGuard) :
    Except Exc Unit × FencingTokenGuard :=
  let (accepted, self) := self.accept accountId token
  if accepted then (.ok (), self) else (.error (.permissionError "stale fencing token"), self)

end FencingTokenGuard

/-- `DatabaseExecutionFence.require_current`, over the table of the registry. -/
def requireCurrent (accountId instanceId : String) (token : ℤ) (now : Option ℤ) (clock : ℤ)
    (rows : LeaderLeases ℤ) (fence : FencingTokenGuard) : Except Exc Unit × FencingTokenGuard :=
  match fence.require accountId token with
  | (.error e, fence) => (.error e, fence)
  | (.ok (), fence) =>
    if DatabaseLeaderRegistry.validate accountId instanceId token now clock rows then
      (.ok (), fence)
    else
      (.error (.permissionError
        "stale or expired LIVE fencing token at side-effect boundary"), fence)

/-! ## 2. Runs -/

inductive FenceCall
  | requireCurrent (accountId instanceId : String) (token : ℤ) (now : Option ℤ) (clock : ℤ)
  | registry (k : LeaderCall ℤ)
  deriving DecidableEq

inductive FenceAnswer
  | required (r : Except Exc Unit)
  | registry (r : LeaderAnswer ℤ)

/-- The fence of one process beside the registry. -/
def fenceObject : Object (FencingTokenGuard × LeaderLeases ℤ) FenceCall FenceAnswer
  | (fence, rows), .requireCurrent accountId instanceId token now clock =>
      (.required (requireCurrent accountId instanceId token now clock rows fence).1,
        (requireCurrent accountId instanceId token now clock rows fence).2, rows)
  | (fence, rows), .registry k =>
      (.registry (DatabaseLeaderRegistry.object rows k).1, fence,
        (DatabaseLeaderRegistry.object rows k).2)

/-- Fence and table after a run; the process starts with nothing seen. -/
def fenceAfter (rows : LeaderLeases ℤ) (ks : List FenceCall) :
    FencingTokenGuard × LeaderLeases ℤ :=
  ((Log.start ({}, rows)).calls fenceObject ks).now

/-- The call asks the fence about the account, with that token. -/
def FenceCall.Presents (accountId : String) (token : ℤ) : FenceCall → Prop
  | requireCurrent accountId' _ token' _ _ => accountId' = accountId ∧ token' = token
  | registry _ => False

/-! ## 3. What the guard has seen -/

/-- The guard has seen nothing above the token. -/
def FencingTokenGuard.Within (fence : FencingTokenGuard) (accountId : String) (token : ℤ) : Prop :=
  ∀ highest ∈ fence.highest.lookup accountId, highest ≤ token

variable {fence : FencingTokenGuard} {rows : LeaderLeases ℤ} {accountId instanceId acc : String}
  {token t clock : ℤ} {now : Option ℤ}

theorem accept_iff : (fence.accept accountId token).1 = true ↔ fence.Within accountId token := by
  unfold FencingTokenGuard.accept FencingTokenGuard.Within
  cases fence.highest.lookup accountId with
  | none => simp
  | some highest =>
    by_cases h : token < highest
    · simp [h]
    · simp [h]
      omega

/-- The guard remembers what it is asked about, also what it refuses. -/
theorem within_accept : (fence.accept accountId token).2.Within acc t ↔
    fence.Within acc t ∧ (accountId = acc → token ≤ t) := by
  unfold FencingTokenGuard.accept FencingTokenGuard.Within
  by_cases hacc : acc = accountId
  · subst hacc
    cases hlookup : fence.highest.lookup acc with
    | none => simp
    | some highest =>
      by_cases h : token < highest
      · simp [h, hlookup]
        omega
      · simp [h]
  · have hne : accountId ≠ acc := fun h => hacc h.symm
    cases fence.highest.lookup accountId with
    | none => simp [hacc, hne]
    | some highest => by_cases h : token < highest <;> simp [h, hacc, hne]

/-- **The fence lets through** what neither the guard nor the registry refuses, and leaves the
guard as asked, either way. -/
theorem requireCurrent_spec :
    ((requireCurrent accountId instanceId token now clock rows fence).1 = .ok () ↔
      (fence.accept accountId token).1 = true ∧
        DatabaseLeaderRegistry.validate accountId instanceId token now clock rows = true) ∧
    (requireCurrent accountId instanceId token now clock rows fence).2
      = (fence.accept accountId token).2 := by
  unfold requireCurrent FencingTokenGuard.require
  generalize fence.accept accountId token = out
  obtain ⟨accepted, fence'⟩ := out
  cases accepted with
  | false => simp
  | true =>
    cases DatabaseLeaderRegistry.validate accountId instanceId token now clock rows <;> simp

/-- **One call**: the guard has seen what it had seen, and what the call presents. -/
theorem within_call {s : FencingTokenGuard × LeaderLeases ℤ} {k : FenceCall} :
    (fenceObject s k).2.1.Within acc t ↔
      s.1.Within acc t ∧ ∀ token, k.Presents acc token → token ≤ t := by
  cases k with
  | requireCurrent accountId instanceId token now clock =>
    simp only [fenceObject, requireCurrent_spec.2, within_accept, FenceCall.Presents]
    constructor
    · rintro ⟨hseen, hnew⟩
      exact ⟨hseen, fun token' h => h.2 ▸ hnew h.1⟩
    · rintro ⟨hseen, hnew⟩
      exact ⟨hseen, fun hacc => hnew token ⟨hacc, rfl⟩⟩
  | registry k => simp [fenceObject, FenceCall.Presents]

/-- **A run**: the guard has seen what the calls of the run presented. -/
theorem within_calls {l : Log (FencingTokenGuard × LeaderLeases ℤ) FenceCall FenceAnswer}
    {ks : List FenceCall} : (l.calls fenceObject ks).now.1.Within acc t ↔
      l.now.1.Within acc t ∧ ∀ k ∈ ks, ∀ token, k.Presents acc token → token ≤ t := by
  induction ks generalizing l with
  | nil => simp
  | cons k ks ih =>
    rw [Log.calls_cons, ih, Log.call_now, within_call]
    simp [and_assoc]

/-! ## 4. The result -/

/-- **The valid leader gets through exactly when** no call of the run has presented a token above
its own for the account. -/
theorem require_current_iff (rows : LeaderLeases ℤ) (ks : List FenceCall)
    (accountId instanceId : String) (token : ℤ) (now : Option ℤ) (clock : ℤ)
    (hvalid : DatabaseLeaderRegistry.validate accountId instanceId token now clock
      (fenceAfter rows ks).2 = true) :
    (requireCurrent accountId instanceId token now clock (fenceAfter rows ks).2
        (fenceAfter rows ks).1).1 = .ok () ↔
      ∀ k ∈ ks, ∀ token', k.Presents accountId token' → token' ≤ token := by
  rw [requireCurrent_spec.1, accept_iff]
  unfold fenceAfter at hvalid ⊢
  rw [within_calls]
  simp [hvalid, FencingTokenGuard.Within]

/-- A lease, and a call of another worker's token that is too low. -/
def staleCaller : List FenceCall :=
  [.registry ⟨.acquire "a" "one" 10, 100, 0⟩, .requireCurrent "a" "one" 0 (some 101) 0]

theorem require_current_iff_staleCaller :
    (requireCurrent "a" "one" 1 (some 102) 0 (fenceAfter ∅ staleCaller).2
        (fenceAfter ∅ staleCaller).1).1 = .ok () ↔
      ∀ k ∈ staleCaller, ∀ token', k.Presents "a" token' → token' ≤ 1 :=
  require_current_iff ∅ staleCaller "a" "one" 1 (some 102) 0 (by decide +kernel)

/-- **A rejected call can shut the leader out.**  Token 999 was never issued and is refused; the
token 1 of the lease is then refused as stale. -/
theorem require_current_shut_out :
    ¬ ∀ (rows : LeaderLeases ℤ) (ks : List FenceCall) accountId instanceId token now clock,
      DatabaseLeaderRegistry.validate accountId instanceId token now clock
        (fenceAfter rows ks).2 = true →
      (requireCurrent accountId instanceId token now clock (fenceAfter rows ks).2
        (fenceAfter rows ks).1).1 = .ok () := by
  intro h
  have hthrough := h ∅
    [.registry ⟨.acquire "a" "one" 10, 100, 0⟩, .requireCurrent "a" "one" 999 (some 101) 0]
    "a" "one" 1 (some 102) 0 (by decide +kernel)
  exact absurd hthrough (by decide +kernel)

end Kripto.Execution
