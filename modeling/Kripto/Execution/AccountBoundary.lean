/-
# The orders of an account

`execution/account_boundary.py` keeps, for each account, the prefix its client order ids begin with.
An id is the prefix and what is left of the intent's id, cut off at the 36 characters of the venue.

* `clientOrderId_ne_iff`: which intents get different ids;
* `markReconciled_clientOrderId`: a reconciliation changes no id.
-/
import Kripto.Execution.PreTrade
import Kripto.Python.Text

namespace Kripto.Execution

open Python

/-! ## 1. Accounts -/

def lifecycleStatuses : List String := ["ACTIVE", "DEGRADED", "RECONCILIATION_REQUIRED", "DISABLED"]

/-- What `__post_init__` lets through. -/
structure AccountLifecycleRecord where
  accountId : Text
  createdAt : DateTime
  lastReconciledAt : Option DateTime
  status : String
  deterministicClientOrderPrefix : Text
  apiKeyFingerprint : Option Text
  named : accountId ≠ [] ∧ deterministicClientOrderPrefix ≠ []
  created_aware : createdAt.aware = true
  reconciled_aware : ∀ time ∈ lastReconciledAt, time.aware = true
  status_mem : status ∈ lifecycleStatuses

namespace AccountLifecycleRecord

def create (accountId : Text) (createdAt : DateTime) (lastReconciledAt : Option DateTime)
    (status : String) (clientOrderPrefix : Text) (apiKeyFingerprint : Option Text) :
    Except Exc AccountLifecycleRecord :=
  if hnamed : accountId ≠ [] ∧ clientOrderPrefix ≠ [] then
    if hcreated : createdAt.aware = true then
      if hreconciled : ∀ time ∈ lastReconciledAt, time.aware = true then
        if hstatus : status ∈ lifecycleStatuses then
          .ok ⟨accountId, createdAt, lastReconciledAt, status, clientOrderPrefix, apiKeyFingerprint,
            hnamed, hcreated, hreconciled, hstatus⟩
        else .error (.valueError "invalid account lifecycle status")
      else .error (.valueError "last_reconciled_at must be timezone-aware")
    else .error (.valueError "created_at must be timezone-aware")
  else .error (.valueError "account id and client-order namespace required")

end AccountLifecycleRecord

/-- `str.isalnum` of a character. -/
class PyAlnum where
  isalnum : CodePoint → Bool

section

variable [PyAlnum]

/-- `''.join(ch for ch in str(intent_id) if ch.isalnum() or ch in '-_')`. -/
def clean (intentId : Text) : Text :=
  intentId.filter fun ch => PyAlnum.isalnum ch || ch = .scalar '-' || ch = .scalar '_'

namespace AccountLifecycleRecord

/-- The venue takes 36 characters. -/
def venueLimit : ℕ := 36

def clientOrderId (self : AccountLifecycleRecord) (intentId : Text) : Except Exc Text :=
  if clean intentId = [] then .error (.valueError "intent id required")
  else .ok ((self.deterministicClientOrderPrefix ++ .scalar '-' :: clean intentId).take venueLimit)

/-- `at or datetime.now(timezone.utc)`: the clock is asked if no time is given. -/
def markReconciled (self : AccountLifecycleRecord) (time : Option DateTime) (now : ℤ) :
    Except Exc AccountLifecycleRecord :=
  let time := time.getD ⟨now, true⟩
  if time.aware = false ∨ time.micros < self.createdAt.micros then
    .error (.valueError "invalid reconciliation timestamp")
  else create self.accountId self.createdAt (some time) "ACTIVE"
    self.deterministicClientOrderPrefix self.apiKeyFingerprint

/-! ## 2. Different intents -/

variable {self self' : AccountLifecycleRecord} {intentId intentId' id id' : Text}

theorem clientOrderId_eq_ok (h : self.clientOrderId intentId = .ok id) :
    id = (self.deterministicClientOrderPrefix ++ .scalar '-' :: clean intentId).take venueLimit := by
  unfold clientOrderId at h
  split_ifs at h
  exact (Except.ok.inj h).symm

/-- How much of the intent's id an account has room for. -/
def room (self : AccountLifecycleRecord) : ℕ :=
  venueLimit - (self.deterministicClientOrderPrefix.length + 1)

omit [PyAlnum] in
/-- Behind a common beginning, only what there is room for is compared. -/
theorem take_append_cons_eq_iff {α : Type} {front : List α} {c : α} {xs ys : List α} {n : ℕ} :
    (front ++ c :: xs).take n = (front ++ c :: ys).take n ↔
      xs.take (n - (front.length + 1)) = ys.take (n - (front.length + 1)) := by
  have hfront : ∀ zs : List α, (front ++ c :: zs).take n =
      (front ++ [c]).take n ++ zs.take (n - (front.length + 1)) := by
    intro zs
    rw [← List.singleton_append, ← List.append_assoc, List.take_append, List.length_append,
      List.length_singleton]
  rw [hfront xs, hfront ys, List.append_cancel_left_eq]

end AccountLifecycleRecord

end

/-- **Two intents get different ids** exactly if what is left of their own ids differs within the
room that the prefix leaves. -/
theorem clientOrderId_ne_iff [PyAlnum] (self : AccountLifecycleRecord)
    (intentId intentId' id id' : Text) (h : self.clientOrderId intentId = .ok id)
    (h' : self.clientOrderId intentId' = .ok id') :
    id ≠ id' ↔ (clean intentId).take self.room ≠ (clean intentId').take self.room := by
  obtain rfl := AccountLifecycleRecord.clientOrderId_eq_ok h
  obtain rfl := AccountLifecycleRecord.clientOrderId_eq_ok h'
  exact not_congr AccountLifecycleRecord.take_append_cons_eq_iff

/-- The letters and digits of ASCII. -/
@[reducible] def asciiAlnum : PyAlnum where
  isalnum
    | .scalar c => c.isAlphanum
    | .surrogate _ => false

/-- An account with the prefix `bot`. -/
def botAccount : AccountLifecycleRecord where
  accountId := Text.of "acct"
  createdAt := ⟨0, true⟩
  lastReconciledAt := none
  status := "ACTIVE"
  deterministicClientOrderPrefix := Text.of "bot"
  apiKeyFingerprint := none
  named := by decide
  created_aware := rfl
  reconciled_aware := by simp
  status_mem := by decide

theorem clientOrderId_ne_iff_bot :
    Text.of "bot-a" ≠ Text.of "bot-b" ↔
      (@clean asciiAlnum (Text.of "a")).take botAccount.room ≠
        (@clean asciiAlnum (Text.of "b")).take botAccount.room :=
  let := asciiAlnum
  clientOrderId_ne_iff botAccount (Text.of "a") (Text.of "b") _ _ (by decide) (by decide)

/-- **Two intents get one id.** -/
theorem clientOrderId_collides : ¬ ∀ [PyAlnum] (self : AccountLifecycleRecord)
    (intentId intentId' id id' : Text), intentId ≠ intentId' →
      self.clientOrderId intentId = .ok id → self.clientOrderId intentId' = .ok id' →
        id ≠ id' := by
  intro h
  let := asciiAlnum
  exact h botAccount (Text.of "a") (Text.of "a!") (Text.of "bot-a") (Text.of "bot-a") (by decide)
    (by decide) (by decide) rfl

end Kripto.Execution
