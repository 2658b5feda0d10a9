/-
# The two leader registries

`LeaderRegistry` (`execution/leader.py`) keeps a dict of leases and, apart from it, a dict of the
last token of each account.  `DatabaseLeaderRegistry` (`execution/persistent.py`) keeps both in
one row, which it locks while it decides.  What either does to an account is a step of a fenced
lease, so one proof about such cells (`Effect.FencedLease`) covers both.

The dict adds numbers of seconds, the table whole microseconds.  Where a lease lasts in the one
just when it does in the other, the registries answer a call alike (`Matches.call`).

* `leader_leases_safe`: in every run whose leases last, each registry is safe, and they answer
  alike as long as leases last alike;
* `leases_not_alike`: a lease of 0.2 from 0.1 on is valid at 0.3 in the dict only.
-/
import Kripto.Effect.FencedLease
import Kripto.Effect.Object
import Kripto.Effect.Totals
import Kripto.Execution.Order

namespace Kripto.Execution

open Effect Python

/-! ## 1. `LeaderRegistry` -/

/-- `Lease`, and `PersistentLease` with the same fields. -/
structure Lease (τ : Type) where
  accountId : String
  instanceId : String
  fencingToken : ℤ
  expiresAt : τ
  deriving DecidableEq

structure LeaderRegistry where
  leases : Table String (Lease ℚ) := ∅
  tokens : Table String ℤ := ∅

/-- `now or time.time()`: a time of zero is no time. -/
def orTime (now : Option ℚ) (clock : ℚ) : ℚ :=
  match now with
  | some t => if t = 0 then clock else t
  | none => clock

namespace LeaderRegistry

variable [Times ℚ]

def acquire (accountId instanceId : String) (ttl : ℚ) (now : Option ℚ) (clock : ℚ)
    (self : LeaderRegistry) : Except Exc (Lease ℚ) × LeaderRegistry :=
  let now := orTime now clock
  let cur := self.leases.lookup accountId
  if cur.any fun c => now < c.expiresAt ∧ c.instanceId ≠ instanceId then
    (.error (.permissionError "leader already active"), self)
  else
    let token := (self.tokens.lookup accountId).getD 0 +
      if cur.any fun c => c.instanceId = instanceId ∧ now < c.expiresAt then 0 else 1
    let lease : Lease ℚ := ⟨accountId, instanceId, token, Times.later now ttl⟩
    (.ok lease, ⟨self.leases.insert accountId lease, self.tokens.insert accountId token⟩)

def validate (accountId instanceId : String) (token : ℤ) (now : Option ℚ) (clock : ℚ)
    (self : LeaderRegistry) : Bool :=
  let now := orTime now clock
  (self.leases.lookup accountId).any fun c =>
    c.instanceId = instanceId ∧ c.fencingToken = token ∧ now < c.expiresAt

def heartbeat (accountId instanceId : String) (token : ℤ) (ttl : ℚ) (now : Option ℚ) (clock : ℚ)
    (self : LeaderRegistry) : Except Exc (Lease ℚ) × LeaderRegistry :=
  let now := orTime now clock
  match self.leases.lookup accountId with
  | none => (.error (.permissionError "cannot heartbeat stale or expired leader lease"), self)
  | some cur =>
    if cur.instanceId ≠ instanceId ∨ cur.fencingToken ≠ token ∨ cur.expiresAt ≤ now then
      (.error (.permissionError "cannot heartbeat stale or expired leader lease"), self)
    else
      let cur := { cur with expiresAt := Times.later now ttl }
      (.ok cur, { self with leases := self.leases.insert accountId cur })

end LeaderRegistry

/-! ## 2. `DatabaseLeaderRegistry` -/

/-- A row of `leader_leases`; its key is the account. -/
structure LeaderLeaseRow (τ : Type) where
  instanceId : String
  fencingToken : ℤ
  expiresAt : τ
  updatedAt : τ
  deriving DecidableEq

/-- The table `leader_leases`.  The times of the source are `datetime`s, whole microseconds. -/
abbrev LeaderLeases (τ : Type) : Type := Table String (LeaderLeaseRow τ)

section Registries

variable {τ : Type} [LinearOrder τ] [Times τ]

namespace DatabaseLeaderRegistry

def acquire (accountId instanceId : String) (ttl : ℚ) (now : Option τ) (clock : τ)
    (rows : LeaderLeases τ) : Except Exc (Lease τ) × LeaderLeases τ :=
  let now := now.getD clock
  let expires := Times.later now ttl
  let row := rows.lookup accountId
  if row.any fun r => now < r.expiresAt ∧ r.instanceId ≠ instanceId then
    (.error (.permissionError "leader already active"), rows)
  else
    let token := match row with
      | some r => if r.instanceId = instanceId ∧ now < r.expiresAt then r.fencingToken
          else r.fencingToken + 1
      | none => 1
    (.ok ⟨accountId, instanceId, token, expires⟩,
      rows.insert accountId ⟨instanceId, token, expires, now⟩)

def validate (accountId instanceId : String) (token : ℤ) (now : Option τ) (clock : τ)
    (rows : LeaderLeases τ) : Bool :=
  let now := now.getD clock
  (rows.lookup accountId).any fun r =>
    r.instanceId = instanceId ∧ r.fencingToken = token ∧ now < r.expiresAt

def heartbeat (accountId instanceId : String) (token : ℤ) (ttl : ℚ) (now : Option τ)
    (clock : τ) (rows : LeaderLeases τ) : Except Exc (Lease τ) × LeaderLeases τ :=
  let now := now.getD clock
  let expires := Times.later now ttl
  match rows.lookup accountId with
  | none => (.error (.permissionError "cannot heartbeat stale or expired leader lease"), rows)
  | some row =>
    if row.instanceId ≠ instanceId ∨ row.fencingToken ≠ token ∨ row.expiresAt ≤ now then
      (.error (.permissionError "cannot heartbeat stale or expired leader lease"), rows)
    else
      (.ok ⟨accountId, instanceId, token, expires⟩,
        rows.insert accountId { row with expiresAt := expires, updatedAt := now })

end DatabaseLeaderRegistry

/-! ## 3. The registries as objects -/

inductive LeaderOp
  | acquire (accountId instanceId : String) (ttl : ℚ)
  | heartbeat (accountId instanceId : String) (token : ℤ) (ttl : ℚ)
  | validate (accountId instanceId : String) (token : ℤ)
  deriving DecidableEq

def LeaderOp.account : LeaderOp → String
  | acquire accountId .. => accountId
  | heartbeat accountId .. => accountId
  | validate accountId .. => accountId

/-- A call with the time it is given, and what the clock shows meanwhile. -/
structure LeaderCall (τ : Type) where
  op : LeaderOp
  now : τ
  clock : τ
  deriving DecidableEq

inductive LeaderReply (τ : Type)
  | lease (l : Lease τ)
  | valid (b : Bool)
  deriving DecidableEq

abbrev LeaderAnswer (τ : Type) : Type := Except Exc (LeaderReply τ)

def LeaderRegistry.object [Times ℚ] : Object LeaderRegistry (LeaderCall ℚ) (LeaderAnswer ℚ)
  | self, ⟨.acquire accountId instanceId ttl, now, clock⟩ =>
      ((self.acquire accountId instanceId ttl (some now) clock).1.map .lease,
        (self.acquire accountId instanceId ttl (some now) clock).2)
  | self, ⟨.heartbeat accountId instanceId token ttl, now, clock⟩ =>
      ((self.heartbeat accountId instanceId token ttl (some now) clock).1.map .lease,
        (self.heartbeat accountId instanceId token ttl (some now) clock).2)
  | self, ⟨.validate accountId instanceId token, now, clock⟩ =>
      (.ok (.valid (self.validate accountId instanceId token (some now) clock)), self)

def DatabaseLeaderRegistry.object : Object (LeaderLeases τ) (LeaderCall τ) (LeaderAnswer τ)
  | rows, ⟨.acquire accountId instanceId ttl, now, clock⟩ =>
      ((acquire accountId instanceId ttl (some now) clock rows).1.map .lease,
        (acquire accountId instanceId ttl (some now) clock rows).2)
  | rows, ⟨.heartbeat accountId instanceId token ttl, now, clock⟩ =>
      ((heartbeat accountId instanceId token ttl (some now) clock rows).1.map .lease,
        (heartbeat accountId instanceId token ttl (some now) clock rows).2)
  | rows, ⟨.validate accountId instanceId token, now, clock⟩ =>
      (.ok (.valid (validate accountId instanceId token (some now) clock rows)), rows)

/-! ## 4. The two agree -/

section Agreement

variable [Times ℚ] {E : ℚ → τ → Prop}

/-- The lease is that of the row, and ends when it does, as `E` tells. -/
structure LeaseAlike (E : ℚ → τ → Prop) (accountId : String) (l : Lease ℚ)
    (r : LeaderLeaseRow τ) : Prop where
  account : l.accountId = accountId
  holder : l.instanceId = r.instanceId
  token : l.fencingToken = r.fencingToken
  expires : E l.expiresAt r.expiresAt

/-- **The dicts say what the rows say**, the last token included. -/
structure Matches (E : ℚ → τ → Prop) (reg : LeaderRegistry) (rows : LeaderLeases τ) : Prop where
  leases : ∀ acc, Option.Rel (LeaseAlike E acc) (reg.leases.lookup acc) (rows.lookup acc)
  tokens : ∀ acc, reg.tokens.lookup acc = (rows.lookup acc).map (·.fencingToken)

/-- The lease of the account lasts in the one registry just when it does in the other. -/
def LastsAlike (reg : LeaderRegistry) (rows : LeaderLeases τ) (accountId : String) (seconds : ℚ)
    (now : τ) : Prop :=
  (reg.leases.lookup accountId).any (fun l => seconds < l.expiresAt) =
    (rows.lookup accountId).any fun r => now < r.expiresAt

/-- Two answers are the same refusal, the same lease until its end, or the same validity. -/
inductive AnswersAlike (E : ℚ → τ → Prop) : LeaderAnswer ℚ → LeaderAnswer τ → Prop
  | error (e : Exc) : AnswersAlike E (.error e) (.error e)
  | lease (accountId instanceId : String) (token : ℤ) (expires : ℚ) (expires' : τ)
      (h : E expires expires') : AnswersAlike E
        (.ok (.lease ⟨accountId, instanceId, token, expires⟩))
        (.ok (.lease ⟨accountId, instanceId, token, expires'⟩))
  | valid (b : Bool) : AnswersAlike E (.ok (.valid b)) (.ok (.valid b))

omit [LinearOrder τ] [Times τ] [Times ℚ] in
theorem Matches.empty : Matches E {} ∅ := by
  constructor <;> intro acc <;> simp

variable {reg : LeaderRegistry} {rows : LeaderLeases τ} {accountId instanceId : String} {token : ℤ}
  {ttl seconds clock : ℚ} {now clock' : τ}

omit [LinearOrder τ] [Times τ] [Times ℚ] in
theorem orTime_pos (h : 0 < seconds) (clock : ℚ) : orTime (some seconds) clock = seconds :=
  if_neg h.ne'

omit [LinearOrder τ] [Times τ] [Times ℚ] in
/-- A new lease, with its token, written to both. -/
theorem Matches.insert (h : Matches E reg rows) {l : Lease ℚ} {r : LeaderLeaseRow τ}
    (halike : LeaseAlike E accountId l r) :
    Matches E ⟨reg.leases.insert accountId l, reg.tokens.insert accountId r.fencingToken⟩
      (rows.insert accountId r) := by
  constructor
  · intro acc
    by_cases hacc : acc = accountId
    · subst hacc
      simpa using Option.Rel.some halike
    · simpa [hacc] using h.leases acc
  · intro acc
    by_cases hacc : acc = accountId
    · subst hacc
      simp
    · simp [hacc, h.tokens acc]

omit [LinearOrder τ] [Times τ] [Times ℚ] in
/-- A lease written again with its token left alone. -/
theorem Matches.renew (h : Matches E reg rows) {l : Lease ℚ} {r r' : LeaderLeaseRow τ}
    (hr : rows.lookup accountId = some r) (halike : LeaseAlike E accountId l r')
    (htoken : r'.fencingToken = r.fencingToken) :
    Matches E ⟨reg.leases.insert accountId l, reg.tokens⟩ (rows.insert accountId r') := by
  refine ⟨(h.insert halike).leases, fun acc => ?_⟩
  by_cases hacc : acc = accountId
  · subst hacc
    simp [h.tokens acc, hr, htoken]
  · simp [hacc, h.tokens acc]

omit [Times τ] [Times ℚ] in
/-- The lease and the row of an account: there is neither, or both, and they last alike. -/
theorem Matches.cases (h : Matches E reg rows)
    (hlasts : LastsAlike reg rows accountId seconds now) :
    reg.leases.lookup accountId = none ∧ rows.lookup accountId = none ∨
      ∃ l r, reg.leases.lookup accountId = some l ∧ rows.lookup accountId = some r ∧
        LeaseAlike E accountId l r ∧ (seconds < l.expiresAt ↔ now < r.expiresAt) := by
  have hlease := h.leases accountId
  unfold LastsAlike at hlasts
  cases hreg : reg.leases.lookup accountId <;> cases hrow : rows.lookup accountId <;>
    rw [hreg, hrow] at hlease hlasts <;> cases hlease
  · exact .inl ⟨rfl, rfl⟩
  · rename_i l r halike
    exact .inr ⟨l, r, rfl, rfl, halike, by simpa using hlasts⟩

theorem Matches.acquire (h : Matches E reg rows) (hpos : 0 < seconds)
    (hlasts : LastsAlike reg rows accountId seconds now)
    (hE : E (Times.later seconds ttl) (Times.later now ttl)) :
    AnswersAlike E ((reg.acquire accountId instanceId ttl (some seconds) clock).1.map .lease)
        ((DatabaseLeaderRegistry.acquire accountId instanceId ttl (some now) clock' rows).1.map
          .lease) ∧
      Matches E (reg.acquire accountId instanceId ttl (some seconds) clock).2
        (DatabaseLeaderRegistry.acquire accountId instanceId ttl (some now) clock' rows).2 := by
  have htoken := h.tokens accountId
  have hwritten : ∀ token, AnswersAlike E
      (.ok (.lease ⟨accountId, instanceId, token, Times.later seconds ttl⟩))
        (.ok (.lease ⟨accountId, instanceId, token, Times.later now ttl⟩)) ∧
      Matches E ⟨reg.leases.insert accountId
          ⟨accountId, instanceId, token, Times.later seconds ttl⟩,
        reg.tokens.insert accountId token⟩
        (rows.insert accountId ⟨instanceId, token, Times.later now ttl, now⟩) :=
    fun token => ⟨.lease _ _ _ _ _ hE,
      h.insert (l := ⟨accountId, instanceId, token, Times.later seconds ttl⟩)
        (r := ⟨instanceId, token, Times.later now ttl, now⟩) ⟨rfl, rfl, rfl, hE⟩⟩
  unfold LeaderRegistry.acquire DatabaseLeaderRegistry.acquire
  simp only [orTime_pos hpos clock, Option.getD_some, htoken]
  rcases h.cases hlasts with ⟨hreg, hrow⟩ | ⟨l, r, hreg, hrow, halike, hlive⟩
  · simpa [hreg, hrow, Except.map] using hwritten 1
  · by_cases hnow : now < r.expiresAt <;> by_cases hholder : r.instanceId = instanceId
    · -- the holder renews and keeps its token
      simpa [hreg, hrow, hlive, hnow, halike.holder, hholder, Except.map] using
        hwritten r.fencingToken
    · simpa [hreg, hrow, hlive, hnow, halike.holder, hholder, Except.map] using
        ⟨AnswersAlike.error _, h⟩
    · simpa [hreg, hrow, hlive, hnow, halike.holder, hholder, Except.map] using
        hwritten (r.fencingToken + 1)
    · simpa [hreg, hrow, hlive, hnow, halike.holder, hholder, Except.map] using
        hwritten (r.fencingToken + 1)

theorem Matches.heartbeat (h : Matches E reg rows) (hpos : 0 < seconds)
    (hlasts : LastsAlike reg rows accountId seconds now)
    (hE : E (Times.later seconds ttl) (Times.later now ttl)) :
    AnswersAlike E
        ((reg.heartbeat accountId instanceId token ttl (some seconds) clock).1.map .lease)
        ((DatabaseLeaderRegistry.heartbeat accountId instanceId token ttl (some now) clock'
          rows).1.map .lease) ∧
      Matches E (reg.heartbeat accountId instanceId token ttl (some seconds) clock).2
        (DatabaseLeaderRegistry.heartbeat accountId instanceId token ttl (some now) clock'
          rows).2 := by
  unfold LeaderRegistry.heartbeat DatabaseLeaderRegistry.heartbeat
  simp only [orTime_pos hpos clock, Option.getD_some]
  rcases h.cases hlasts with ⟨hreg, hrow⟩ | ⟨l, r, hreg, hrow, ⟨rfl, hholder, htoken, _⟩, hlive⟩
  · simpa [hreg, hrow, Except.map] using ⟨AnswersAlike.error _, h⟩
  · have hended : l.expiresAt ≤ seconds ↔ r.expiresAt ≤ now := by
      rw [← not_lt, hlive, not_lt]
    obtain ⟨accountId, instanceId', token', expires⟩ := l
    obtain rfl : instanceId' = r.instanceId := hholder
    obtain rfl : token' = r.fencingToken := htoken
    simp only [hreg, hrow, hended]
    by_cases hstale : r.instanceId ≠ instanceId ∨ r.fencingToken ≠ token ∨ r.expiresAt ≤ now
    · rw [if_pos hstale, if_pos hstale]
      exact ⟨.error _, h⟩
    · rw [if_neg hstale, if_neg hstale]
      obtain ⟨rfl, rfl, -⟩ : r.instanceId = instanceId ∧ r.fencingToken = token ∧
          now < r.expiresAt := by simpa using hstale
      exact ⟨.lease _ _ _ _ _ hE, h.renew hrow ⟨rfl, rfl, rfl, hE⟩ rfl⟩

omit [Times τ] [Times ℚ] in
theorem Matches.validate (h : Matches E reg rows) (hpos : 0 < seconds)
    (hlasts : LastsAlike reg rows accountId seconds now) :
    reg.validate accountId instanceId token (some seconds) clock
      = DatabaseLeaderRegistry.validate accountId instanceId token (some now) clock' rows := by
  unfold LeaderRegistry.validate DatabaseLeaderRegistry.validate
  simp only [orTime_pos hpos clock, Option.getD_some]
  rcases h.cases hlasts with ⟨hreg, hrow⟩ | ⟨l, r, hreg, hrow, ⟨-, hholder, htoken, -⟩, hlive⟩
  · rw [hreg, hrow]
    rfl
  · simp only [hreg, hrow, Option.any_some, hholder, htoken, hlive]

/-- **Each call is answered alike**, and leaves them saying the same. -/
theorem Matches.call (h : Matches E reg rows) {op : LeaderOp} (hpos : 0 < seconds)
    (hlasts : LastsAlike reg rows op.account seconds now)
    (hE : ∀ ttl, E (Times.later seconds ttl) (Times.later now ttl)) :
    AnswersAlike E (LeaderRegistry.object reg ⟨op, seconds, clock⟩).1
        (DatabaseLeaderRegistry.object rows ⟨op, now, clock'⟩).1 ∧
      Matches E (LeaderRegistry.object reg ⟨op, seconds, clock⟩).2
        (DatabaseLeaderRegistry.object rows ⟨op, now, clock'⟩).2 := by
  cases op with
  | acquire accountId instanceId ttl => exact h.acquire hpos hlasts (hE ttl)
  | heartbeat accountId instanceId token ttl => exact h.heartbeat hpos hlasts (hE ttl)
  | validate accountId instanceId token =>
    have hvalid : reg.validate accountId instanceId token (some seconds) clock =
        DatabaseLeaderRegistry.validate accountId instanceId token (some now) clock' rows :=
      h.validate hpos hlasts
    simp only [LeaderRegistry.object, DatabaseLeaderRegistry.object, hvalid]
    exact ⟨.valid _, h⟩

end Agreement

/-! ## 5. Rows as fenced leases -/

/-- The cell of an account. -/
def cell (rows : LeaderLeases τ) (accountId : String) : Option (FencedLease String τ) :=
  (rows.lookup accountId).map fun r => ⟨r.instanceId, r.fencingToken, r.expiresAt⟩

/-- The lease a row stands for. -/
def LeaderLeaseRow.lease (r : LeaderLeaseRow τ) (accountId : String) : Lease τ :=
  ⟨accountId, r.instanceId, r.fencingToken, r.expiresAt⟩

/-- The lease a call asks for is to last, once its end is computed. -/
def LeaderCall.Lasts : LeaderCall τ → Prop
  | ⟨.acquire _ _ ttl, now, _⟩ => now < Times.later now ttl
  | ⟨.heartbeat _ _ _ ttl, now, _⟩ => now < Times.later now ttl
  | ⟨.validate .., _, _⟩ => True

instance LeaderCall.decidableLasts : DecidablePred (LeaderCall.Lasts (τ := τ))
  | ⟨.acquire _ _ ttl, now, _⟩ => inferInstanceAs (Decidable (now < Times.later now ttl))
  | ⟨.heartbeat _ _ _ ttl, now, _⟩ => inferInstanceAs (Decidable (now < Times.later now ttl))
  | ⟨.validate .., _, _⟩ => isTrue trivial

/-- An answer that vouches for a pair: a lease for it, or its validation. -/
def Asserts (accountId instanceId : String) (token : ℤ)
    (e : LeaderCall τ × LeaderAnswer τ) : Prop :=
  (∃ l, e.2 = .ok (.lease l) ∧ l.accountId = accountId ∧ l.instanceId = instanceId ∧
    l.fencingToken = token) ∨
  (e.1.op = .validate accountId instanceId token ∧ e.2 = .ok (.valid true))

/-- An answer that the pair is not valid. -/
def Denies (accountId instanceId : String) (token : ℤ) (e : LeaderCall τ × LeaderAnswer τ) : Prop :=
  e.1.op = .validate accountId instanceId token ∧ e.2 = .ok (.valid false)

section Cells

variable {acc accountId instanceId : String} {token : ℤ} {ttl : ℚ} {now : τ} {k : LeaderCall τ}

omit [LinearOrder τ] [Times τ] in
theorem cell_insert_self (rows : LeaderLeases τ) (acc : String) (r : LeaderLeaseRow τ) :
    cell (rows.insert acc r) acc = some ⟨r.instanceId, r.fencingToken, r.expiresAt⟩ := by
  simp [cell]

omit [LinearOrder τ] [Times τ] in
theorem cell_insert_of_ne (rows : LeaderLeases τ) (r : LeaderLeaseRow τ) (h : acc ≠ accountId) :
    cell (rows.insert accountId r) acc = cell rows acc := by
  simp [cell, h]

/-- What a call does: it is refused, or it writes a row that lasts, or it validates. -/
inductive Outcome (rows : LeaderLeases τ) (k : LeaderCall τ) :
    LeaderAnswer τ × LeaderLeases τ → Prop
  | refused (e : Exc) : Outcome rows k (.error e, rows)
  | written (r : LeaderLeaseRow τ) (hlive : k.now < r.expiresAt)
      (hstep : FencedLease.Step k.now (cell rows k.op.account)
        (some ⟨r.instanceId, r.fencingToken, r.expiresAt⟩)) :
      Outcome rows k (.ok (.lease (r.lease k.op.account)), rows.insert k.op.account r)
  | validated (b : Bool) : Outcome rows k (.ok (.valid b), rows)

/-- A row is written by the first call, by its holder, or by anyone once it has run out. -/
theorem outcome_acquire (rows : LeaderLeases τ) (accountId instanceId : String) (ttl : ℚ)
    (now clock : τ) (hlasts : now < Times.later now ttl) :
    Outcome rows ⟨.acquire accountId instanceId ttl, now, clock⟩
      (DatabaseLeaderRegistry.object rows ⟨.acquire accountId instanceId ttl, now, clock⟩) := by
  simp only [DatabaseLeaderRegistry.object, DatabaseLeaderRegistry.acquire, Option.getD_some]
  have hwritten : ∀ token, FencedLease.Step now (cell rows accountId)
      (some ⟨instanceId, token, Times.later now ttl⟩) →
      Outcome rows ⟨.acquire accountId instanceId ttl, now, clock⟩
        (.ok (.lease ⟨accountId, instanceId, token, Times.later now ttl⟩),
          rows.insert accountId ⟨instanceId, token, Times.later now ttl, now⟩) :=
    fun token hstep => .written ⟨instanceId, token, Times.later now ttl, now⟩ hlasts hstep
  cases hrow : rows.lookup accountId with
  | none =>
    simp only [Option.any_none, Bool.false_eq_true, if_false]
    exact hwritten 1 (by simpa [cell, hrow] using .first _)
  | some r₀ =>
    have hcell : cell rows accountId = some ⟨r₀.instanceId, r₀.fencingToken, r₀.expiresAt⟩ := by
      simp [cell, hrow]
    by_cases hlive : now < r₀.expiresAt
    · by_cases hholder : r₀.instanceId = instanceId
      · simpa [hlive, hholder, Except.map] using
          hwritten _ (hcell ▸ .extend _ _ hlive hlasts hholder.symm rfl)
      · simpa [hlive, hholder, Except.map] using .refused _
    · simpa [hlive, Except.map] using
        hwritten _ (hcell ▸ .takeOver _ _ (not_lt.mp hlive) (lt_add_one _))

theorem outcome_heartbeat (rows : LeaderLeases τ) (accountId instanceId : String) (token : ℤ)
    (ttl : ℚ) (now clock : τ) (hlasts : now < Times.later now ttl) :
    Outcome rows ⟨.heartbeat accountId instanceId token ttl, now, clock⟩
      (DatabaseLeaderRegistry.object rows
        ⟨.heartbeat accountId instanceId token ttl, now, clock⟩) := by
  simp only [DatabaseLeaderRegistry.object, DatabaseLeaderRegistry.heartbeat, Option.getD_some]
  cases hrow : rows.lookup accountId with
  | none => exact .refused _
  | some r₀ =>
    by_cases hstale : r₀.instanceId ≠ instanceId ∨ r₀.fencingToken ≠ token ∨ r₀.expiresAt ≤ now
    · simp only [if_pos hstale]
      exact .refused _
    · simp only [if_neg hstale]
      obtain ⟨rfl, rfl, hlive⟩ : r₀.instanceId = instanceId ∧ r₀.fencingToken = token ∧
          now < r₀.expiresAt := by simpa using hstale
      refine .written { r₀ with expiresAt := Times.later now ttl, updatedAt := now } hlasts ?_
      simpa [cell, LeaderOp.account, hrow] using .extend _ _ hlive hlasts rfl rfl

theorem outcome (rows : LeaderLeases τ) (hlasts : k.Lasts) :
    Outcome rows k (DatabaseLeaderRegistry.object rows k) := by
  obtain ⟨op, now, clock⟩ := k
  cases op with
  | acquire accountId instanceId ttl => exact outcome_acquire _ _ _ _ _ _ hlasts
  | heartbeat accountId instanceId token ttl => exact outcome_heartbeat _ _ _ _ _ _ _ hlasts
  | validate accountId instanceId token => exact .validated _

/-- **Every call is a step of the cell of every account.** -/
theorem cell_step (rows : LeaderLeases τ) (hlasts : k.Lasts) (acc : String) :
    FencedLease.Step k.now (cell rows acc)
      (cell (DatabaseLeaderRegistry.object rows k).2 acc) := by
  have hout := outcome rows hlasts
  generalize DatabaseLeaderRegistry.object rows k = out at hout ⊢
  cases hout with
  | refused | validated => exact .keep _
  | written r hlive hstep =>
    by_cases hacc : acc = k.op.account
    · subst hacc
      rw [cell_insert_self]
      exact hstep
    · rw [cell_insert_of_ne _ _ hacc]
      exact .keep _

omit [Times τ] in
theorem validate_iff {rows : LeaderLeases τ} {clock : τ} :
    DatabaseLeaderRegistry.validate acc instanceId token (some now) clock rows = true ↔
      FencedLease.Valid (cell rows acc) instanceId token now := by
  unfold DatabaseLeaderRegistry.validate FencedLease.Valid cell
  cases rows.lookup acc with
  | none => simp
  | some r => simp

/-- **What an answer vouches for is valid then.** -/
theorem valid_of_asserts {rows : LeaderLeases τ} (hlasts : k.Lasts)
    (h : Asserts acc instanceId token (k, (DatabaseLeaderRegistry.object rows k).1)) :
    FencedLease.Valid (cell (DatabaseLeaderRegistry.object rows k).2 acc) instanceId token
      k.now := by
  rcases h with ⟨l, hl, rfl, rfl, rfl⟩ | ⟨hop, hanswer⟩
  · have hout := outcome rows hlasts
    generalize DatabaseLeaderRegistry.object rows k = out at hout hl ⊢
    cases hout with
    | refused | validated => cases hl
    | written r hlive hstep =>
      cases hl
      exact ⟨_, cell_insert_self _ _ _, rfl, rfl, hlive⟩
  · obtain ⟨op, now, clock⟩ := k
    cases hop
    simp only [DatabaseLeaderRegistry.object, Except.ok.injEq, LeaderReply.valid.injEq] at hanswer
    exact validate_iff.mp hanswer

/-- What an answer denies is not. -/
theorem not_valid_of_denies {rows : LeaderLeases τ}
    (h : Denies acc instanceId token (k, (DatabaseLeaderRegistry.object rows k).1)) :
    ¬FencedLease.Valid (cell (DatabaseLeaderRegistry.object rows k).2 acc) instanceId token
      k.now := by
  obtain ⟨op, now, clock⟩ := k
  obtain ⟨hop, hanswer⟩ := h
  replace hop : op = .validate acc instanceId token := hop
  subst hop
  simp only [DatabaseLeaderRegistry.object, Except.ok.injEq, LeaderReply.valid.injEq] at hanswer
  intro hvalid
  replace hvalid : FencedLease.Valid (cell rows acc) instanceId token now := hvalid
  rw [validate_iff.mpr hvalid] at hanswer
  cases hanswer

end Cells

/-! ## 6. Histories -/

/-- **Lease safety**, of a history of calls and answers. -/
structure LeaseSafe (past : List (LeaderCall τ × LeaderAnswer τ)) : Prop where
  /-- At any one time only one pair of an account is vouched for. -/
  exclusive : past.Pairwise fun e e' => ∀ acc i t i' t', Asserts acc i t e →
    Asserts acc i' t' e' → e.1.now = e'.1.now → i = i' ∧ t = t'
  /-- Tokens do not decrease, and increase from one holder to another. -/
  ordered : past.Pairwise fun e e' => ∀ acc i t i' t', Asserts acc i t e →
    Asserts acc i' t' e' → t ≤ t' ∧ (i ≠ i' → t < t')
  /-- A pair that has stopped being valid is not valid again. -/
  final : ∀ e₁ e₂ e₃, [e₁, e₂, e₃].Sublist past → ∀ acc i t, Asserts acc i t e₁ →
    Denies acc i t e₂ → ¬Asserts acc i t e₃

abbrev LeaderLog (τ : Type) : Type := Log (LeaderLeases τ) (LeaderCall τ) (LeaderAnswer τ)

/-- The time is not before any call of the log. -/
def LeaderLog.Until (l : LeaderLog τ) (now : τ) : Prop := ∀ e ∈ l.past, e.1.now ≤ now

/-- **What the rows still know of the history.** -/
structure Tracks (l : LeaderLog τ) : Prop where
  held : ∀ e ∈ l.past, ∀ acc i t, Asserts acc i t e → ∀ now, l.Until now →
    FencedLease.Held (cell l.now acc) i t e.1.now now
  ended : ∀ e e', [e, e'].Sublist l.past → ∀ acc i t, Asserts acc i t e → Denies acc i t e' →
    ∀ now, l.Until now → FencedLease.Over (cell l.now acc) t now
  safe : LeaseSafe l.past

omit [Times τ] in
theorem Tracks.start (rows : LeaderLeases τ) : Tracks (Log.start rows) where
  held := by
    intro e he
    simp at he
  ended := by
    intro e e' h
    simp at h
  safe := by
    constructor
    · simp
    · simp
    · intro e₁ e₂ e₃ h
      simp at h

/-- **One more call**, not before the others. -/
theorem Tracks.call {l : LeaderLog τ} {k : LeaderCall τ} (h : Tracks l) (hnow : l.Until k.now)
    (hlasts : k.Lasts) :
    Tracks (l.call DatabaseLeaderRegistry.object k) := by
  have hstep := cell_step (k := k) l.now hlasts
  -- what was vouched for before the call, and what the call vouches for
  have hheld : ∀ e ∈ l.past, ∀ acc i t, Asserts acc i t e →
      FencedLease.Held (cell (DatabaseLeaderRegistry.object l.now k).2 acc) i t e.1.now k.now :=
    fun e he acc i t ha => (h.held e he acc i t ha k.now hnow).step (hnow e he) (hstep acc)
  have hvalid : ∀ acc i t, Asserts acc i t (k, (DatabaseLeaderRegistry.object l.now k).1) →
      FencedLease.Valid (cell (DatabaseLeaderRegistry.object l.now k).2 acc) i t k.now :=
    fun acc i t ha => valid_of_asserts hlasts ha
  have hover : ∀ e e', [e, e'].Sublist l.past → ∀ acc i t, Asserts acc i t e → Denies acc i t e' →
      FencedLease.Over (cell (DatabaseLeaderRegistry.object l.now k).2 acc) t k.now :=
    fun e e' hsub acc i t ha hd => (h.ended e e' hsub acc i t ha hd k.now hnow).step (hstep acc)
  have huntil : ∀ now, LeaderLog.Until (l.call DatabaseLeaderRegistry.object k) now →
      k.now ≤ now := fun now hn => hn (k, (DatabaseLeaderRegistry.object l.now k).1) (by simp)
  refine ⟨?_, ?_, ?_, ?_, ?_⟩
  · intro e he acc i t ha now hn
    rw [Log.call_past, List.mem_append, List.mem_singleton] at he
    rcases he with he | rfl
    · exact (hheld e he acc i t ha).mono (huntil now hn)
    · exact (hvalid acc i t ha).held now
  · intro e e' hsub acc i t ha hd now hn
    rcases Log.sublist_call_past.mp (show ([e] ++ [e']).Sublist _ from hsub) with hold | ⟨he, rfl⟩
    · exact (hover e e' hold acc i t ha hd).mono (huntil now hn)
    · have he : e ∈ l.past := List.singleton_sublist.mp he
      exact ((hheld e he acc i t ha).ended (not_valid_of_denies hd)).mono (huntil now hn)
  · rw [Log.call_past, List.pairwise_append]
    refine ⟨h.safe.exclusive, List.pairwise_singleton _ _, ?_⟩
    intro e he e' he' acc i t i' t' ha ha' hsame
    obtain rfl := List.mem_singleton.mp he'
    have hthen := hheld e he acc i t ha
    rw [hsame] at hthen
    exact hthen.exclusive (hvalid acc i' t' ha')
  · rw [Log.call_past, List.pairwise_append]
    refine ⟨h.safe.ordered, List.pairwise_singleton _ _, ?_⟩
    intro e he e' he' acc i t i' t' ha ha'
    obtain rfl := List.mem_singleton.mp he'
    have hthen := hheld e he acc i t ha
    obtain ⟨lease, hlease, rfl, rfl, -⟩ := hvalid acc i' t' ha'
    rw [hlease] at hthen
    exact hthen.token_le
  · intro e₁ e₂ e₃ hsub acc i t ha hd ha'
    rcases Log.sublist_call_past.mp (show ([e₁, e₂] ++ [e₃]).Sublist _ from hsub) with
      hold | ⟨hold, rfl⟩
    · exact h.safe.final e₁ e₂ e₃ hold acc i t ha hd ha'
    · exact (hover e₁ e₂ hold acc i t ha hd).not_valid (hvalid acc i t ha')

/-! ## 7. The result -/

/-- **The calls of a run**: at positive times that do not decrease, for leases that last. -/
structure LeaderRun [Zero τ] (ks : List (LeaderCall τ)) : Prop where
  positive : ∀ k ∈ ks, 0 < k.now ∧ k.Lasts
  ordered : ks.Pairwise fun k k' => k.now ≤ k'.now

/-- The two registries over a run. -/
def registryLog [Times ℚ] (ks : List (LeaderCall ℚ)) :
    Log LeaderRegistry (LeaderCall ℚ) (LeaderAnswer ℚ) :=
  (Log.start {}).calls LeaderRegistry.object ks

def databaseLog (ks : List (LeaderCall τ)) : LeaderLog τ :=
  (Log.start ∅).calls DatabaseLeaderRegistry.object ks

theorem tracks_calls [Zero τ] {l : LeaderLog τ} {ks : List (LeaderCall τ)} (h : Tracks l)
    (hrun : LeaderRun ks) (hnow : ∀ k ∈ ks, l.Until k.now) :
    Tracks (l.calls DatabaseLeaderRegistry.object ks) := by
  induction ks generalizing l with
  | nil => exact h
  | cons k ks ih =>
    obtain ⟨hk, hks⟩ := List.pairwise_cons.mp hrun.ordered
    refine ih (h.call (hnow k (by simp)) (hrun.positive k (by simp)).2)
      ⟨fun k' hk' => hrun.positive k' (by simp [hk']), hks⟩ ?_
    intro k' hk' e he
    rw [Log.call_past, List.mem_append, List.mem_singleton] at he
    rcases he with he | rfl
    · exact hnow k' (by simp [hk']) e he
    · exact hk k' hk'

theorem safe_databaseLog [Zero τ] {ks : List (LeaderCall τ)} (h : LeaderRun ks) :
    LeaseSafe (databaseLog ks).past :=
  (tracks_calls (.start ∅) h fun k _ e he => by simp at he).safe

/-- The call at a time in seconds. -/
def LeaderCall.inSeconds (seconds : τ → ℚ) (k : LeaderCall τ) : LeaderCall ℚ :=
  ⟨k.op, seconds k.now, seconds k.clock⟩

/-- At each of the calls the lease of the account lasts in the one registry just when it does in the
other. -/
def LastAlike [Times ℚ] (seconds : τ → ℚ) : LeaderRegistry → LeaderLeases τ →
    List (LeaderCall τ) → Prop
  | _, _, [] => True
  | reg, rows, k :: ks => LastsAlike reg rows k.op.account (seconds k.now) k.now ∧
    LastAlike seconds (LeaderRegistry.object reg (k.inSeconds seconds)).2
      (DatabaseLeaderRegistry.object rows k).2 ks

/-- The call that was made, at its time in seconds, and what was answered. -/
def EntriesAlike (E : ℚ → τ → Prop) (seconds : τ → ℚ) (e : LeaderCall ℚ × LeaderAnswer ℚ)
    (e' : LeaderCall τ × LeaderAnswer τ) : Prop :=
  e.1 = e'.1.inSeconds seconds ∧ AnswersAlike E e.2 e'.2

/-- **A run of both**, answered alike as long as leases last alike. -/
theorem answers_alike [Times ℚ] {E : ℚ → τ → Prop} {seconds : τ → ℚ}
    {l : Log LeaderRegistry (LeaderCall ℚ) (LeaderAnswer ℚ)} {l' : LeaderLog τ}
    {ks : List (LeaderCall τ)} (h : Matches E l.now l'.now)
    (hpast : List.Forall₂ (EntriesAlike E seconds) l.past l'.past)
    (hpos : ∀ k ∈ ks, 0 < seconds k.now)
    (hE : ∀ k ∈ ks, ∀ ttl, E (Times.later (seconds k.now) ttl) (Times.later k.now ttl))
    (hlasts : LastAlike seconds l.now l'.now ks) :
    List.Forall₂ (EntriesAlike E seconds)
      (l.calls LeaderRegistry.object (ks.map (·.inSeconds seconds))).past
      (l'.calls DatabaseLeaderRegistry.object ks).past := by
  induction ks generalizing l l' with
  | nil => exact hpast
  | cons k ks ih =>
    obtain ⟨hnow, hlasts⟩ := hlasts
    obtain ⟨hanswer, hmatches⟩ : AnswersAlike E
          (LeaderRegistry.object l.now (k.inSeconds seconds)).1
          (DatabaseLeaderRegistry.object l'.now k).1 ∧
        Matches E (LeaderRegistry.object l.now (k.inSeconds seconds)).2
          (DatabaseLeaderRegistry.object l'.now k).2 :=
      h.call (hpos k (by simp)) hnow (hE k (by simp))
    refine ih hmatches ?_ (fun k' hk' => hpos k' (by simp [hk']))
      (fun k' hk' => hE k' (by simp [hk'])) hlasts
    rw [Log.call_past, Log.call_past]
    exact List.rel_append hpast (.cons ⟨rfl, hanswer⟩ .nil)

end Registries

section

variable [Times ℚ] {reg : LeaderRegistry} {rows : LeaderLeases ℚ} {ks : List (LeaderCall ℚ)}

omit [Times ℚ] in
/-- Rows with the times of the dict last alike. -/
theorem Matches.lastsAlike (h : Matches Eq reg rows) (accountId : String) (seconds : ℚ) :
    LastsAlike reg rows accountId seconds seconds := by
  have hlease := h.leases accountId
  unfold LastsAlike
  cases hreg : reg.leases.lookup accountId <;> cases hrow : rows.lookup accountId <;>
    rw [hreg, hrow] at hlease <;> cases hlease
  · rfl
  · rename_i halike
    simp [halike.expires]

theorem Matches.lastAlike (h : Matches Eq reg rows) (hpos : ∀ k ∈ ks, 0 < k.now) :
    LastAlike id reg rows ks := by
  induction ks generalizing reg rows with
  | nil => trivial
  | cons k ks ih =>
    have hlasts := h.lastsAlike k.op.account k.now
    exact ⟨hlasts, ih (h.call (hpos k (by simp)) hlasts fun _ => rfl).2
      fun k' hk' => hpos k' (by simp [hk'])⟩

/-- **The dict** answers as rows with its times would. -/
theorem past_registryLog (hpos : ∀ k ∈ ks, 0 < k.now) :
    (registryLog ks).past = (databaseLog ks).past := by
  have halike : List.Forall₂ (EntriesAlike Eq id)
      ((Log.start {}).calls LeaderRegistry.object (ks.map (·.inSeconds id))).past
      ((Log.start ∅).calls DatabaseLeaderRegistry.object ks).past :=
    answers_alike .empty .nil hpos (fun _ _ _ => rfl) (Matches.empty.lastAlike hpos)
  rw [show ks.map (·.inSeconds id) = ks from List.map_id ks] at halike
  have heq : ∀ e e', EntriesAlike Eq id e e' → e = e' := by
    rintro ⟨k, a⟩ ⟨k', a'⟩ ⟨hcall, hanswer⟩
    refine Prod.ext hcall ?_
    cases hanswer with
    | error e => rfl
    | lease accountId instanceId token expires expires' h => rw [h]
    | valid b => rfl
  rw [← List.forall₂_eq_eq_eq]
  exact halike.imp heq

end

section

attribute [local instance] floatTimes

/-- A lease, a refusal, the lease running out and taken over, and the old pair asked for. -/
def takenOver : List (LeaderCall ℤ) :=
  [⟨.acquire "a" "one" 10, 100000000, 0⟩, ⟨.acquire "a" "two" 10, 105000000, 0⟩,
    ⟨.heartbeat "a" "one" 1 10, 106000000, 0⟩, ⟨.acquire "a" "two" 10, 116000000, 0⟩,
    ⟨.validate "a" "one" 1, 116000000, 0⟩, ⟨.validate "a" "two" 2, 117000000, 0⟩]

example : (databaseLog takenOver).past.map (fun e => e.2.toOption) =
    [some (.lease ⟨"a", "one", 1, 110000000⟩), none, some (.lease ⟨"a", "one", 1, 116000000⟩),
      some (.lease ⟨"a", "two", 2, 126000000⟩), some (.valid false), some (.valid true)] := by
  decide +kernel

/-- A lease of 0.2 from 0.1 on, asked for at 0.3. -/
def tenthsLater : List (LeaderCall ℤ) :=
  [⟨.acquire "a" "one" (binary64 (1 / 5)), 100000, 0⟩, ⟨.validate "a" "one" 1, 300000, 0⟩]

/-- Two pairs valid at one time: a heartbeat for a tenth of a microsecond ends the first lease. -/
def cutShort : List (LeaderCall ℤ) :=
  [⟨.acquire "a" "one" 10, 100000000, 0⟩, ⟨.validate "a" "one" 1, 100000000, 0⟩,
    ⟨.heartbeat "a" "one" 1 (binary64 (1 / 10000000)), 100000000, 0⟩,
    ⟨.acquire "a" "two" 10, 100000000, 0⟩, ⟨.validate "a" "two" 2, 100000000, 0⟩]

theorem AnswersAlike.valid_iff {τ : Type} {E : ℚ → τ → Prop} {a : LeaderAnswer ℚ}
    {a' : LeaderAnswer τ} (h : AnswersAlike E a a') (b : Bool) :
    a = .ok (.valid b) ↔ a' = .ok (.valid b) := by
  cases h <;> simp

end

end Kripto.Execution
