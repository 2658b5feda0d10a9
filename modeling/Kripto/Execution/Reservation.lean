/-
# The two reservation ledgers

`CapitalReservations` (`execution/reservation.py`) keeps reservations in a dict under a lock, so
each of its methods is one step.  `DatabaseCapitalReservations` (`execution/persistent.py`) keeps
them in a table, and `reserve` is three steps of its own: it reads the row of the intent, reads
the sum of what is live, and commits.  It is a program over `reservationSig`; what several of
them do together is decided by the handler, and run alone it is the function that `play`
computes.

The dict adds `float`s, the table `datetime`s, and both compare a sum of `Decimal`s.  The session
does not expire objects on commit, so `reserve` returns the row as it set it; what the column made
of the amount shows in the table.
-/
import Kripto.Effect.Object
import Kripto.Effect.Play
import Kripto.Effect.Totals
import Kripto.Execution.Ledger
import Kripto.Python.Rounding

namespace Kripto.Execution

open Effect
open Python (DecimalContext Times)
open Python.DecimalContext (fix sum)

/-! ## 1. `CapitalReservations` -/

structure Reservation where
  intentId : String
  amount : ℚ
  expiresAt : ℚ
  asset : String := "USDT"
  accountId : String := "default"
  availableAtReservation : Option ℚ := none
  deriving DecidableEq

/-- The arguments of `reserve`, of either class. -/
structure ReserveArgs where
  intentId : String
  amount : ℚ
  available : ℚ
  asset : String := "USDT"
  accountId : String := "default"
  ttl : ℚ := 60
  deriving DecidableEq

/-- The reservation made at `now`. -/
def ReserveArgs.reservation [Times ℚ] (a : ReserveArgs) (now : ℚ) : Reservation :=
  ⟨a.intentId, a.amount, Times.later now a.ttl, a.asset, a.accountId, a.available⟩

namespace CapitalReservations

/-- `self.items`. -/
abbrev Items : Type := Table String Reservation

def pruneLocked (now : ℚ) (items : Items) : Items := items.select fun r => now < r.expiresAt

/-- The amounts of an asset, in the order in which they were reserved. -/
def amounts (asset : String) (items : Items) : List ℚ :=
  ((items.values.filter fun r => r.asset = asset).map (·.amount)).reverse

variable [DecimalContext]

def totalReserved (asset : String) (items : Items) : ℚ := sum (amounts asset items)

def reserve [Times ℚ] (a : ReserveArgs) (now : ℚ) (items : Items) :
    Except Exc Reservation × Items :=
  if a.amount ≤ 0 then (.error (.valueError "reservation amount must be positive"), items)
  else if a.available < 0 then
    (.error (.valueError "available capital cannot be negative"), items)
  else
    let items := pruneLocked now items
    match items.lookup a.intentId with
    | some r => (.ok r, items)
    | none =>
      let used := totalReserved a.asset items
      if a.available < fix (used + a.amount) then
        (.error (.valueError "insufficient unreserved capital"), items)
      else
        let r := a.reservation now
        (.ok r, items.insert a.intentId r)

def release (intentId : String) (items : Items) : Option Reservation × Items :=
  (items.lookup intentId, items.erase intentId)

/-- `validate_live_balance`; `balances` is the dict `get_balance` returned. -/
def validateLiveBalance (intentId : String) (balances : List (String × ℚ)) (items : Items) :
    Except Exc Unit :=
  match items.lookup intentId with
  | none => .error (.permissionError "missing capital reservation")
  | some reservation =>
    let current := (balances.lookup reservation.asset).getD 0
    let reserved := totalReserved reservation.asset items
    if current < reserved then
      .error (.permissionError "shared balance changed; reserved capital no longer covered")
    else .ok ()

end CapitalReservations

namespace CapitalReservations

variable {a : ReserveArgs} {now : ℚ} {items : Items}

/-- The reservation of an intent, if it has not expired. -/
def live (items : Items) (intentId : String) (now : ℚ) : Option Reservation :=
  (items.lookup intentId).filter fun r => now < r.expiresAt

theorem lookup_pruneLocked (now : ℚ) (items : Items) (intentId : String) :
    (pruneLocked now items).lookup intentId = live items intentId now :=
  Table.lookup_select _ _ _

/-- **`reserve`**: it refuses its arguments, or finds a live reservation, or finds too little
capital, or adds a reservation. -/
theorem reserve_cases [DecimalContext] [Times ℚ] (a : ReserveArgs) (now : ℚ) (items : Items) :
    ((a.amount ≤ 0 ∨ a.available < 0) ∧ ∃ e, reserve a now items = (.error e, items)) ∨
    (0 < a.amount ∧ 0 ≤ a.available ∧
      ((∃ r, live items a.intentId now = some r ∧
        reserve a now items = (.ok r, pruneLocked now items)) ∨
      (live items a.intentId now = none ∧
        a.available < fix (totalReserved a.asset (pruneLocked now items) + a.amount) ∧
        ∃ e, reserve a now items = (.error e, pruneLocked now items)) ∨
      (live items a.intentId now = none ∧
        fix (totalReserved a.asset (pruneLocked now items) + a.amount) ≤ a.available ∧
        reserve a now items = (.ok (a.reservation now),
          (pruneLocked now items).insert a.intentId (a.reservation now))))) := by
  by_cases hamount : a.amount ≤ 0
  · left
    simp [reserve, hamount]
  by_cases havailable : a.available < 0
  · left
    simp [reserve, hamount, havailable]
  right
  refine ⟨not_le.mp hamount, not_lt.mp havailable, ?_⟩
  cases hlive : live items a.intentId now with
  | some r =>
    left
    exact ⟨r, rfl, by simp [reserve, hamount, havailable, lookup_pruneLocked, hlive]⟩
  | none =>
    right
    rcases lt_or_ge a.available (fix (totalReserved a.asset (pruneLocked now items) + a.amount))
      with hshort | hfits
    · left
      simp [reserve, hamount, havailable, lookup_pruneLocked, hlive, hshort]
    · right
      simp [reserve, hamount, havailable, lookup_pruneLocked, hlive, hfits, not_lt.mpr hfits,
        ReserveArgs.reservation]

end CapitalReservations

/-! ## 2. The table `capital_reservations` -/

structure CapitalReservationRow where
  intentId : String
  exchangeAccountId : String
  amount : ℚ
  asset : String
  expiresAt : ℤ
  releasedAt : Option ℤ := none
  deriving DecidableEq

/-- Neither released nor expired. -/
def CapitalReservationRow.Live (row : CapitalReservationRow) (now : ℤ) : Prop :=
  row.releasedAt = none ∧ now < row.expiresAt

instance CapitalReservationRow.decidableLive (row : CapitalReservationRow) (now : ℤ) :
    Decidable (row.Live now) :=
  inferInstanceAs (Decidable (_ ∧ _))

/-- The table, and the clock its clients read. -/
structure ReservationDb where
  rows : Table String CapitalReservationRow
  clock : ℤ

/-- The rows the sum of `reserve` runs over. -/
def CapitalReservationRow.Counts (row : CapitalReservationRow) (account asset : String)
    (now : ℤ) : Prop :=
  row.exchangeAccountId = account ∧ row.asset = asset ∧ row.Live now

instance CapitalReservationRow.decidableCounts (row : CapitalReservationRow)
    (account asset : String) (now : ℤ) : Decidable (row.Counts account asset now) :=
  inferInstanceAs (Decidable (_ ∧ _ ∧ _))

/-- `select coalesce(sum(amount), 0) where ...`. -/
def ReservationDb.sumLive (d : ReservationDb) (account asset : String) (now : ℤ) : ℚ :=
  Table.sumWhere (fun row => row.Counts account asset now) (·.amount) d.rows

def ReservationDb.put (d : ReservationDb) (intentId : String) (row : CapitalReservationRow) :
    ReservationDb :=
  { d with rows := d.rows.insert intentId row }

variable [NumericColumn]

open NumericColumn

/-- The row as the database holds it. -/
def CapitalReservationRow.stored (row : CapitalReservationRow) : CapitalReservationRow :=
  { row with amount := numeric row.amount }

/-- The row `current` after the `UPDATE` of a call that loaded it as `existing`.  Only the
columns in which the object changed are written. -/
def CapitalReservationRow.updated (current existing : CapitalReservationRow) (a : ReserveArgs)
    (expires : ℤ) : CapitalReservationRow :=
  { current with
    amount := if a.amount = existing.amount then current.amount else numeric a.amount
    asset := if a.asset = existing.asset then current.asset else a.asset
    expiresAt := if expires = existing.expiresAt then current.expiresAt else expires
    releasedAt := if existing.releasedAt = none then current.releasedAt else none }

/-! ## 3. The operations -/

/-- The statements.  The two commits of `reserve` also name the sum the call has read; the
database sees the row only. -/
inductive ReservationOp
  | utcnow
  | get (intentId : String)
  | sumLive (account asset : String) (now : ℤ)
  | insert (row : CapitalReservationRow) (used : ℚ)
  | update (existing : CapitalReservationRow) (a : ReserveArgs) (expires : ℤ) (used : ℚ)
  | setReleased (intentId : String) (at_ : ℤ)

abbrev ReservationOp.Val : ReservationOp → Type
  | utcnow => ℤ
  | get _ => Option CapitalReservationRow
  | sumLive .. => ℚ
  | _ => Unit

abbrev reservationSig : Sig := ⟨ReservationOp, ReservationOp.Val, Exc⟩

/-- `s.get`, `s.scalar`, `s.commit`. -/
def execute (o : ReservationOp) : Prog reservationSig o.Val := @Prog.perform reservationSig o

/-- **The semantics of the statements**, read committed: each sees what is committed when it
runs.  Any of them may fail with an error of the database and change nothing. -/
def ReservationDb.handler : Handler reservationSig ReservationDb
  | .utcnow, d, r, d' => r = .ok d.clock ∧ d' = d
  | .get intentId, d, r, d' =>
      (r = .ok (d.rows.lookup intentId) ∨ r = .error .databaseError) ∧ d' = d
  | .sumLive account asset now, d, r, d' =>
      (r = .ok (d.sumLive account asset now) ∨ r = .error .databaseError) ∧ d' = d
  | .insert row _, d, r, d' =>
      (d.rows.lookup row.intentId = none ∧ r = .ok () ∧ d' = d.put row.intentId row.stored) ∨
        ((r = .error .integrityError ∨ r = .error .databaseError) ∧ d' = d)
  | .update existing a expires _, d, r, d' =>
      (∃ current, d.rows.lookup a.intentId = some current ∧ r = .ok () ∧
        d' = d.put a.intentId (current.updated existing a expires)) ∨
        (r = .error .databaseError ∧ d' = d)
  | .setReleased intentId at_, d, r, d' =>
      (∃ current, d.rows.lookup intentId = some current ∧ r = .ok () ∧
        d' = d.put intentId { current with releasedAt := some at_ }) ∨
        (r = .error .databaseError ∧ d' = d)

/-- The database that never fails. -/
def ReservationDb.serve : Script reservationSig ReservationDb
  | .utcnow, d => (.ok d.clock, d)
  | .get intentId, d => (.ok (d.rows.lookup intentId), d)
  | .sumLive account asset now, d => (.ok (d.sumLive account asset now), d)
  | .insert row _, d =>
      if d.rows.lookup row.intentId = none then (.ok (), d.put row.intentId row.stored)
      else (.error .integrityError, d)
  | .update existing a expires _, d =>
      match d.rows.lookup a.intentId with
      | some current => (.ok (), d.put a.intentId (current.updated existing a expires))
      | none => (.error .databaseError, d)
  | .setReleased intentId at_, d =>
      match d.rows.lookup intentId with
      | some current => (.ok (), d.put intentId { current with releasedAt := some at_ })
      | none => (.error .databaseError, d)

theorem ReservationDb.serve_picks : ReservationDb.serve.Picks ReservationDb.handler := by
  intro o d
  cases o with
  | utcnow => exact ⟨rfl, rfl⟩
  | get intentId => exact ⟨Or.inl rfl, rfl⟩
  | sumLive account asset now => exact ⟨Or.inl rfl, rfl⟩
  | insert row used =>
    simp only [serve, handler]
    by_cases h : d.rows.lookup row.intentId = none
    · rw [if_pos h]
      exact Or.inl ⟨h, rfl, rfl⟩
    · rw [if_neg h]
      exact Or.inr ⟨Or.inl rfl, rfl⟩
  | update existing a expires used =>
    simp only [serve, handler]
    cases h : d.rows.lookup a.intentId with
    | some current => exact Or.inl ⟨current, rfl, rfl, rfl⟩
    | none => exact Or.inr ⟨rfl, rfl⟩
  | setReleased intentId at_ =>
    simp only [serve, handler]
    cases h : d.rows.lookup intentId with
    | some current => exact Or.inl ⟨current, rfl, rfl, rfl⟩
    | none => exact Or.inr ⟨rfl, rfl⟩

/-! ## 4. `DatabaseCapitalReservations` -/

namespace DatabaseCapitalReservations

omit [NumericColumn]

/-- `now or datetime.now(timezone.utc)`. -/
def clock : Option ℤ → Prog reservationSig ℤ
  | some now => pure now
  | none => execute .utcnow

/-- The second half of `reserve`, for an intent without a live reservation. -/
def secure [DecimalContext] (a : ReserveArgs) (now : ℤ) (existing : Option CapitalReservationRow) :
    Prog reservationSig CapitalReservationRow := do
  let expires := Times.later now a.ttl
  let used ← execute (.sumLive a.accountId a.asset now)
  if a.available < fix (used + a.amount) then .raise (.valueError "insufficient unreserved capital")
  else match existing with
    | none => do
      let row : CapitalReservationRow :=
        ⟨a.intentId, a.accountId, a.amount, a.asset, expires, none⟩
      execute (.insert row used)
      return row
    | some existing => do
      execute (.update existing a expires used)
      return { existing with
        amount := a.amount, asset := a.asset, expiresAt := expires, releasedAt := none }

def reserve [DecimalContext] (a : ReserveArgs) (now : Option ℤ) :
    Prog reservationSig CapitalReservationRow := do
  let now ← clock now
  let existing ← execute (.get a.intentId)
  match existing with
  | some row => if row.Live now then return row else secure a now existing
  | none => secure a now existing

def release (intentId : String) : Prog reservationSig Unit := do
  let row ← execute (.get intentId)
  match row with
  | some _ => do
    let at_ ← execute .utcnow
    execute (.setReleased intentId at_)
  | none => pure ()

end DatabaseCapitalReservations

/-! ## 5. What a call does when it runs alone -/

/-- The row under an intent, if it is live. -/
def ReservationDb.liveRow (d : ReservationDb) (intentId : String) (now : ℤ) :
    Option CapitalReservationRow :=
  (d.rows.lookup intentId).filter fun row => row.Live now

/-- The row a successful `reserve` leaves for an intent that has no live one. -/
def ReserveArgs.secured (a : ReserveArgs) (now : ℤ) :
    Option CapitalReservationRow → CapitalReservationRow
  | none => .stored ⟨a.intentId, a.accountId, a.amount, a.asset, Times.later now a.ttl, none⟩
  | some row => row.updated row a (Times.later now a.ttl)

section Alone

omit [NumericColumn] in
theorem play_execute (f : Script reservationSig ReservationDb) (o : ReservationOp)
    (d : ReservationDb) : (execute o).play f d = f o d :=
  @play_perform reservationSig ReservationDb f o d

variable [DecimalContext] {d : ReservationDb} {a : ReserveArgs} {now : ℤ}

/-- The second half, with too little capital. -/
theorem play_secure_short {existing : Option CapitalReservationRow}
    (h : a.available < fix (d.sumLive a.accountId a.asset now + a.amount)) :
    (DatabaseCapitalReservations.secure a now existing).play ReservationDb.serve d
      = (.error (.valueError "insufficient unreserved capital"), d) := by
  rw [DatabaseCapitalReservations.secure, play_bind, play_execute]
  simp [ReservationDb.serve, h]

/-- The second half, with enough. -/
theorem play_secure_fits
    (h : fix (d.sumLive a.accountId a.asset now + a.amount) ≤ a.available) :
    ∃ row, (DatabaseCapitalReservations.secure a now (d.rows.lookup a.intentId)).play
      ReservationDb.serve d =
        (.ok row, d.put a.intentId (a.secured now (d.rows.lookup a.intentId))) := by
  rw [DatabaseCapitalReservations.secure, play_bind, play_execute]
  simp only [ReservationDb.serve, not_lt.mpr h, if_false]
  cases hrow : d.rows.lookup a.intentId with
  | none =>
    simp only
    rw [play_bind, play_execute]
    simp [ReservationDb.serve, hrow, ReserveArgs.secured]
  | some row =>
    simp only
    rw [play_bind, play_execute]
    simp [ReservationDb.serve, hrow, ReserveArgs.secured]

/-- **`reserve`, run alone**: it finds a live row, or finds too little capital, or secures the
reservation.  Without a time of its own it goes by the clock. -/
theorem play_reserve (a : ReserveArgs) (now : Option ℤ) (d : ReservationDb) :
    (∃ row, d.liveRow a.intentId (now.getD d.clock) = some row ∧
      (DatabaseCapitalReservations.reserve a now).play ReservationDb.serve d = (.ok row, d)) ∨
    (d.liveRow a.intentId (now.getD d.clock) = none ∧
      a.available < fix (d.sumLive a.accountId a.asset (now.getD d.clock) + a.amount) ∧
      (DatabaseCapitalReservations.reserve a now).play ReservationDb.serve d
        = (.error (.valueError "insufficient unreserved capital"), d)) ∨
    (d.liveRow a.intentId (now.getD d.clock) = none ∧
      fix (d.sumLive a.accountId a.asset (now.getD d.clock) + a.amount) ≤ a.available ∧
      ∃ row, (DatabaseCapitalReservations.reserve a now).play ReservationDb.serve d =
        (.ok row, d.put a.intentId
          (a.secured (now.getD d.clock) (d.rows.lookup a.intentId)))) := by
  have hclock : (DatabaseCapitalReservations.clock now).play ReservationDb.serve d
      = (.ok (now.getD d.clock), d) := by
    cases now with
    | none => exact play_execute _ _ _
    | some now => rfl
  have hplay : (DatabaseCapitalReservations.reserve a now).play ReservationDb.serve d =
      match d.liveRow a.intentId (now.getD d.clock) with
      | some row => (.ok row, d)
      | none => (DatabaseCapitalReservations.secure a (now.getD d.clock)
          (d.rows.lookup a.intentId)).play ReservationDb.serve d := by
    rw [DatabaseCapitalReservations.reserve, play_bind, hclock]
    simp only
    rw [play_bind, play_execute]
    simp only [ReservationDb.serve, ReservationDb.liveRow]
    cases d.rows.lookup a.intentId with
    | none => rfl
    | some row => by_cases hlive : row.Live (now.getD d.clock) <;> simp [Option.filter, hlive]
  rw [hplay]
  generalize now.getD d.clock = now
  cases hlive : d.liveRow a.intentId now with
  | some row => exact Or.inl ⟨row, rfl, rfl⟩
  | none =>
    right
    rcases lt_or_ge a.available (fix (d.sumLive a.accountId a.asset now + a.amount)) with
      hshort | hfits
    · exact Or.inl ⟨rfl, hshort, play_secure_short hshort⟩
    · exact Or.inr ⟨rfl, hfits, play_secure_fits hfits⟩

omit [DecimalContext] in
/-- **`release`, run alone**, marks the row if there is one. -/
theorem play_release {intentId : String} :
    (DatabaseCapitalReservations.release intentId).play ReservationDb.serve d =
      match d.rows.lookup intentId with
      | some row => (.ok (), d.put intentId { row with releasedAt := some d.clock })
      | none => (.ok (), d) := by
  rw [DatabaseCapitalReservations.release, play_bind, play_execute]
  simp only [ReservationDb.serve]
  cases hrow : d.rows.lookup intentId with
  | none => rfl
  | some row =>
    simp only
    rw [play_bind, play_execute]
    simp only [ReservationDb.serve]
    rw [play_execute]
    simp [ReservationDb.serve, hrow]

end Alone

end Kripto.Execution
