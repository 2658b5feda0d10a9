/-
# The two reservation ledgers on the same calls

`CapitalReservations` and `DatabaseCapitalReservations` are given the same sequence of `reserve`
and `release` calls, one after the other, each at a time that the dict is told in seconds.  As
long as the dict mirrors the table (each reservation it holds is an unreleased row), has dropped
nothing that still counts as live, and its reservations have run out when their rows have, they
hold the same reservations (`Mirrors.held_eq`); what a call must meet for both to stay so and to
answer alike is `Alike`.
-/
import Kripto.Execution.ReservationMeaning

namespace Kripto.Execution

open Effect
open Python (DecimalContext Times)
open Python.DecimalContext (fix)

/-! ## 1. Calls -/

inductive ReservationCall
  | reserve (a : ReserveArgs)
  | release (intentId : String)
  deriving DecidableEq

/-- A call, and the time at which it is made, for the table and for the dict. -/
structure TimedCall where
  call : ReservationCall
  now : ℤ
  seconds : ℚ
  deriving DecidableEq

section Objects

variable [DecimalContext]

/-- The dict answers whether it accepts the call. -/
def CapitalReservations.object [Times ℚ] : Object CapitalReservations.Items TimedCall Bool
  | items, ⟨.reserve a, _, seconds⟩ =>
      ((CapitalReservations.reserve a seconds items).1.isOk,
        (CapitalReservations.reserve a seconds items).2)
  | items, ⟨.release intentId, _, _⟩ => (true, (CapitalReservations.release intentId items).2)

variable [NumericColumn]

/-- So does the table, whose clock shows the time of the call. -/
def DatabaseCapitalReservations.object : Object ReservationDb TimedCall Bool
  | d, ⟨.reserve a, now, _⟩ =>
      let out := (DatabaseCapitalReservations.reserve a none).play ReservationDb.serve
        { d with clock := now }
      (out.1.isOk, out.2)
  | d, ⟨.release intentId, now, _⟩ =>
      let out := (DatabaseCapitalReservations.release intentId).play ReservationDb.serve
        { d with clock := now }
      (out.1.isOk, out.2)

/-- The two ledgers. -/
abbrev Ledgers : Type := CapitalReservations.Items × ReservationDb

/-- Both get each call. -/
def bothLedgers [Times ℚ] : Object Ledgers TimedCall (Bool × Bool) :=
  Object.both CapitalReservations.object DatabaseCapitalReservations.object

end Objects

/-! ## 2. What they hold -/

/-- Account, asset and amount of a live reservation. -/
def CapitalReservations.held (items : CapitalReservations.Items) (intentId : String) (t : ℚ) :
    Option (String × String × ℚ) :=
  (CapitalReservations.live items intentId t).map fun r => (r.accountId, r.asset, r.amount)

def ReservationDb.held (d : ReservationDb) (intentId : String) (t : ℤ) :
    Option (String × String × ℚ) :=
  (d.liveRow intentId t).map fun row => (row.exchangeAccountId, row.asset, row.amount)

/-- The row holds the reservation. -/
def CapitalReservationRow.Holds (row : CapitalReservationRow) (r : Reservation) : Prop :=
  row.releasedAt = none ∧ row.exchangeAccountId = r.accountId ∧ row.asset = r.asset ∧
    row.amount = r.amount

/-- **The dict mirrors the table.** -/
def Mirrors (s : Ledgers) : Prop :=
  ∀ intentId r, s.1.lookup intentId = some r → ∃ row, s.2.rows.lookup intentId = some row ∧
    row.Holds r

/-- Of the rows that satisfy `p`, those the dict has dropped are not live. -/
def Kept (p : String → Prop) (s : Ledgers) (now : ℤ) : Prop :=
  ∀ intentId ∈ s.2.rows.keys, p intentId → intentId ∈ s.1 ∨ s.2.liveRow intentId now = none

/-- Of what satisfies `p`, the reservations of the dict have run out when their rows have. -/
def RunOutAlike (p : String → Prop) (s : Ledgers) (seconds : ℚ) (t : ℤ) : Prop :=
  ∀ intentId ∈ s.1.keys, p intentId → (s.1.lookup intentId).any (fun r => seconds < r.expiresAt) =
    (s.2.rows.lookup intentId).any fun row => t < row.expiresAt

section Views

variable {s : Ledgers} {seconds : ℚ} {now t : ℤ} {intentId : String}

theorem RunOutAlike.live_iff {row : CapitalReservationRow} {r : Reservation}
    (h : RunOutAlike (fun _ => True) s seconds t) (hr : s.1.lookup intentId = some r)
    (hrow : s.2.rows.lookup intentId = some row) (hholds : row.Holds r) :
    row.Live t ↔ seconds < r.expiresAt := by
  have hmem : intentId ∈ s.1.keys := AList.mem_keys.mp (AList.lookup_isSome.mp (by simp [hr]))
  have hends := h intentId hmem trivial
  rw [hr, hrow] at hends
  simp only [Option.any_some, decide_eq_decide] at hends
  simp [CapitalReservationRow.Live, hholds.1, hends]

/-- What the dict has dropped is not live later either. -/
theorem Kept.liveRow_eq_none (h : Kept (fun _ => True) s now) (ht : now ≤ t)
    (hdict : s.1.lookup intentId = none) : s.2.liveRow intentId t = none := by
  cases hrow : s.2.rows.lookup intentId with
  | none => simp [ReservationDb.liveRow, hrow]
  | some row =>
    have hmem : intentId ∈ s.2.rows.keys :=
      AList.mem_keys.mp (AList.lookup_isSome.mp (by simp [hrow]))
    rcases h intentId hmem trivial with hin | hnone
    · exact absurd hdict (by simp [AList.lookup_eq_none, hin])
    · have hdead : ¬row.Live now := by
        simpa [ReservationDb.liveRow, hrow, Option.filter] using hnone
      have hdead' : ¬row.Live t := by
        intro hlive
        exact hdead ⟨hlive.1, by have := hlive.2; omega⟩
      simp [ReservationDb.liveRow, hrow, Option.filter, hdead']

/-- **The ledgers hold the same**, now and later. -/
theorem Mirrors.held_eq (h : Mirrors s) (hkept : Kept (fun _ => True) s now) (ht : now ≤ t)
    (hends : RunOutAlike (fun _ => True) s seconds t) (intentId : String) :
    CapitalReservations.held s.1 intentId seconds = s.2.held intentId t := by
  rw [CapitalReservations.held, CapitalReservations.live, ReservationDb.held]
  cases hdict : s.1.lookup intentId with
  | none => simp [hkept.liveRow_eq_none ht hdict]
  | some r =>
    obtain ⟨row, hrow, hholds⟩ := h intentId r hdict
    have hlive := hends.live_iff hdict hrow hholds
    obtain ⟨-, haccount, hasset, hamount⟩ := hholds
    by_cases hexpired : seconds < r.expiresAt
    · simp [ReservationDb.liveRow, hrow, Option.filter, hlive, hexpired, haccount, hasset, hamount]
    · simp [ReservationDb.liveRow, hrow, Option.filter, hlive, hexpired]

/-- So their sums for an account and asset agree. -/
theorem Mirrors.sumLive_eq (h : Mirrors s) (hkept : Kept (fun _ => True) s now)
    (hends : RunOutAlike (fun _ => True) s seconds now) (account asset : String) :
    s.2.sumLive account asset now = CapitalReservations.liveSum s.1 account asset seconds := by
  refine Table.sumWhere_congr fun intentId => ?_
  cases hdict : s.1.lookup intentId with
  | none =>
    have hnone := hkept.liveRow_eq_none le_rfl hdict
    cases hrow : s.2.rows.lookup intentId with
    | none => rfl
    | some row =>
      have hdead : ¬row.Live now := by
        simpa [ReservationDb.liveRow, hrow, Option.filter] using hnone
      simp [Option.filter, CapitalReservationRow.Counts, hdead]
  | some r =>
    obtain ⟨row, hrow, hholds⟩ := h intentId r hdict
    have hlive := hends.live_iff hdict hrow hholds
    obtain ⟨-, haccount, hasset, hamount⟩ := hholds
    simp [hrow, Option.filter, CapitalReservationRow.Counts, hlive, haccount, hasset]
    split_ifs <;> simp [hamount]

/-- The intent is live in both or in neither. -/
theorem Mirrors.live_none_iff (h : Mirrors s) (hkept : Kept (fun _ => True) s now)
    (hends : RunOutAlike (fun _ => True) s seconds now) (intentId : String) :
    CapitalReservations.live s.1 intentId seconds = none ↔ s.2.liveRow intentId now = none := by
  have hheld := h.held_eq hkept le_rfl hends intentId
  rw [CapitalReservations.held, ReservationDb.held] at hheld
  constructor
  · intro hnone
    simpa [hnone, eq_comm] using hheld
  · intro hnone
    simpa [hnone] using hheld

theorem Mirrors.prune (h : Mirrors s) (seconds : ℚ) (clock : ℤ) :
    Mirrors (CapitalReservations.pruneLocked seconds s.1, { s.2 with clock := clock }) := by
  intro intentId r hr
  rw [CapitalReservations.lookup_pruneLocked, CapitalReservations.live,
    Option.filter_eq_some_iff] at hr
  exact h intentId r hr.1

/-- The dict may drop what is not live. -/
theorem Kept.prune (h : Kept (fun _ => True) s now) (hm : Mirrors s)
    (hends : RunOutAlike (fun _ => True) s seconds now) (clock : ℤ) :
    Kept (fun _ => True) (CapitalReservations.pruneLocked seconds s.1, { s.2 with clock := clock })
      now := by
  intro intentId hmem _
  rcases h intentId hmem trivial with hin | hnone
  · obtain ⟨r, hr⟩ := Option.isSome_iff_exists.mp (AList.lookup_isSome.mpr hin)
    by_cases hexpired : seconds < r.expiresAt
    · left
      rw [← AList.lookup_isSome, CapitalReservations.lookup_pruneLocked]
      simp [CapitalReservations.live, hr, Option.filter, hexpired]
    · right
      obtain ⟨row, hrow, hholds⟩ := hm intentId r hr
      simp [ReservationDb.liveRow, hrow, Option.filter, hends.live_iff hr hrow hholds, hexpired]
  · exact Or.inr hnone

theorem RunOutAlike.prune (h : RunOutAlike (fun _ => True) s seconds now) (clock : ℤ) :
    RunOutAlike (fun _ => True)
      (CapitalReservations.pruneLocked seconds s.1, { s.2 with clock := clock }) seconds now := by
  intro intentId hmem _
  obtain ⟨r, hr⟩ := Option.isSome_iff_exists.mp (AList.lookup_isSome.mpr (AList.mem_keys.mpr hmem))
  rw [CapitalReservations.lookup_pruneLocked, CapitalReservations.live,
    Option.filter_eq_some_iff] at hr
  have hin : intentId ∈ s.1.keys := AList.mem_keys.mp (AList.lookup_isSome.mp (by simp [hr.1]))
  rw [← h intentId hin trivial, CapitalReservations.lookup_pruneLocked, CapitalReservations.live,
    hr.1, Option.filter_some, if_pos hr.2]

/-- **A reservation made by both** is mirrored, and nothing is dropped by it. -/
theorem Mirrors.made {row : CapitalReservationRow} {r : Reservation} (h : Mirrors s)
    (hholds : row.Holds r) (intentId : String) :
    Mirrors (s.1.insert intentId r, s.2.put intentId row) := by
  intro other r' hr'
  by_cases hid : other = intentId
  · subst hid
    rw [AList.lookup_insert] at hr'
    cases hr'
    exact ⟨row, AList.lookup_insert _, hholds⟩
  · rw [AList.lookup_insert_ne hid] at hr'
    obtain ⟨row', hrow', hholds'⟩ := h other r' hr'
    exact ⟨row', by rw [ReservationDb.put, AList.lookup_insert_ne hid, hrow'], hholds'⟩

theorem RunOutAlike.made {row : CapitalReservationRow} {r : Reservation}
    (h : RunOutAlike (fun _ => True) s seconds now)
    (hlasts : seconds < r.expiresAt ↔ now < row.expiresAt) (intentId : String) :
    RunOutAlike (fun _ => True) (s.1.insert intentId r, s.2.put intentId row) seconds now := by
  intro other hmem _
  by_cases hid : other = intentId
  · subst hid
    simp [ReservationDb.put, hlasts]
  · have hin : other ∈ s.1.keys := by
      rw [← AList.mem_keys] at hmem ⊢
      simpa [hid] using hmem
    simpa [ReservationDb.put, hid] using h other hin trivial

theorem Kept.made {row : CapitalReservationRow} {r : Reservation}
    (h : Kept (fun _ => True) s now) (intentId : String) :
    Kept (fun _ => True) (s.1.insert intentId r, s.2.put intentId row) now := by
  intro other hmem _
  by_cases hid : other = intentId
  · left
    simp [hid]
  · have hmem' : other ∈ s.2.rows.keys := by
      rw [← AList.mem_keys] at hmem ⊢
      simpa [ReservationDb.put, hid] using hmem
    rcases h other hmem' trivial with hin | hnone
    · left
      simp [hin]
    · right
      simpa [ReservationDb.put, ReservationDb.liveRow, AList.lookup_insert_ne hid] using hnone

theorem Mirrors.release (h : Mirrors s) (intentId : String) (row : CapitalReservationRow) :
    Mirrors (s.1.erase intentId, s.2.put intentId row) := by
  intro other r hr
  by_cases hid : other = intentId
  · subst hid
    simp at hr
  · rw [AList.lookup_erase_ne hid] at hr
    obtain ⟨row', hrow', hholds⟩ := h other r hr
    exact ⟨row', by rw [ReservationDb.put, AList.lookup_insert_ne hid, hrow'], hholds⟩

theorem Kept.release {row : CapitalReservationRow} (h : Kept (· ≠ intentId) s now)
    (hreleased : row.releasedAt ≠ none) :
    Kept (fun _ => True) (s.1.erase intentId, s.2.put intentId row) now := by
  intro other hmem _
  by_cases hid : other = intentId
  · right
    subst hid
    simp [ReservationDb.put, ReservationDb.liveRow, Option.filter, CapitalReservationRow.Live,
      hreleased]
  · have hmem' : other ∈ s.2.rows.keys := by
      rw [← AList.mem_keys] at hmem ⊢
      simpa [ReservationDb.put, hid] using hmem
    rcases h other hmem' hid with hin | hnone
    · left
      simp [hin, hid]
    · right
      simpa [ReservationDb.put, ReservationDb.liveRow, AList.lookup_insert_ne hid] using hnone

theorem RunOutAlike.release (h : RunOutAlike (· ≠ intentId) s seconds now)
    (row : CapitalReservationRow) :
    RunOutAlike (fun _ => True) (s.1.erase intentId, s.2.put intentId row) seconds now := by
  intro other hmem _
  rw [← AList.mem_keys, AList.mem_erase] at hmem
  have hends := h other (AList.mem_keys.mp hmem.2) hmem.1
  simpa [ReservationDb.put, AList.lookup_erase_ne hmem.1, AList.lookup_insert_ne hmem.1] using hends

end Views

/-! ## 3. Calls both answer alike -/

section Calls

variable [NumericColumn] [DecimalContext]

open NumericColumn

/-- What the table compares with the capital: what is live of the account, and the amount. -/
def ownSum (d : ReservationDb) (a : ReserveArgs) (now : ℤ) : ℚ :=
  fix (d.sumLive a.accountId a.asset now + a.amount)

/-- What the dict compares with it: what it holds of all accounts, and the amount. -/
def sumOfAll (items : CapitalReservations.Items) (a : ReserveArgs) (seconds : ℚ) : ℚ :=
  fix (CapitalReservations.totalReserved a.asset (CapitalReservations.pruneLocked seconds items)
    + a.amount)

/-- The reservation fits neither beside those of its account nor into the dict. -/
def ShortOfBoth (s : Ledgers) (a : ReserveArgs) (now : ℤ) (seconds : ℚ) : Prop :=
  a.available < ownSum s.2 a now ∧
    (a.amount ≤ 0 ∨ a.available < 0 ∨ a.available < sumOfAll s.1 a seconds)

variable [Times ℚ]

/-- It fits beside those of all accounts, its amount gets through the column, an old row of the
intent is of the same account, and it is not over at once in one of the ledgers only. -/
def FitsAll (s : Ledgers) (a : ReserveArgs) (now : ℤ) (seconds : ℚ) : Prop :=
  (0 < a.amount ∧ 0 ≤ a.available ∧ ownSum s.2 a now ≤ a.available ∧
    sumOfAll s.1 a seconds ≤ a.available) ∧
  (numeric a.amount = a.amount ∨ ∃ row ∈ s.2.rows.lookup a.intentId, row.amount = a.amount) ∧
  (∀ row ∈ s.2.rows.lookup a.intentId, row.exchangeAccountId = a.accountId) ∧
  (seconds < Times.later seconds a.ttl ↔ now < Times.later now a.ttl)

/-- The intents a call leaves as they are. -/
def ReservationCall.Spares : ReservationCall → String → Prop
  | .reserve _, _ => True
  | .release intentId, other => other ≠ intentId

instance ReservationCall.decidableSpares :
    ∀ (c : ReservationCall) (other : String), Decidable (c.Spares other)
  | .reserve _, _ => isTrue trivial
  | .release intentId, other => inferInstanceAs (Decidable (other ≠ intentId))

/-- **When the two ledgers answer a call alike.** -/
def Alike (s : Ledgers) (k : TimedCall) : Prop :=
  (Kept k.call.Spares s k.now ∧ RunOutAlike k.call.Spares s k.seconds k.now) ∧
    match k.call with
    | .reserve a =>
        if s.2.liveRow a.intentId k.now = none then
          ShortOfBoth s a k.now k.seconds ∨ FitsAll s a k.now k.seconds
        else 0 < a.amount ∧ 0 ≤ a.available
    | .release _ => True

instance Alike.decidable (s : Ledgers) (k : TimedCall) : Decidable (Alike s k) :=
  match k with
  | ⟨.reserve a, now, _⟩ => inferInstanceAs (Decidable (((∀ intentId ∈ s.2.rows.keys, _ → _) ∧
      ∀ intentId ∈ s.1.keys, _ → _) ∧
      if s.2.liveRow a.intentId now = none then (_ < _ ∧ (_ ∨ _ ∨ _ < _)) ∨
        ((_ ∧ _ ∧ _ ≤ _ ∧ _ ≤ _) ∧ (_ ∨ ∃ row ∈ s.2.rows.lookup a.intentId, _) ∧
          (∀ row ∈ s.2.rows.lookup a.intentId, _) ∧ (_ ↔ _))
      else _ ∧ _))
  | ⟨.release _, _, _⟩ => inferInstanceAs (Decidable (((∀ intentId ∈ s.2.rows.keys, _ → _) ∧
      ∀ intentId ∈ s.1.keys, _ → _) ∧ True))

/-- What a call must leave. -/
structure Agree (s : Ledgers) (k : TimedCall) (answers : Bool × Bool) (s' : Ledgers) : Prop where
  mirrors : Mirrors s'
  kept : Kept (fun _ => True) s' k.now
  ends : RunOutAlike (fun _ => True) s' k.seconds k.now
  answers_eq : answers.1 = answers.2
  own : ∀ a, k.call = .reserve a → answers.1 = false →
    a.available < fix (CapitalReservations.liveSum s.1 a.accountId a.asset k.seconds + a.amount)

variable {s : Ledgers} {now : ℤ} {seconds : ℚ} {a : ReserveArgs} {intentId : String}

/-- The row `reserve` leaves holds the reservation of the dict. -/
theorem FitsAll.holds (h : FitsAll s a now seconds) :
    (a.secured now (s.2.rows.lookup a.intentId)).Holds (a.reservation seconds) := by
  have hamount := (DatabaseCapitalReservations.secured_amount now _).mpr h.2.1
  have haccount := (DatabaseCapitalReservations.secured_account now _).mpr h.2.2.1
  have hasset : (a.secured now (s.2.rows.lookup a.intentId)).asset = a.asset :=
    DatabaseCapitalReservations.secured_asset _
  refine ⟨?_, haccount, hasset, hamount⟩
  cases s.2.rows.lookup a.intentId with
  | none => rfl
  | some row =>
    by_cases hreleased : row.releasedAt = none <;>
      simp [ReserveArgs.secured, CapitalReservationRow.updated, hreleased]

/-- They end alike. -/
theorem FitsAll.lasts (h : FitsAll s a now seconds) :
    seconds < (a.reservation seconds).expiresAt ↔
      now < (a.secured now (s.2.rows.lookup a.intentId)).expiresAt := by
  have hexpires : (a.secured now (s.2.rows.lookup a.intentId)).expiresAt
      = Times.later now a.ttl := by
    cases s.2.rows.lookup a.intentId with
    | none => rfl
    | some row =>
      by_cases hsame : Times.later now a.ttl = row.expiresAt <;>
        simp [ReserveArgs.secured, CapitalReservationRow.updated, hsame]
  rw [hexpires]
  exact h.2.2.2

/-! ## 4. One call -/

omit [NumericColumn] in
/-- What the dict does with a `reserve`. -/
theorem dict_reserve (a : ReserveArgs) (now : ℤ) (seconds : ℚ)
    (items : CapitalReservations.Items) :
    ((a.amount ≤ 0 ∨ a.available < 0) ∧
      CapitalReservations.object items ⟨.reserve a, now, seconds⟩ = (false, items)) ∨
    (0 < a.amount ∧ 0 ≤ a.available ∧
      ((CapitalReservations.live items a.intentId seconds ≠ none ∧
        CapitalReservations.object items ⟨.reserve a, now, seconds⟩
          = (true, CapitalReservations.pruneLocked seconds items)) ∨
      (CapitalReservations.live items a.intentId seconds = none ∧
        a.available < sumOfAll items a seconds ∧
        CapitalReservations.object items ⟨.reserve a, now, seconds⟩
          = (false, CapitalReservations.pruneLocked seconds items)) ∨
      (CapitalReservations.live items a.intentId seconds = none ∧
        sumOfAll items a seconds ≤ a.available ∧
        CapitalReservations.object items ⟨.reserve a, now, seconds⟩ =
          (true, (CapitalReservations.pruneLocked seconds items).insert a.intentId
            (a.reservation seconds))))) := by
  simp only [CapitalReservations.object, sumOfAll]
  rcases CapitalReservations.reserve_cases a seconds items with
    ⟨hargs, e, he⟩ | ⟨hamount, havailable, ⟨r, hlive, hr⟩ | ⟨hlive, hshort, e, he⟩ |
      ⟨hlive, hfits, hr⟩⟩
  · left
    simp [hargs, he, Except.isOk, Except.toBool]
  · right
    simp [hamount, havailable, hlive, hr, Except.isOk, Except.toBool]
  · right
    simp [hamount, havailable, hlive, hshort, he, Except.isOk, Except.toBool]
  · right
    simp [hamount, havailable, hlive, hfits, hr, Except.isOk, Except.toBool]

omit [Times ℚ] in
/-- What the table does with it. -/
theorem table_reserve (a : ReserveArgs) (now : ℤ) (seconds : ℚ) (d : ReservationDb) :
    (d.liveRow a.intentId now ≠ none ∧
      DatabaseCapitalReservations.object d ⟨.reserve a, now, seconds⟩
        = (true, { d with clock := now })) ∨
    (d.liveRow a.intentId now = none ∧ a.available < ownSum d a now ∧
      DatabaseCapitalReservations.object d ⟨.reserve a, now, seconds⟩
        = (false, { d with clock := now })) ∨
    (d.liveRow a.intentId now = none ∧ ownSum d a now ≤ a.available ∧
      DatabaseCapitalReservations.object d ⟨.reserve a, now, seconds⟩ =
        (true, ({ d with clock := now } : ReservationDb).put a.intentId
          (a.secured now (d.rows.lookup a.intentId)))) := by
  simp only [DatabaseCapitalReservations.object]
  rcases play_reserve a none { d with clock := now } with
    ⟨row, hlive, hr⟩ | ⟨hlive, hshort, he⟩ | ⟨hlive, hfits, row, hr⟩
  · left
    exact ⟨ne_of_eq_of_ne hlive (Option.some_ne_none row), by rw [hr]; rfl⟩
  · right
    left
    exact ⟨hlive, hshort, by rw [he]; rfl⟩
  · right
    right
    exact ⟨hlive, hfits, by rw [hr]; rfl⟩

/-- **A `reserve` both answer alike** leaves them in agreement. -/
theorem agree_reserve (h : Mirrors s) (hc : Alike s ⟨.reserve a, now, seconds⟩) :
    Agree s ⟨.reserve a, now, seconds⟩ (bothLedgers s ⟨.reserve a, now, seconds⟩).1
      (bothLedgers s ⟨.reserve a, now, seconds⟩).2 := by
  obtain ⟨⟨hkept, hends⟩, hcase⟩ := hc
  replace hkept : Kept (fun _ => True) s now := hkept
  replace hends : RunOutAlike (fun _ => True) s seconds now := hends
  have hsum := h.sumLive_eq hkept hends a.accountId a.asset
  have hnone := h.live_none_iff hkept hends a.intentId
  simp only at hcase
  simp only [bothLedgers, Object.both]
  rcases table_reserve a now seconds s.2 with ⟨hrow, htable⟩ | ⟨hrow, hshort, htable⟩ |
    ⟨hrow, hfits, htable⟩
  · -- the intent has a live row, hence a live reservation
    rw [if_neg hrow] at hcase
    rcases dict_reserve a now seconds s.1 with
      ⟨hargs, hdict⟩ | ⟨-, -, ⟨-, hdict⟩ | ⟨hlive, -⟩ | ⟨hlive, -⟩⟩
    · exact absurd hargs (by simpa using hcase)
    · rw [htable, hdict]
      exact ⟨h.prune seconds now, hkept.prune h hends now, hends.prune now, rfl, by simp⟩
    · exact absurd (hnone.mp hlive) hrow
    · exact absurd (hnone.mp hlive) hrow
  · -- the table refuses, and so does the dict
    rw [if_pos hrow] at hcase
    obtain ⟨-, hrefused⟩ | hmade := hcase
    · have hown : a.available < fix
          (CapitalReservations.liveSum s.1 a.accountId a.asset seconds + a.amount) := by
        rw [← hsum]
        exact hshort
      rcases dict_reserve a now seconds s.1 with
        ⟨-, hdict⟩ | ⟨hamount, havailable, ⟨hlive, -⟩ | ⟨-, -, hdict⟩ | ⟨-, hfits, -⟩⟩
      · rw [htable, hdict]
        refine ⟨h, hkept, hends, rfl, ?_⟩
        rintro _ ⟨⟩ -
        exact hown
      · exact absurd (hnone.mpr hrow) hlive
      · rw [htable, hdict]
        refine ⟨h.prune seconds now, hkept.prune h hends now, hends.prune now, rfl, ?_⟩
        rintro _ ⟨⟩ -
        exact hown
      · rcases hrefused with hrefused | hrefused | hrefused <;> linarith
    · exact absurd hmade.1.2.2.1 (not_le.mpr hshort)
  · -- the table makes the reservation
    rw [if_pos hrow] at hcase
    obtain ⟨hshort, -⟩ | hmade := hcase
    · exact absurd hfits (not_le.mpr hshort)
    obtain ⟨hamount, havailable, -, hfits'⟩ := hmade.1
    rcases dict_reserve a now seconds s.1 with
      ⟨hargs, -⟩ | ⟨-, -, ⟨hlive, -⟩ | ⟨-, hshort, -⟩ | ⟨-, -, hdict⟩⟩
    · rcases hargs with hargs | hargs <;> linarith
    · exact absurd (hnone.mpr hrow) hlive
    · linarith
    · rw [htable, hdict]
      exact ⟨(h.prune seconds now).made hmade.holds a.intentId,
        (hkept.prune h hends now).made a.intentId, (hends.prune now).made hmade.lasts a.intentId,
        rfl, by simp⟩

/-- So does every `release`. -/
theorem agree_release (h : Mirrors s) (hc : Alike s ⟨.release intentId, now, seconds⟩) :
    Agree s ⟨.release intentId, now, seconds⟩ (bothLedgers s ⟨.release intentId, now, seconds⟩).1
      (bothLedgers s ⟨.release intentId, now, seconds⟩).2 := by
  obtain ⟨⟨hkept, hends⟩, -⟩ := hc
  replace hends : RunOutAlike (· ≠ intentId) s seconds now := hends
  simp only [bothLedgers, Object.both, CapitalReservations.object, CapitalReservations.release,
    DatabaseCapitalReservations.object]
  rw [play_release]
  cases hrow : s.2.rows.lookup intentId with
  | some row =>
    simp only
    refine ⟨?_, ?_, ?_, rfl, by simp⟩
    · exact Mirrors.release (s := (s.1, { s.2 with clock := now })) h intentId _
    · exact Kept.release (s := (s.1, { s.2 with clock := now })) hkept (by simp)
    · exact RunOutAlike.release (s := (s.1, { s.2 with clock := now })) hends _
  | none =>
    have hdict : s.1.lookup intentId = none := by
      cases hdict : s.1.lookup intentId with
      | none => rfl
      | some r =>
        obtain ⟨row, hrow', -⟩ := h intentId r hdict
        rw [hrow] at hrow'
        cases hrow'
    simp only
    refine ⟨?_, ?_, ?_, rfl, by simp⟩
    · intro other r hr
      by_cases hid : other = intentId
      · subst hid
        simp at hr
      · exact h other r (by rwa [AList.lookup_erase_ne hid] at hr)
    · intro other hmem _
      have hid : other ≠ intentId := by
        rintro rfl
        rw [← AList.mem_keys, ← AList.lookup_isSome, hrow] at hmem
        simp at hmem
      rcases hkept other hmem hid with hin | hnone
      · left
        simp [hin, hid]
      · exact Or.inr hnone
    · intro other hmem _
      rw [← AList.mem_keys, AList.mem_erase] at hmem
      simpa [AList.lookup_erase_ne hmem.1] using hends other (AList.mem_keys.mp hmem.2) hmem.1

/-! ## 5. The result -/

/-- **What is expected of the two ledgers** at a call: the same answer, the same live
reservations then and as long as they run out alike, and a refusal that the account has itself to
blame for. -/
structure LedgersAgree (s : Ledgers) (k : TimedCall) : Prop where
  answers : (bothLedgers s k).1.1 = (bothLedgers s k).1.2
  held : ∀ intentId, CapitalReservations.held (bothLedgers s k).2.1 intentId k.seconds
    = (bothLedgers s k).2.2.held intentId k.now
  later : ∀ seconds t, k.now ≤ t → RunOutAlike (fun _ => True) (bothLedgers s k).2 seconds t →
    ∀ intentId, CapitalReservations.held (bothLedgers s k).2.1 intentId seconds
      = (bothLedgers s k).2.2.held intentId t
  own : ∀ a, k.call = .reserve a → (bothLedgers s k).1.1 = false →
    a.available < fix (CapitalReservations.liveSum s.1 a.accountId a.asset k.seconds + a.amount)

/-- The two ledgers after a sequence of calls, from empty. -/
def ledgersAfter (clock : ℤ) (ks : List TimedCall) : Ledgers :=
  ((Log.start (∅, ⟨∅, clock⟩)).calls bothLedgers ks).now

/-- Each call of the sequence finds the ledgers so that they answer it alike. -/
def AllAlike (clock : ℤ) (ks : List TimedCall) : Prop :=
  Log.Meeting bothLedgers (fun l k => Alike l.now k) (Log.start (∅, ⟨∅, clock⟩)) ks

instance AllAlike.decidable (clock : ℤ) (ks : List TimedCall) : Decidable (AllAlike clock ks) :=
  inferInstanceAs (Decidable (Log.Meeting bothLedgers (fun l k => Alike l.now k) _ ks))

theorem agree_of_alike {k : TimedCall} (h : Mirrors s) (hc : Alike s k) :
    Agree s k (bothLedgers s k).1 (bothLedgers s k).2 := by
  obtain ⟨call, now, seconds⟩ := k
  cases call with
  | reserve a => exact agree_reserve h hc
  | release intentId => exact agree_release h hc

theorem mirrors_after {clock : ℤ} {ks : List TimedCall} (h : AllAlike clock ks) :
    Mirrors (ledgersAfter clock ks) := by
  refine Log.keeps (I := fun l => Mirrors l.now) ?_ ?_ h
  · exact fun l k hm hc => (agree_of_alike hm hc).mirrors
  · intro intentId r hr
    simp at hr

end Calls

section Witness

attribute [local instance] exactColumn Python.defaultContext Python.floatTimes

/-- Two accounts that share 100. -/
def twoAccounts : List TimedCall :=
  [⟨.reserve { intentId := "i-1", amount := 60, available := 100, accountId := "a" }, 0, 0⟩,
    ⟨.reserve { intentId := "i-2", amount := 30, available := 100, accountId := "b" }, 1000000, 1⟩]

end Witness

end Kripto.Execution
