/-
# What a successful reserve means

A caller that gets a reservation back expects it to be live, to be for what was asked, and to
fit: the live reservations of its account and asset are covered by `available`.  Both ledgers
return an earlier reservation of the same intent as it is, without comparing it with the call, and
both make sure of a sum that is rounded; `reserve_means_iff` says exactly which calls keep the
promise.
-/
import Kripto.Execution.Reservation
import Kripto.Execution.Script

namespace Kripto.Execution

open Effect
open Python (DecimalContext Times)
open Python.DecimalContext (fix sum_sublist)

/-! ## 1. The promise -/

namespace CapitalReservations

variable {items : Items} {a : ReserveArgs} {now : ℚ}

/-- The live reservations of an account and asset, summed. -/
def liveSum (items : Items) (account asset : String) (now : ℚ) : ℚ :=
  Table.sumWhere (fun r => r.accountId = account ∧ r.asset = asset ∧ now < r.expiresAt)
    (·.amount) items

/-- **What the caller expects** of the ledger after `reserve`. -/
structure Promised (a : ReserveArgs) (now : ℚ) (items : Items) : Prop where
  held : ∃ r, live items a.intentId now = some r ∧
    r.amount = a.amount ∧ r.asset = a.asset ∧ r.accountId = a.accountId
  covered : liveSum items a.accountId a.asset now ≤ a.available

section Reachable

variable [DecimalContext] [Times ℚ]

/-- The states calls lead to. -/
inductive Reachable : Items → Prop
  | empty : Reachable ∅
  | reserve {items : Items} (a : ReserveArgs) (now : ℚ) (h : Reachable items) :
      Reachable (CapitalReservations.reserve a now items).2
  | release {items : Items} (intentId : String) (h : Reachable items) :
      Reachable (CapitalReservations.release intentId items).2
  | prune {items : Items} (now : ℚ) (h : Reachable items) : Reachable (pruneLocked now items)

end Reachable

/-- Every reservation is of a positive amount. -/
def Positive (items : Items) : Prop := ∀ intentId r, items.lookup intentId = some r → 0 < r.amount

theorem Positive.prune (h : Positive items) (now : ℚ) : Positive (pruneLocked now items) := by
  intro intentId r hr
  rw [lookup_pruneLocked, live, Option.filter_eq_some_iff] at hr
  exact h intentId r hr.1

theorem Positive.reserve [DecimalContext] [Times ℚ] (h : Positive items) (a : ReserveArgs)
    (now : ℚ) : Positive (reserve a now items).2 := by
  rcases reserve_cases a now items with
    ⟨-, e, he⟩ | ⟨hamount, -, ⟨r, -, hr⟩ | ⟨-, -, e, he⟩ | ⟨-, -, hr⟩⟩
  · rw [he]
    exact h
  · rw [hr]
    exact h.prune now
  · rw [he]
    exact h.prune now
  · rw [hr]
    intro intentId r' hr'
    by_cases hid : intentId = a.intentId
    · subst hid
      rw [AList.lookup_insert] at hr'
      cases hr'
      exact hamount
    · rw [AList.lookup_insert_ne hid] at hr'
      exact h.prune now intentId r' hr'

theorem Positive.release (h : Positive items) (intentId : String) :
    Positive (release intentId items).2 := by
  intro intentId' r hr
  by_cases hid : intentId' = intentId
  · subst hid
    simp [CapitalReservations.release] at hr
  · exact h intentId' r (by rwa [← AList.lookup_erase_ne hid])

/-- What has run out counts for the total. -/
theorem totalReserved_pruneLocked_le [DecimalContext] (h : Positive items) (asset : String)
    (now : ℚ) : totalReserved asset (pruneLocked now items) ≤ totalReserved asset items := by
  have hvalues : (pruneLocked now items).values.Sublist items.values :=
    List.filter_sublist.map _
  refine sum_sublist ((hvalues.filter _).map _).reverse ?_
  intro amount hamount
  obtain ⟨r, hr, rfl⟩ := List.mem_map.mp (List.mem_reverse.mp hamount)
  obtain ⟨⟨intentId, r⟩, hentry, rfl⟩ := List.mem_map.mp (List.mem_filter.mp hr).1
  exact (h intentId r (AList.mem_lookup_iff.mpr hentry)).le

theorem Reachable.positive [DecimalContext] [Times ℚ] (h : Reachable items) :
    Positive items := by
  induction h with
  | empty =>
    intro intentId r hr
    simp at hr
  | reserve a now _ ih => exact ih.reserve a now
  | release intentId _ ih => exact ih.release intentId
  | prune now _ ih => exact ih.prune now

/-! ## 2. The dict -/

/-- **When the dict keeps the promise**: a repeated call asks for what is there, and it still
fits; a new reservation ends after it is made, and fits beside the others exactly. -/
def Keeps [Times ℚ] (a : ReserveArgs) (now : ℚ) (items : Items) : Prop :=
  match live items a.intentId now with
  | some r => (r.amount = a.amount ∧ r.asset = a.asset ∧ r.accountId = a.accountId) ∧
      liveSum items a.accountId a.asset now ≤ a.available
  | none => now < Times.later now a.ttl ∧
      liveSum items a.accountId a.asset now + a.amount ≤ a.available

theorem live_pruneLocked (intentId : String) :
    live (pruneLocked now items) intentId now = live items intentId now := by
  simp only [live, lookup_pruneLocked]
  cases items.lookup intentId with
  | none => rfl
  | some r => by_cases h : now < r.expiresAt <;> simp [Option.filter, h]

theorem liveSum_pruneLocked (account asset : String) :
    liveSum (pruneLocked now items) account asset now = liveSum items account asset now := by
  refine Table.sumWhere_congr fun intentId => ?_
  rw [lookup_pruneLocked, live]
  cases items.lookup intentId with
  | none => rfl
  | some r => by_cases h : now < r.expiresAt <;> simp [Option.filter, h]

theorem liveSum_insert [Times ℚ] (hlive : live items a.intentId now = none)
    (hlasts : now < Times.later now a.ttl) :
    liveSum ((pruneLocked now items).insert a.intentId (a.reservation now)) a.accountId a.asset now =
      liveSum items a.accountId a.asset now + a.amount := by
  have hnone : ∀ p : Reservation → Bool,
      ((pruneLocked now items).lookup a.intentId).filter p = none := by
    simp [lookup_pruneLocked, hlive]
  have hcounts : (a.reservation now).accountId = a.accountId ∧
      (a.reservation now).asset = a.asset ∧ now < (a.reservation now).expiresAt := by
    simp [ReserveArgs.reservation, hlasts]
  rw [liveSum, Table.sumWhere_insert, Table.sumWhere_erase (hnone _), if_pos hcounts, ← liveSum,
    liveSum_pruneLocked]
  rfl

theorem promised_iff [DecimalContext] [Times ℚ] {r : Reservation} {items' : Items}
    (hr : reserve a now items = (.ok r, items')) : Promised a now items' ↔ Keeps a now items := by
  rcases reserve_cases a now items with
    ⟨-, e, he⟩ | ⟨hamount, -, ⟨r, hlive, hrun⟩ | ⟨-, -, e, he⟩ | ⟨hlive, hfits, hrun⟩⟩
  · rw [hr] at he
    simp at he
  · rw [hr] at hrun
    cases hrun
    simp only [Keeps, hlive]
    constructor
    · rintro ⟨⟨r', hr', hasked⟩, hcovered⟩
      rw [live_pruneLocked, hlive] at hr'
      cases hr'
      rw [liveSum_pruneLocked] at hcovered
      exact ⟨hasked, hcovered⟩
    · rintro ⟨hasked, hcovered⟩
      exact ⟨⟨r, by rw [live_pruneLocked, hlive], hasked⟩, by rwa [liveSum_pruneLocked]⟩
  · rw [hr] at he
    simp at he
  · rw [hr] at hrun
    cases hrun
    simp only [Keeps, hlive]
    have hnew : live ((pruneLocked now items).insert a.intentId (a.reservation now)) a.intentId now
        = some (a.reservation now) ↔ now < Times.later now a.ttl := by
      simp [live, Option.filter, ReserveArgs.reservation]
    constructor
    · rintro ⟨⟨r', hr', -⟩, hcovered⟩
      have hlasts : now < Times.later now a.ttl := by
        rw [← hnew, hr']
        rw [live, AList.lookup_insert, Option.filter_eq_some_iff] at hr'
        exact hr'.1.symm
      exact ⟨hlasts, liveSum_insert hlive hlasts ▸ hcovered⟩
    · rintro ⟨hlasts, hcovered⟩
      exact ⟨⟨_, hnew.mpr hlasts, rfl, rfl, rfl⟩, (liveSum_insert hlive hlasts).trans_le hcovered⟩

end CapitalReservations

/-! ## 3. The table -/

namespace DatabaseCapitalReservations

variable {d : ReservationDb} {a : ReserveArgs} {now : ℤ}

/-- **What the caller expects** of the table after `reserve`. -/
structure Promised (a : ReserveArgs) (now : ℤ) (d : ReservationDb) : Prop where
  held : ∃ row, d.liveRow a.intentId now = some row ∧
    row.amount = a.amount ∧ row.asset = a.asset ∧ row.exchangeAccountId = a.accountId
  covered : d.sumLive a.accountId a.asset now ≤ a.available

variable [NumericColumn]

open NumericColumn

section Reachable

variable [DecimalContext]

/-- The states calls lead to, with time passing between them. -/
inductive Reachable : ReservationDb → Prop
  | empty (clock : ℤ) : Reachable ⟨∅, clock⟩
  | reserve {d : ReservationDb} (a : ReserveArgs) (now : Option ℤ) (h : Reachable d) :
      Reachable ((DatabaseCapitalReservations.reserve a now).play ReservationDb.serve d).2
  | release {d : ReservationDb} (intentId : String) (h : Reachable d) :
      Reachable ((DatabaseCapitalReservations.release intentId).play ReservationDb.serve d).2
  | wait {d : ReservationDb} (clock : ℤ) (h : Reachable d) : Reachable { d with clock := clock }

end Reachable

/-- **When the table keeps the promise**: a repeated call asks for what is there, and it still
fits; a new reservation ends after it is made and fits beside the others exactly, its amount gets
through the column unchanged, and an old row of the intent is of the same account. -/
def Keeps (a : ReserveArgs) (now : ℤ) (d : ReservationDb) : Prop :=
  match d.liveRow a.intentId now with
  | some row => (row.amount = a.amount ∧ row.asset = a.asset ∧
        row.exchangeAccountId = a.accountId) ∧
      d.sumLive a.accountId a.asset now ≤ a.available
  | none => (now < Times.later now a.ttl ∧
        d.sumLive a.accountId a.asset now + a.amount ≤ a.available) ∧
      (numeric a.amount = a.amount ∨ ∃ row ∈ d.rows.lookup a.intentId, row.amount = a.amount) ∧
      ∀ row ∈ d.rows.lookup a.intentId, row.exchangeAccountId = a.accountId

/-- The row `reserve` leaves is live until its ttl is over. -/
theorem secured_live (existing : Option CapitalReservationRow) :
    (a.secured now existing).Live now ↔ now < Times.later now a.ttl := by
  cases existing with
  | none => simp [ReserveArgs.secured, CapitalReservationRow.stored, CapitalReservationRow.Live]
  | some row =>
    by_cases hreleased : row.releasedAt = none <;>
      by_cases hexpires : Times.later now a.ttl = row.expiresAt
    all_goals simp [ReserveArgs.secured, CapitalReservationRow.updated, CapitalReservationRow.Live,
      hreleased, hexpires]

theorem secured_asset (existing : Option CapitalReservationRow) :
    (a.secured now existing).asset = a.asset := by
  cases existing with
  | none => rfl
  | some row => by_cases h : a.asset = row.asset <;>
      simp [ReserveArgs.secured, CapitalReservationRow.updated, h]

theorem secured_amount (now : ℤ) (existing : Option CapitalReservationRow) :
    (a.secured now existing).amount = a.amount ↔
      numeric a.amount = a.amount ∨ ∃ row ∈ existing, row.amount = a.amount := by
  cases existing with
  | none => simp [ReserveArgs.secured, CapitalReservationRow.stored]
  | some row =>
    by_cases h : a.amount = row.amount
    · simp [ReserveArgs.secured, CapitalReservationRow.updated, h]
    · simp [ReserveArgs.secured, CapitalReservationRow.updated, h, Ne.symm h]

theorem secured_account (now : ℤ) (existing : Option CapitalReservationRow) :
    (a.secured now existing).exchangeAccountId = a.accountId ↔
      ∀ row ∈ existing, row.exchangeAccountId = a.accountId := by
  cases existing with
  | none => simp [ReserveArgs.secured, CapitalReservationRow.stored]
  | some row => simp [ReserveArgs.secured, CapitalReservationRow.updated]

omit [NumericColumn] in
theorem liveRow_put (row : CapitalReservationRow) :
    (d.put a.intentId row).liveRow a.intentId now = some row ↔ row.Live now := by
  simp [ReservationDb.put, ReservationDb.liveRow, Option.filter]

omit [NumericColumn] in
theorem sumLive_put {row : CapitalReservationRow} (hlive : d.liveRow a.intentId now = none)
    (hcounts : row.Counts a.accountId a.asset now) :
    (d.put a.intentId row).sumLive a.accountId a.asset now =
      d.sumLive a.accountId a.asset now + row.amount := by
  have hnone : (d.rows.lookup a.intentId).filter
      (fun row => row.Counts a.accountId a.asset now) = none := by
    rw [ReservationDb.liveRow] at hlive
    cases hrow : d.rows.lookup a.intentId with
    | none => rfl
    | some row =>
      have hdead : ¬row.Live now := by simpa [hrow, Option.filter] using hlive
      simp [Option.filter, CapitalReservationRow.Counts, hdead]
  rw [ReservationDb.sumLive, ReservationDb.put, Table.sumWhere_insert, Table.sumWhere_erase hnone,
    if_pos hcounts, ← ReservationDb.sumLive]

theorem promised_iff [DecimalContext] {r : CapitalReservationRow} {d' : ReservationDb}
    {at_ : Option ℤ}
    (hnow : now = at_.getD d.clock)
    (hr : (reserve a at_).play ReservationDb.serve d = (.ok r, d')) :
    Promised a now d' ↔ Keeps a now d := by
  have hcases := play_reserve a at_ d
  rw [← hnow, hr] at hcases
  rcases hcases with ⟨row, hlive, hrun⟩ | ⟨-, -, he⟩ | ⟨hlive, hfits, row, hrun⟩
  · cases hrun
    simp only [Keeps, hlive]
    constructor
    · rintro ⟨⟨row, hrow, hasked⟩, hcovered⟩
      rw [hlive] at hrow
      cases hrow
      exact ⟨hasked, hcovered⟩
    · rintro ⟨hasked, hcovered⟩
      exact ⟨⟨r, hlive, hasked⟩, hcovered⟩
  · simp at he
  · cases hrun
    simp only [Keeps, hlive]
    have hheld : ∀ row, (d.put a.intentId (a.secured now (d.rows.lookup a.intentId))).liveRow
        a.intentId now = some row → row = a.secured now (d.rows.lookup a.intentId) := by
      intro row hrow
      simp only [ReservationDb.put, ReservationDb.liveRow, AList.lookup_insert,
        Option.filter_eq_some_iff] at hrow
      exact (Option.some.inj hrow.1).symm
    constructor
    · rintro ⟨⟨row, hrow, hamount, -, haccount⟩, hcovered⟩
      obtain rfl := hheld row hrow
      have hlive' := (liveRow_put _).mp hrow
      rw [sumLive_put hlive ⟨haccount, secured_asset _, hlive'⟩, hamount] at hcovered
      exact ⟨⟨(secured_live _).mp hlive', hcovered⟩, (secured_amount now _).mp hamount,
        (secured_account now _).mp haccount⟩
    · rintro ⟨⟨hlasts, hcovered⟩, hamount, haccount⟩
      have hamount := (secured_amount now _).mpr hamount
      have haccount := (secured_account now _).mpr haccount
      have hlive' := (secured_live (d.rows.lookup a.intentId)).mpr hlasts
      refine ⟨⟨_, (liveRow_put _).mpr hlive', hamount, secured_asset _, haccount⟩, ?_⟩
      rwa [sumLive_put hlive ⟨haccount, secured_asset _, hlive'⟩, hamount]

end DatabaseCapitalReservations

/-! ## 4. The result -/

/-- **A successful `reserve` means what it says exactly when** it is new, lives for a while and
fits exactly, or repeats a live reservation as it is. -/
theorem reserve_means_iff [NumericColumn] [DecimalContext] [Times ℚ] :
    (∀ items, CapitalReservations.Reachable items → ∀ (a : ReserveArgs) (now : ℚ) r items',
      CapitalReservations.reserve a now items = (.ok r, items') →
      (CapitalReservations.Promised a now items' ↔ CapitalReservations.Keeps a now items)) ∧
    (∀ d, DatabaseCapitalReservations.Reachable d → ∀ (a : ReserveArgs) (now : Option ℤ) r d',
      (DatabaseCapitalReservations.reserve a now).play ReservationDb.serve d = (.ok r, d') →
      (DatabaseCapitalReservations.Promised a (now.getD d.clock) d' ↔
        DatabaseCapitalReservations.Keeps a (now.getD d.clock) d)) := by
  constructor
  · intro items _ a now r items' hr
    exact CapitalReservations.promised_iff hr
  · intro d _ a now r d' hr
    exact DatabaseCapitalReservations.promised_iff rfl hr

section Repeat

attribute [local instance] exactColumn Python.defaultContext Python.floatTimes

/-- A call for an account `a` with 100 available, for a minute. -/
def ReserveArgs.minute (intentId : String) (amount : ℚ) : ReserveArgs :=
  ⟨intentId, amount, 100, "USDT", "a", 60⟩

/-- The dict with one reservation of 60, made at time 0. -/
def sixtyHeld : CapitalReservations.Items :=
  (CapitalReservations.reserve (.minute "i-1" 60) 0 ∅).2

/-- The table with one reservation of 60, made at time 0. -/
def sixtyStored : ReservationDb :=
  ((DatabaseCapitalReservations.reserve (.minute "i-1" 60) none).play ReservationDb.serve
    ⟨∅, 0⟩).2

theorem sixtyHeld_reachable : CapitalReservations.Reachable sixtyHeld :=
  .reserve _ _ .empty

theorem sixtyStored_reachable : DatabaseCapitalReservations.Reachable sixtyStored :=
  .reserve _ _ (.empty 0)

/-- What a call returned, if it did. -/
theorem eq_ok_of_isSome {α β : Type} {x : Except Exc α × β} (h : x.1.toOption.isSome = true) :
    ∃ a, x = (.ok a, x.2) := by
  obtain ⟨r, s⟩ := x
  cases r with
  | ok a => exact ⟨a, rfl⟩
  | error e => simp [Except.toOption] at h

/-- Reserved beside all there is, when the sum has no digit for it. -/
example :
    let held := (CapitalReservations.reserve ⟨"i-1", 10 ^ 9, 10 ^ 9, "USDT", "a", 60⟩ 0 ∅).2
    (CapitalReservations.reserve ⟨"i-2", 4 / 10 ^ 19, 10 ^ 9, "USDT", "a", 60⟩ 1 held).1.isOk := by
  decide +kernel

/-- The call repeated as it was. -/
theorem reserve_means_iff_repeated :
    (CapitalReservations.Promised (.minute "i-1" 60) 1
        (CapitalReservations.reserve (.minute "i-1" 60) 1 sixtyHeld).2 ↔
      CapitalReservations.Keeps (.minute "i-1" 60) 1 sixtyHeld) ∧
    (DatabaseCapitalReservations.Promised (.minute "i-1" 60)
        ((none : Option ℤ).getD sixtyStored.clock)
        ((DatabaseCapitalReservations.reserve (.minute "i-1" 60) none).play ReservationDb.serve
          sixtyStored).2 ↔
      DatabaseCapitalReservations.Keeps (.minute "i-1" 60)
        ((none : Option ℤ).getD sixtyStored.clock) sixtyStored) := by
  constructor
  · obtain ⟨r, hr⟩ := eq_ok_of_isSome
      (x := CapitalReservations.reserve (.minute "i-1" 60) 1 sixtyHeld) (by decide +kernel)
    exact reserve_means_iff.1 sixtyHeld sixtyHeld_reachable _ 1 r _ hr
  · obtain ⟨r, hr⟩ := eq_ok_of_isSome
      (x := (DatabaseCapitalReservations.reserve (.minute "i-1" 60) none).play ReservationDb.serve
        sixtyStored) (by decide +kernel)
    exact reserve_means_iff.2 sixtyStored sixtyStored_reachable _ none r _ hr

/-- **A successful `reserve` need not mean what it says.**  Asked for 90 under an intent that
holds 60, both ledgers return the 60. -/
theorem reserve_means_otherwise :
    (¬ ∀ items, CapitalReservations.Reachable items → ∀ (a : ReserveArgs) (now : ℚ) r items',
      CapitalReservations.reserve a now items = (.ok r, items') →
      CapitalReservations.Promised a now items') ∧
    (¬ ∀ d, DatabaseCapitalReservations.Reachable d → ∀ (a : ReserveArgs) (now : Option ℤ) r d',
      (DatabaseCapitalReservations.reserve a now).play ReservationDb.serve d = (.ok r, d') →
      DatabaseCapitalReservations.Promised a (now.getD d.clock) d') := by
  constructor
  · intro h
    obtain ⟨r, hr⟩ := eq_ok_of_isSome
      (x := CapitalReservations.reserve (.minute "i-1" 90) 1 sixtyHeld) (by decide +kernel)
    obtain ⟨⟨r', hlive, hamount, -⟩, -⟩ := h sixtyHeld sixtyHeld_reachable _ 1 r _ hr
    have hheld : (CapitalReservations.live (CapitalReservations.reserve (.minute "i-1" 90) 1
        sixtyHeld).2 "i-1" 1).map (·.amount) = some 60 := by decide +kernel
    rw [show ReserveArgs.intentId (.minute "i-1" 90) = "i-1" from rfl] at hlive
    rw [hlive] at hheld
    rw [Option.map_some, hamount] at hheld
    exact absurd hheld (by decide)
  · intro h
    obtain ⟨r, hr⟩ := eq_ok_of_isSome
      (x := (DatabaseCapitalReservations.reserve (.minute "i-1" 90) none).play ReservationDb.serve
        sixtyStored) (by decide +kernel)
    obtain ⟨⟨row, hlive, hamount, -⟩, -⟩ := h sixtyStored sixtyStored_reachable _ none r _ hr
    have hheld : (((DatabaseCapitalReservations.reserve (.minute "i-1" 90) none).play
        ReservationDb.serve sixtyStored).2.liveRow "i-1" 0).map (·.amount) = some 60 := by
      decide +kernel
    rw [show ((none : Option ℤ).getD sixtyStored.clock) = 0 by decide +kernel,
      show ReserveArgs.intentId (.minute "i-1" 90) = "i-1" from rfl] at hlive
    rw [hlive] at hheld
    rw [Option.map_some, hamount] at hheld
    exact absurd hheld (by decide)

end Repeat

end Kripto.Execution
