/-
# Reservations made by several processes

`DatabaseCapitalReservations.reserve` reads what is live, compares, and commits, and takes no
lock.  Processes run it for one account and asset in any interleaving, while the clock advances
and others change rows that do not count.  Every commit fits beside the sum its call has READ
(`within_reserve`); that sum can be out of date by then, or lose what it is too long to hold.  As
long as it is not too low (`StillCovers`), the live reservations stay within the capital.
-/
import Kripto.Execution.Reservation
import Kripto.Execution.Script

namespace Kripto.Execution

open Effect
open Python (DecimalContext)
open Python.DecimalContext (fix)

/-! ## 1. Processes over one table -/

section Race

variable {ι : Type} [NumericColumn] [DecimalContext] (account asset : String) (available : ℚ)

/-- The clock advances, and nothing new counts for the account and asset. -/
def AddsNothing (d d' : ReservationDb) : Prop :=
  d.clock ≤ d'.clock ∧ ∀ intentId row, d'.rows.lookup intentId = some row →
    row.Counts account asset d'.clock → d.rows.lookup intentId = some row

/-- Processes that reserve capital of one account and asset, with the same `available`. -/
def racing : Pool.System ι reservationSig ReservationDb CapitalReservationRow where
  handler := fun _ => ReservationDb.handler
  start := fun _ p => ∃ (a : ReserveArgs) (now : Option ℤ), a.accountId = account ∧
    a.asset = asset ∧ a.available = available ∧ p = DatabaseCapitalReservations.reserve a now
  env := AddsNothing account asset

/-- What is live of the account and asset, now. -/
def ReservationDb.reserved (d : ReservationDb) : ℚ := d.sumLive account asset d.clock

/-- The same without the row of an intent. -/
def ReservationDb.reservedBeside (d : ReservationDb) (intentId : String) : ℚ :=
  Table.sumWhere (fun row => row.Counts account asset d.clock) (·.amount)
    (d.rows.erase intentId)

open NumericColumn in
/-- **The condition on a commit**: the amount it leaves is not negative and no more than what was
asked for, what is live beside the row is still covered by the sum the call has read, and adding
the amount to that sum has not rounded it down. -/
def StillCovers (_ : ι) : (o : ReservationOp) → ReservationDb → reservationSig.Ans o → Prop
  | .insert row used, d, _ =>
      (0 ≤ numeric row.amount ∧ numeric row.amount ≤ row.amount) ∧
        d.reservedBeside account asset row.intentId ≤ used ∧
        used + row.amount ≤ fix (used + row.amount)
  | .update existing a expires used, d, _ =>
      (∀ current ∈ d.rows.lookup a.intentId,
        0 ≤ (current.updated existing a expires).amount ∧
          (current.updated existing a expires).amount ≤ a.amount) ∧
        d.reservedBeside account asset a.intentId ≤ used ∧
        used + a.amount ≤ fix (used + a.amount)
  | _, _, _ => True

/-! ## 2. What a process can commit -/

/-- A commit fits beside the sum the call has read. -/
def FitsRead : ReservationOp → Prop
  | .insert row used => fix (used + row.amount) ≤ available
  | .update _ a _ used => fix (used + a.amount) ≤ available
  | .setReleased .. => False
  | _ => True

variable {account asset available}

omit [NumericColumn] in
theorem within_secure {a : ReserveArgs} (ha : a.available = available) (now : ℤ)
    (existing : Option CapitalReservationRow) :
    (DatabaseCapitalReservations.secure a now existing).Within (FitsRead available) := by
  unfold DatabaseCapitalReservations.secure
  refine Prog.Within.bind (Prog.within_perform.mpr trivial) fun used => ?_
  by_cases hshort : a.available < fix (used + a.amount)
  · simp [hshort]
  · have hfits : fix (used + a.amount) ≤ available := by
      rw [← ha]
      exact not_lt.mp hshort
    simp only [hshort, if_false]
    cases existing with
    | none => exact Prog.Within.bind (Prog.within_perform.mpr hfits) fun _ => trivial
    | some row => exact Prog.Within.bind (Prog.within_perform.mpr hfits) fun _ => trivial

omit [NumericColumn] in
theorem within_reserve {a : ReserveArgs} (ha : a.available = available) (now : Option ℤ) :
    (DatabaseCapitalReservations.reserve a now).Within (FitsRead available) := by
  unfold DatabaseCapitalReservations.reserve
  refine Prog.Within.bind ?_ fun now => ?_
  · cases now with
    | none => exact Prog.within_perform.mpr trivial
    | some now => trivial
  refine Prog.Within.bind (Prog.within_perform.mpr trivial) fun existing => ?_
  cases existing with
  | none => exact within_secure ha now none
  | some row =>
    by_cases hlive : row.Live now
    · simp [hlive]
    · simp only [hlive, if_false]
      exact within_secure ha now (some row)

/-! ## 3. The invariant -/

/-- What is live is within the capital, and none of it is negative. -/
structure Covered (account asset : String) (available : ℚ) (d : ReservationDb) : Prop where
  within : d.reserved account asset ≤ available
  nonneg : ∀ intentId row, d.rows.lookup intentId = some row →
    row.Counts account asset d.clock → 0 ≤ row.amount

variable {d d' : ReservationDb}

omit [NumericColumn] [DecimalContext] in
theorem Covered.addsNothing (h : Covered account asset available d)
    (hd : AddsNothing account asset d d') : Covered account asset available d' := by
  obtain ⟨hclock, hrows⟩ := hd
  have hcounts : ∀ intentId row, d'.rows.lookup intentId = some row →
      row.Counts account asset d'.clock →
        d.rows.lookup intentId = some row ∧ row.Counts account asset d.clock := by
    intro intentId row hrow hcounts
    have hexpires := hcounts.2.2.2
    exact ⟨hrows intentId row hrow hcounts, hcounts.1, hcounts.2.1, hcounts.2.2.1, by omega⟩
  constructor
  · exact (Table.sumWhere_mono hcounts h.nonneg).trans h.within
  · intro intentId row hrow hcount
    obtain ⟨hrow', hcount'⟩ := hcounts intentId row hrow hcount
    exact h.nonneg intentId row hrow' hcount'

omit [NumericColumn] [DecimalContext] in
/-- **A commit** that fits beside what is live keeps it within the capital. -/
theorem Covered.put (h : Covered account asset available d) {intentId : String}
    {row : CapitalReservationRow} (hnonneg : 0 ≤ row.amount)
    (hfits : d.reservedBeside account asset intentId + row.amount ≤ available) :
    Covered account asset available (d.put intentId row) := by
  constructor
  · have hle : (if row.Counts account asset d.clock then row.amount else 0) ≤ row.amount := by
      by_cases hcounts : row.Counts account asset d.clock <;> simp [hcounts, hnonneg]
    calc (d.put intentId row).reserved account asset
        = d.reservedBeside account asset intentId +
            if row.Counts account asset d.clock then row.amount else 0 := Table.sumWhere_insert
      _ ≤ d.reservedBeside account asset intentId + row.amount := by linarith
      _ ≤ available := hfits
  · intro other row' hrow' hcounts'
    by_cases hid : other = intentId
    · subst hid
      obtain rfl : row = row' := by simpa [ReservationDb.put] using hrow'
      exact hnonneg
    · exact h.nonneg other row' (by simpa [ReservationDb.put, hid] using hrow') hcounts'

/-- **One statement of a process** keeps it. -/
theorem Covered.step (h : Covered account asset available d) {t : ι} {o : ReservationOp}
    {r : reservationSig.Ans o} (ho : FitsRead available o)
    (hstep : (ReservationDb.handler.meeting (StillCovers account asset t)) o d r d') :
    Covered account asset available d' := by
  obtain ⟨hstep, hcond⟩ := hstep
  cases o with
  | utcnow =>
    rw [hstep.2]
    exact h
  | get intentId =>
    rw [hstep.2]
    exact h
  | sumLive account' asset' now =>
    rw [hstep.2]
    exact h
  | insert row used =>
    rcases hstep with ⟨-, -, rfl⟩ | ⟨-, rfl⟩
    · obtain ⟨⟨hnonneg, hle⟩, hcovers, hrounded⟩ := hcond
      have hread : fix (used + row.amount) ≤ available := ho
      have hamount : row.stored.amount ≤ row.amount := hle
      exact h.put hnonneg (by linarith)
    · exact h
  | update existing a expires used =>
    rcases hstep with ⟨current, hcurrent, -, rfl⟩ | ⟨-, rfl⟩
    · obtain ⟨hamounts, hcovers, hrounded⟩ := hcond
      obtain ⟨hnonneg, hle⟩ := hamounts current hcurrent
      have hread : fix (used + a.amount) ≤ available := ho
      exact h.put hnonneg (by linarith)
    · exact h
  | setReleased intentId at_ => exact absurd ho id

/-! ## 4. The result -/

variable [DecidableEq ι]

/-- The processes rely on nothing and owe nothing but the invariant. -/
def coveredOnly (account asset : String) (available : ℚ) : Protocol ι ReservationDb where
  inv := Covered account asset available
  rely := fun _ _ _ => True
  guar := fun _ _ _ => True
  rely_refl := fun _ _ => trivial
  rely_trans := fun _ {_ _ _} _ _ => trivial
  compat := fun _ _ _ _ => trivial

omit [DecidableEq ι] in
theorem racing_obeys :
    Pool.Obeys ((racing (ι := ι) account asset available).meeting (StillCovers account asset))
      (coveredOnly account asset available) where
  start := by
    rintro t p s ⟨a, now, -, -, ha, rfl⟩ -
    refine wp_mono (fun _ _ _ => trivial) (wp_within (P := fun _ => True) ?_ ?_
      (within_reserve ha now) trivial)
    · exact fun _ _ _ _ _ => trivial
    · intro o s₁ r s₂ ho _ hs₁ hstep
      exact ⟨trivial, hs₁.step ho hstep, trivial⟩
  env := fun s s' henv hs => ⟨hs.addsNothing henv, fun _ => trivial⟩

/-- **No over-reservation** in any run whose commits find their sum still covering what is
live. -/
theorem reserved_within_of_stillCovers (hd : Covered account asset available d)
    {c : Pool ι reservationSig ReservationDb CapitalReservationRow}
    (h : Pool.Reaches ((racing account asset available).meeting (StillCovers account asset))
      (Pool.idle d) c) : c.shared.reserved account asset ≤ available :=
  (Pool.sound racing_obeys (Pool.safe_idle hd) h).inv.within

end Race

/-! ## 5. Two processes -/

section TwoProcesses

attribute [local instance] exactColumn Python.defaultContext

/-- 60 of 100 under one intent, 40 under another. -/
def ReserveArgs.share : Bool → ReserveArgs
  | false => { intentId := "i-1", amount := 60, available := 100 }
  | true => { intentId := "i-2", amount := 40, available := 100 }

/-- 60 of 100 under either intent. -/
def ReserveArgs.tooMuch : Bool → ReserveArgs
  | false => { intentId := "i-1", amount := 60, available := 100 }
  | true => { intentId := "i-2", amount := 60, available := 100 }

/-- The table before anything is reserved. -/
def emptyTable : Pool Bool reservationSig ReservationDb CapitalReservationRow := Pool.idle ⟨∅, 0⟩

def playReserves (a : Bool → ReserveArgs) (ms : List (Move Bool Bool)) :
    Pool Bool reservationSig ReservationDb CapitalReservationRow :=
  emptyTable.play (fun _ => ReservationDb.serve)
    (fun i => DatabaseCapitalReservations.reserve (a i) none) ms

/-- Clock, row and sum of the first process, then all of the second, then the commit of the
first. -/
def interleaved : List (Move Bool Bool) :=
  .spawn false false :: List.replicate 3 (.act false) ++
    .spawn true true :: List.replicate 4 (.act true) ++ [.act false]

/-- One process after the other. -/
def oneByOne : List (Move Bool Bool) :=
  .spawn false false :: List.replicate 4 (.act false) ++
    .spawn true true :: List.replicate 4 (.act true)

theorem covered_empty : Covered "default" "USDT" 100 ⟨∅, 0⟩ := by
  constructor
  · decide
  · intro intentId row hrow
    simp at hrow

instance StillCovers.decidable (t : Bool) :
    ∀ (o : ReservationOp) (d : ReservationDb) (r : reservationSig.Ans o),
      Decidable (StillCovers "default" "USDT" t o d r)
  | .insert .., _, _ => inferInstanceAs (Decidable ((_ ∧ _) ∧ _ ∧ _))
  | .update _ a _ _, d, _ => inferInstanceAs (Decidable
      ((∀ current ∈ d.rows.lookup a.intentId, _ ∧ _) ∧ _ ∧ _))
  | .utcnow, _, _ => isTrue trivial
  | .get _, _, _ => isTrue trivial
  | .sumLive .., _, _ => isTrue trivial
  | .setReleased .., _, _ => isTrue trivial

theorem starts_share (t i : Bool) : (racing (ι := Bool) "default" "USDT" 100).start t
    (DatabaseCapitalReservations.reserve (.share i) none) :=
  ⟨.share i, none, by cases i <;> rfl, by cases i <;> rfl, by cases i <;> rfl, rfl⟩

theorem starts_tooMuch (t i : Bool) : (racing (ι := Bool) "default" "USDT" 100).start t
    (DatabaseCapitalReservations.reserve (.tooMuch i) none) :=
  ⟨.tooMuch i, none, by cases i <;> rfl, by cases i <;> rfl, by cases i <;> rfl, rfl⟩

theorem reserved_within_of_stillCovers_oneByOne :
    (playReserves .share oneByOne).shared.reserved "default" "USDT" ≤ 100 :=
  reserved_within_of_stillCovers covered_empty
    (Pool.reaches_play_meeting (fun _ => ReservationDb.serve_picks) emptyTable oneByOne
      (fun t i _ => starts_share t i) (by decide +kernel))

/-- **120 of 100 are reserved** when both processes read the sum before either commits. -/
theorem reserved_beyond_available :
    ¬ ∀ c, Pool.Reaches (racing "default" "USDT" 100) emptyTable c →
      c.shared.reserved "default" "USDT" ≤ 100 := by
  intro h
  have hreach : Pool.Reaches (racing "default" "USDT" 100) emptyTable
      (playReserves .tooMuch interleaved) :=
    Pool.reaches_play (fun _ => ReservationDb.serve_picks) starts_tooMuch emptyTable interleaved
  exact absurd (h _ hreach) (by decide +kernel)

end TwoProcesses

end Kripto.Execution
