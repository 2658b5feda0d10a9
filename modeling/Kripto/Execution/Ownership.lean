/-
# The ownership book

`execution/ownership.py`: one lot for each strategy and symbol.  `allocate` puts a new lot in the
place of the old one, and `exit` asks of its quantity only that it is no more than the lot's.

* `ownership_conserves_iff`: in a run of calls, the lots hold what was allocated less what was
  exited, no more than was allocated and nothing negative, and their profit is that of all exits,
  exactly if no lot that holds or has gained something is allocated anew, nothing negative is
  allocated, what was exited does not fall below zero, and no quantity or profit is rounded.

`allocated_twice` is a lot whose second allocation replaces the first.
-/
import Kripto.Effect.Totals
import Kripto.Execution.Order
import Kripto.Python.Rounding
import Mathlib.Tactic.Linarith
import Mathlib.Tactic.Ring

namespace Kripto.Execution.Ownership

open Effect Python

open Python.DecimalContext (fix)

/-! ## 1. The book -/

structure StrategyLot where
  strategyId : String
  symbol : String
  quantity : ℚ
  costBasis : ℚ
  realizedPnl : ℚ := 0
  deriving DecidableEq

/-- The lots, by strategy and symbol. -/
abbrev OwnershipBook : Type := Table (String × String) StrategyLot

/-- What an exit gains. -/
def StrategyLot.pnlOf [DecimalContext] (lot : StrategyLot) (quantity price : ℚ) : ℚ :=
  fix (fix (price - lot.costBasis) * quantity)

namespace OwnershipBook

def allocate (self : OwnershipBook) (strategyId symbol : String) (quantity costBasis : ℚ) :
    StrategyLot × OwnershipBook :=
  let lot : StrategyLot := { strategyId, symbol, quantity, costBasis }
  (lot, self.insert (strategyId, symbol) lot)

def exit [DecimalContext] (self : OwnershipBook) (strategyId symbol : String) (quantity price : ℚ) :
    Except Exc ℚ × OwnershipBook :=
  match self.lookup (strategyId, symbol) with
  | none => (.error (.other "KeyError"), self)
  | some lot =>
    if lot.quantity < quantity then
      (.error (.valueError "strategy cannot exit another strategy exposure"), self)
    else
      let pnl := lot.pnlOf quantity price
      (.ok pnl, self.insert (strategyId, symbol) { lot with
        quantity := fix (lot.quantity - quantity), realizedPnl := fix (lot.realizedPnl + pnl) })

end OwnershipBook

/-! ## 2. Runs -/

inductive Call
  | allocate (strategyId symbol : String) (quantity costBasis : ℚ)
  | exit (strategyId symbol : String) (quantity price : ℚ)

/-- A call that has not raised, with its strategy and symbol; an exit with what it returned. -/
inductive Event
  | allocated (key : String × String) (quantity : ℚ)
  | exited (key : String × String) (quantity pnl : ℚ)

def Event.key : Event → String × String
  | allocated key _ => key
  | exited key _ _ => key

def Event.allocatedOf (key : String × String) : Event → ℚ
  | allocated key' quantity => if key' = key then quantity else 0
  | exited _ _ _ => 0

def Event.exitedOf (key : String × String) : Event → ℚ
  | allocated _ _ => 0
  | exited key' quantity _ => if key' = key then quantity else 0

def Event.pnlOf (key : String × String) : Event → ℚ
  | allocated _ _ => 0
  | exited key' _ pnl => if key' = key then pnl else 0

/-- The book, and what has happened. -/
structure State where
  book : OwnershipBook
  events : List Event

namespace State

variable [DecimalContext] (s : State) (key : String × String)

def allocated : ℚ := (s.events.map (Event.allocatedOf key)).sum

def exited : ℚ := (s.events.map (Event.exitedOf key)).sum

def pnl : ℚ := (s.events.map (Event.pnlOf key)).sum

def perform : Call → State
  | .allocate strategyId symbol quantity costBasis =>
    ⟨(s.book.allocate strategyId symbol quantity costBasis).2,
      s.events ++ [.allocated (strategyId, symbol) quantity]⟩
  | .exit strategyId symbol quantity price =>
    match s.book.exit strategyId symbol quantity price with
    | (.ok pnl, book) => ⟨book, s.events ++ [.exited (strategyId, symbol) quantity pnl]⟩
    | (.error _, book) => ⟨book, s.events⟩

end State

/-- The state after some calls. -/
def play [DecimalContext] (calls : List Call) : State := calls.foldl State.perform ⟨∅, []⟩

/-- A lot holds what was allocated to it less what was exited, and keeps its profit. -/
structure LotConserved (s : State) (key : String × String) (lot : StrategyLot) : Prop where
  quantity_eq : lot.quantity = s.allocated key - s.exited key
  quantity_le : lot.quantity ≤ s.allocated key
  nonneg : 0 ≤ lot.quantity
  pnl_eq : lot.realizedPnl = s.pnl key

def Conserved (s : State) : Prop :=
  ∀ key lot, s.book.lookup key = some lot → LotConserved s key lot

/-- **The condition** on a call in a state. -/
def Meets [DecimalContext] (s : State) : Call → Prop
  | .allocate strategyId symbol quantity _ => 0 ≤ quantity ∧
    ∀ lot, s.book.lookup (strategyId, symbol) = some lot → lot.quantity = 0 ∧ lot.realizedPnl = 0
  | .exit strategyId symbol quantity price =>
    ∀ lot, s.book.lookup (strategyId, symbol) = some lot → quantity ≤ lot.quantity →
      0 ≤ s.exited (strategyId, symbol) + quantity ∧
        fix (lot.quantity - quantity) = lot.quantity - quantity ∧
        fix (lot.realizedPnl + lot.pnlOf quantity price) =
          lot.realizedPnl + lot.pnlOf quantity price

/-! ## 3. One call -/

section Step

variable {s : State} {key : String × String} {strategyId symbol : String} {quantity : ℚ}
  {lot : StrategyLot}

/-- What has never been allocated has no history. -/
def Blank (s : State) : Prop :=
  ∀ key, s.book.lookup key = none → s.allocated key = 0 ∧ s.exited key = 0 ∧ s.pnl key = 0

section Sums

variable (book : OwnershipBook) (events : List Event) (e : Event)

theorem allocated_append : (State.mk book (events ++ [e])).allocated key =
    (State.mk book events).allocated key + e.allocatedOf key := by
  simp [State.allocated]

theorem exited_append : (State.mk book (events ++ [e])).exited key =
    (State.mk book events).exited key + e.exitedOf key := by
  simp [State.exited]

theorem pnl_append : (State.mk book (events ++ [e])).pnl key =
    (State.mk book events).pnl key + e.pnlOf key := by
  simp [State.pnl]

end Sums

theorem Event.of_key_ne {e : Event} (h : key ≠ e.key) :
    e.allocatedOf key = 0 ∧ e.exitedOf key = 0 ∧ e.pnlOf key = 0 := by
  cases e with
  | allocated key' quantity => exact ⟨if_neg (Ne.symm h), rfl, rfl⟩
  | exited key' quantity pnl => exact ⟨rfl, if_neg (Ne.symm h), if_neg (Ne.symm h)⟩

/-- An event of another lot changes no sum. -/
theorem lotConserved_append {book : OwnershipBook} {e : Event} (h : key ≠ e.key) :
    LotConserved ⟨book, s.events ++ [e]⟩ key lot ↔ LotConserved s key lot := by
  obtain ⟨hallocated, hexited, hpnl⟩ := Event.of_key_ne h
  have ha : (State.mk book (s.events ++ [e])).allocated key = s.allocated key := by
    rw [allocated_append, hallocated, add_zero]
    rfl
  have he : (State.mk book (s.events ++ [e])).exited key = s.exited key := by
    rw [exited_append, hexited, add_zero]
    rfl
  have hp : (State.mk book (s.events ++ [e])).pnl key = s.pnl key := by
    rw [pnl_append, hpnl, add_zero]
    rfl
  constructor
  · rintro ⟨h1, h2, h3, h4⟩
    rw [ha, he] at h1
    rw [ha] at h2
    rw [hp] at h4
    exact ⟨h1, h2, h3, h4⟩
  · rintro ⟨h1, h2, h3, h4⟩
    refine ⟨?_, ?_, h3, ?_⟩
    · rw [ha, he, h1]
    · rw [ha]
      exact h2
    · rw [hp, h4]

/-- **One lot written**: the book is conserved if this lot is. -/
theorem conserved_insert (hs : Conserved s) (e : Event) :
    Conserved ⟨s.book.insert e.key lot, s.events ++ [e]⟩ ↔
      LotConserved ⟨s.book.insert e.key lot, s.events ++ [e]⟩ e.key lot := by
  constructor
  · intro h
    exact h e.key lot (AList.lookup_insert _)
  · intro h key lot' hlookup
    by_cases hkey : key = e.key
    · subst hkey
      obtain rfl : lot = lot' := by simpa using hlookup
      exact h
    · rw [AList.lookup_insert_ne hkey] at hlookup
      exact (lotConserved_append hkey).mpr (hs key lot' hlookup)

theorem Blank.insert (hs : Blank s) (e : Event) :
    Blank ⟨s.book.insert e.key lot, s.events ++ [e]⟩ := by
  intro key hlookup
  have hkey : key ≠ e.key := by
    rintro rfl
    simp at hlookup
  obtain ⟨hallocated, hexited, hpnl⟩ := Event.of_key_ne hkey
  rw [AList.lookup_insert_ne hkey] at hlookup
  rw [allocated_append, exited_append, pnl_append, hallocated, hexited, hpnl, add_zero, add_zero,
    add_zero]
  exact hs key hlookup

variable [DecimalContext]

theorem perform_allocate (s : State) (strategyId symbol : String) (quantity costBasis : ℚ) :
    s.perform (.allocate strategyId symbol quantity costBasis) =
      ⟨s.book.insert (strategyId, symbol) ⟨strategyId, symbol, quantity, costBasis, 0⟩,
        s.events ++ [.allocated (strategyId, symbol) quantity]⟩ := rfl

/-- An exit of what the lot holds. -/
theorem perform_exit (price : ℚ) (h : s.book.lookup (strategyId, symbol) = some lot)
    (hle : quantity ≤ lot.quantity) :
    s.perform (.exit strategyId symbol quantity price) =
      ⟨s.book.insert (strategyId, symbol) { lot with
          quantity := fix (lot.quantity - quantity)
          realizedPnl := fix (lot.realizedPnl + lot.pnlOf quantity price) },
        s.events ++ [.exited (strategyId, symbol) quantity (lot.pnlOf quantity price)]⟩ := by
  simp only [State.perform, OwnershipBook.exit, h, not_lt.mpr hle, if_false]

/-- Any other exit raises. -/
theorem perform_exit_of_refused (price : ℚ)
    (h : ∀ lot, s.book.lookup (strategyId, symbol) = some lot → ¬ quantity ≤ lot.quantity) :
    s.perform (.exit strategyId symbol quantity price) = s := by
  cases hlookup : s.book.lookup (strategyId, symbol) with
  | none => simp only [State.perform, OwnershipBook.exit, hlookup]
  | some lot =>
    have hlt : lot.quantity < quantity := not_le.mp (h lot hlookup)
    simp only [State.perform, OwnershipBook.exit, hlookup, hlt, if_true]

/-- **An allocation** conserves exactly under the condition. -/
theorem conserved_allocate (hs : Conserved s) (hblank : Blank s) (costBasis : ℚ) :
    Conserved (s.perform (.allocate strategyId symbol quantity costBasis)) ↔
      Meets s (.allocate strategyId symbol quantity costBasis) := by
  rw [perform_allocate]
  refine (conserved_insert hs (.allocated (strategyId, symbol) quantity)).trans ?_
  have ha : ∀ book, (State.mk book (s.events ++
      [Event.allocated (strategyId, symbol) quantity])).allocated (strategyId, symbol) =
      s.allocated (strategyId, symbol) + quantity := fun book =>
    (allocated_append _ _ _).trans (congrArg _ (if_pos rfl))
  have he : ∀ book, (State.mk book (s.events ++
      [Event.allocated (strategyId, symbol) quantity])).exited (strategyId, symbol) =
      s.exited (strategyId, symbol) := fun book => (exited_append _ _ _).trans (add_zero _)
  have hp : ∀ book, (State.mk book (s.events ++
      [Event.allocated (strategyId, symbol) quantity])).pnl (strategyId, symbol) =
      s.pnl (strategyId, symbol) := fun book => (pnl_append _ _ _).trans (add_zero _)
  constructor
  · rintro ⟨h1, -, h3, h4⟩
    rw [Event.key, ha, he] at h1
    rw [Event.key, hp] at h4
    refine ⟨h3, fun lot hlot => ?_⟩
    obtain ⟨hquantity, -, -, hpnl⟩ := hs _ lot hlot
    exact ⟨by linarith, by rw [hpnl, ← h4]⟩
  · rintro ⟨hzero, hold⟩
    cases hlookup : s.book.lookup (strategyId, symbol) with
    | none =>
      obtain ⟨hallocated, hexited, hpnl⟩ := hblank _ hlookup
      refine ⟨?_, ?_, hzero, ?_⟩
      · rw [Event.key, ha, he, hallocated, hexited]
        ring
      · rw [Event.key, ha, hallocated, zero_add]
      · rw [Event.key, hp, hpnl]
    | some lot =>
      obtain ⟨hempty, hnopnl⟩ := hold lot hlookup
      obtain ⟨hquantity, hle, hnonneg, hpnl⟩ := hs _ lot hlookup
      refine ⟨?_, ?_, hzero, ?_⟩
      · rw [Event.key, ha, he]
        linarith
      · rw [Event.key, ha]
        linarith
      · rw [Event.key, hp, ← hpnl, hnopnl]

/-- **An exit** conserves exactly under the condition. -/
theorem conserved_exit (hs : Conserved s) (price : ℚ) :
    Conserved (s.perform (.exit strategyId symbol quantity price)) ↔
      Meets s (.exit strategyId symbol quantity price) := by
  by_cases hheld : ∃ lot, s.book.lookup (strategyId, symbol) = some lot ∧ quantity ≤ lot.quantity
  swap
  · push Not at hheld
    rw [perform_exit_of_refused price fun lot hlot => not_le.mpr (hheld lot hlot)]
    exact iff_of_true hs fun lot hlot hle => absurd hle (not_le.mpr (hheld lot hlot))
  obtain ⟨lot, hlot, hle⟩ := hheld
  obtain ⟨hquantity, -, -, hpnl⟩ := hs _ lot hlot
  rw [perform_exit price hlot hle]
  refine (conserved_insert hs
    (.exited (strategyId, symbol) quantity (lot.pnlOf quantity price))).trans ?_
  have ha : ∀ book, (State.mk book (s.events ++ [Event.exited (strategyId, symbol) quantity
      (lot.pnlOf quantity price)])).allocated (strategyId, symbol) =
      s.allocated (strategyId, symbol) := fun book => (allocated_append _ _ _).trans (add_zero _)
  have he : ∀ book, (State.mk book (s.events ++ [Event.exited (strategyId, symbol) quantity
      (lot.pnlOf quantity price)])).exited (strategyId, symbol) =
      s.exited (strategyId, symbol) + quantity := fun book =>
    (exited_append _ _ _).trans (congrArg _ (if_pos rfl))
  have hp : ∀ book, (State.mk book (s.events ++ [Event.exited (strategyId, symbol) quantity
      (lot.pnlOf quantity price)])).pnl (strategyId, symbol) =
      s.pnl (strategyId, symbol) + lot.pnlOf quantity price := fun book =>
    (pnl_append _ _ _).trans (congrArg _ (if_pos rfl))
  constructor
  · rintro ⟨h1, h2, -, h4⟩ lot' hlot' -
    obtain rfl := Option.some.inj (hlot.symm.trans hlot')
    rw [Event.key, ha, he] at h1
    rw [Event.key, ha] at h2
    rw [Event.key, hp] at h4
    exact ⟨by linarith, by linarith, h4.trans (congrArg (· + _) hpnl.symm)⟩
  · intro hmeets
    obtain ⟨hexited, hexact, hkept⟩ := hmeets lot hlot hle
    refine ⟨?_, ?_, ?_, ?_⟩
    · rw [Event.key, ha, he]
      linarith
    · rw [Event.key, ha]
      linarith
    · exact (sub_nonneg.mpr hle).trans_eq hexact.symm
    · rw [Event.key, hp, hkept, hpnl]

theorem Blank.perform (hs : Blank s) (call : Call) : Blank (s.perform call) := by
  cases call with
  | allocate strategyId symbol quantity costBasis =>
    exact hs.insert (.allocated (strategyId, symbol) quantity)
  | exit strategyId symbol quantity price =>
    by_cases hheld : ∃ lot, s.book.lookup (strategyId, symbol) = some lot ∧ quantity ≤ lot.quantity
    · obtain ⟨lot, hlot, hle⟩ := hheld
      rw [perform_exit price hlot hle]
      exact hs.insert (.exited (strategyId, symbol) quantity (lot.pnlOf quantity price))
    · push Not at hheld
      rw [perform_exit_of_refused price fun lot hlot => not_le.mpr (hheld lot hlot)]
      exact hs

theorem conserved_perform (hs : Conserved s) (hblank : Blank s) (call : Call) :
    Conserved (s.perform call) ↔ Meets s call := by
  cases call with
  | allocate strategyId symbol quantity costBasis => exact conserved_allocate hs hblank costBasis
  | exit strategyId symbol quantity price => exact conserved_exit hs price

end Step

/-! ## 4. All the calls -/

section

variable [DecimalContext]

theorem play_concat (calls : List Call) (call : Call) :
    play (calls ++ [call]) = (play calls).perform call := List.foldl_append

theorem conserved_nil : Conserved (play []) := by
  intro key lot hlookup
  exact absurd hlookup (by simp [play])

theorem blank_play (calls : List Call) : Blank (play calls) := by
  induction calls using List.reverseRecOn with
  | nil =>
    intro key hlookup
    exact ⟨rfl, rfl, rfl⟩
  | append_singleton calls call ih =>
    rw [play_concat]
    exact ih.perform call

/-- **The book conserves exposure in a run exactly if every call meets the condition.** -/
theorem ownership_conserves_iff (calls : List Call) :
    (∀ done, done <+: calls → Conserved (play done)) ↔
      ∀ done call, done ++ [call] <+: calls → Meets (play done) call := by
  constructor
  · intro h done call hdone
    have hbefore : Conserved (play done) := h done ((List.prefix_append done [call]).trans hdone)
    have hafter : Conserved (play (done ++ [call])) := h _ hdone
    rw [play_concat] at hafter
    exact (conserved_perform hbefore (blank_play done) call).mp hafter
  · intro h done
    -- the calls up to here have all met the condition
    induction done using List.reverseRecOn with
    | nil =>
      intro _
      exact conserved_nil
    | append_singleton done call ih =>
      intro hdone
      have hbefore : Conserved (play done) := ih ((List.prefix_append done [call]).trans hdone)
      rw [play_concat]
      exact (conserved_perform hbefore (blank_play done) call).mpr (h done call hdone)

end

section

attribute [local instance] defaultContext

/-- `allocate("s1", "BTC", 1, 100)`, twice. -/
def twice : List Call := [.allocate "s1" "BTC" 1 100, .allocate "s1" "BTC" 1 100]

theorem allocated_twice : ¬ Conserved (play twice) := by
  intro h
  have hlot : (play twice).book.lookup ("s1", "BTC") = some ⟨"s1", "BTC", 1, 100, 0⟩ := by
    decide
  have heq : (1 : ℚ) = (play twice).allocated ("s1", "BTC") - (play twice).exited ("s1", "BTC") :=
    (h _ _ hlot).quantity_eq
  exact absurd heq (by decide +kernel)

end

end Kripto.Execution.Ownership
