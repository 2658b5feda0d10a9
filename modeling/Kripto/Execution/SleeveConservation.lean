/-
# Sleeves conserve quantity and money

* `sleeves_conserve`: after any calls, the quantities of the lots are not negative, the position of
  the account is the sum of the sleeves and what was opened less what was closed, and without
  hedging the open lots of a symbol are on one side.  A call that raises leaves the book as it was.
  `close` takes its quantity from the lots of the calling strategy, first in, first out, and returns
  their profit less the fee and the funding.
* `reconcile_consistent_iff`: the position of the exchange with which a book is consistent.
-/
import Kripto.Effect.Fifo
import Kripto.Execution.Sleeves
import Mathlib.Algebra.BigOperators.Group.Finset.Piecewise
import Mathlib.Tactic.Linarith
import Mathlib.Tactic.Ring

namespace Kripto.Execution.Sleeves

open Effect StrategySleeveBook

variable {upper : String → String}

/-! ## 1. The statement -/

/-- A quantity with the sign of its side, as the caller writes it. -/
def signedText (side : String) (quantity : ℚ) : ℚ :=
  match positionSide side with
  | .ok side => side.signed quantity
  | .error _ => 0

/-- What a call opens of a symbol. -/
def openedQuantity (upper : String → String) (symbol : String) : Call → ℚ
  | .allocateFill _ fill =>
    if upper fill.symbol = upper symbol then signedText (upper fill.side) fill.quantity else 0
  | _ => 0

/-- What it closes. -/
def closedQuantity (upper : String → String) (symbol : String) : Call → ℚ
  | .close exit =>
    if upper exit.symbol = upper symbol then signedText (upper exit.side) exit.quantity else 0
  | _ => 0

/-- No symbol has open lots on both sides. -/
def OneSided (lots : List StrategyAllocationLot) : Prop :=
  ∀ lot ∈ lots, ∀ lot' ∈ lots, lot.symbol = lot'.symbol → 0 < lot.quantity → 0 < lot'.quantity →
    lot.side = lot'.side

/-- The book is in order, after the calls that have not raised. -/
structure Conserved (upper : String → String) (hedging : Bool) (book : StrategySleeveBook)
    (accepted : List Call) : Prop where
  nonneg : ∀ lot ∈ book.lots, 0 ≤ lot.quantity
  sleeves : ∀ symbol, book.accountNetPosition upper symbol =
    ∑ strategyId ∈ (book.lots.map (·.strategyId)).toFinset,
      book.strategyVirtualSleeve upper strategyId symbol
  net : ∀ symbol, book.accountNetPosition upper symbol =
    (accepted.map (openedQuantity upper symbol)).sum -
      (accepted.map (closedQuantity upper symbol)).sum
  oneSided : hedging = false → OneSided book.lots

/-- What `close` has done: `taken` is taken from the lots, one after the other. -/
structure FirstInFirstOut (upper : String → String) (book book' : StrategySleeveBook) (exit : Exit)
    (side : PositionSide) (taken : List ℚ) (value : ℚ) : Prop where
  length : taken.length = book.lots.length
  book_eq : book' = { book with
    lots := (book.lots.zip taken).map fun x => closePart exit side x.1 x.2 }
  bounds : ∀ x ∈ book.lots.zip taken, 0 ≤ x.2 ∧ x.2 ≤ x.1.quantity
  own : ∀ x ∈ book.lots.zip taken, x.2 ≠ 0 → x.1.strategyId = exit.strategyId ∧
    x.1.symbol = upper exit.symbol ∧ x.1.side = side
  inOrder : (book.lots.zip taken).Pairwise fun x y =>
    isOpenLot upper exit.strategyId exit.symbol side x.1 → 0 < y.2 → x.2 = x.1.quantity
  total : taken.sum = exit.quantity
  value_eq : value = ((book.lots.zip taken).map fun x =>
    side.signed ((exit.exitPrice - x.1.entryPrice) * x.2)).sum - exit.exitFee - exit.funding

/-! ## 2. What `close` takes -/

section Close

variable {exit : Exit} {side : PositionSide} {lots : List StrategyAllocationLot}
  {isCandidate : StrategyAllocationLot → Bool} {left : ℚ}

@[simp] theorem signed_zero (side : PositionSide) : side.signed 0 = 0 := by
  cases side <;> simp [PositionSide.signed]

theorem signed_add (side : PositionSide) (a b : ℚ) :
    side.signed (a + b) = side.signed a + side.signed b := by
  cases side
  · rfl
  · simp only [PositionSide.signed]
    ring

theorem signed_sub (side : PositionSide) (a b : ℚ) :
    side.signed (a - b) = side.signed a - side.signed b := by
  cases side
  · rfl
  · simp only [PositionSide.signed]
    ring

/-- Taking nothing changes nothing. -/
@[simp] theorem closePart_zero (exit : Exit) (side : PositionSide) (lot : StrategyAllocationLot) :
    closePart exit side lot 0 = lot := by
  simp [closePart, pnlOf]

@[simp] theorem pnlOf_zero (exit : Exit) (side : PositionSide) (lot : StrategyAllocationLot) :
    pnlOf exit side lot 0 = 0 := by
  simp [pnlOf]

/-- The quantities that the loop takes. -/
def takenFrom (isCandidate : StrategyAllocationLot → Bool) (lots : List StrategyAllocationLot)
    (quantity : ℚ) : List ℚ :=
  shares isCandidate (·.quantity) lots quantity

/-- The lots after `taken` was taken from them. -/
def lotsAfter (exit : Exit) (side : PositionSide) (lots : List StrategyAllocationLot)
    (taken : List ℚ) : List StrategyAllocationLot :=
  (lots.zip taken).map fun x => closePart exit side x.1 x.2

def profit (exit : Exit) (side : PositionSide) (lots : List StrategyAllocationLot)
    (taken : List ℚ) : ℚ :=
  ((lots.zip taken).map fun x => pnlOf exit side x.1 x.2).sum

/-- Nothing is taken from lots, and they stay. -/
theorem lotsAfter_of_zero {taken : List ℚ} (hlength : taken.length = lots.length)
    (h : ∀ c ∈ taken, c = 0) :
    lotsAfter exit side lots taken = lots ∧ profit exit side lots taken = 0 := by
  unfold lotsAfter profit
  induction lots generalizing taken with
  | nil => exact ⟨rfl, rfl⟩
  | cons lot lots ih =>
    cases taken with
    | nil => cases hlength
    | cons c taken =>
      obtain rfl : c = 0 := h c List.mem_cons_self
      obtain ⟨hlots, hsum⟩ := ih (Nat.succ.inj hlength) fun c hc => h c (List.mem_cons_of_mem _ hc)
      simp [hlots, hsum]

/-- **The loop** takes the shares, first in, first out. -/
theorem closeLots_eq (hlots : ∀ lot ∈ lots, isCandidate lot → 0 ≤ lot.quantity) (hleft : 0 ≤ left) :
    closeLots exit side isCandidate lots left =
      (lotsAfter exit side lots (takenFrom isCandidate lots left),
        profit exit side lots (takenFrom isCandidate lots left)) := by
  induction lots generalizing left with
  | nil => rfl
  | cons lot lots ih =>
    have hrest : ∀ lot ∈ lots, isCandidate lot → 0 ≤ lot.quantity := fun l hl =>
      hlots l (List.mem_cons_of_mem lot hl)
    rw [closeLots, takenFrom, shares]
    by_cases hcandidate : isCandidate lot = true
    · simp only [hcandidate, not_true_eq_false, if_false, if_true]
      by_cases hdone : left ≤ 0
      · -- The loop ends; what it has not gone through stays.
        obtain rfl : left = 0 := le_antisymm hdone hleft
        have hmin : min lot.quantity 0 = 0 := min_eq_right (hlots lot List.mem_cons_self hcandidate)
        have hstay : lotsAfter exit side lots (takenFrom isCandidate lots 0) = lots ∧
            profit exit side lots (takenFrom isCandidate lots 0) = 0 :=
          lotsAfter_of_zero (length_shares lots 0) (shares_zero hrest)
        rw [takenFrom, lotsAfter, profit] at hstay
        simp [hmin, lotsAfter, profit, hstay.1, hstay.2]
      · rw [if_neg hdone, ih hrest (sub_nonneg.mpr (min_le_right _ _))]
        simp [takenFrom, lotsAfter, profit]
    · simp only [hcandidate, Bool.false_eq_true, not_false_eq_true, if_true, if_false]
      rw [ih hrest hleft]
      simp [takenFrom, lotsAfter, profit]

/-- The shares of the fee and the funding are the whole fee and the whole funding. -/
theorem profit_eq {taken : List ℚ} (hlength : taken.length = lots.length)
    (hquantity : exit.quantity ≠ 0) (htotal : taken.sum = exit.quantity) :
    profit exit side lots taken = ((lots.zip taken).map fun x =>
      side.signed ((exit.exitPrice - x.1.entryPrice) * x.2)).sum - exit.exitFee - exit.funding := by
  have hparts : profit exit side lots taken = ((lots.zip taken).map fun x =>
      side.signed ((exit.exitPrice - x.1.entryPrice) * x.2)).sum -
        exit.exitFee * (taken.sum / exit.quantity) - exit.funding * (taken.sum / exit.quantity) := by
    clear htotal
    unfold profit
    induction lots generalizing taken with
    | nil =>
      cases taken with
      | nil => simp
      | cons c taken => cases hlength
    | cons lot lots ih =>
      cases taken with
      | nil => cases hlength
      | cons c taken =>
        rw [List.zip_cons_cons, List.map_cons, List.map_cons, List.sum_cons, List.sum_cons,
          List.sum_cons, ih (Nat.succ.inj hlength), pnlOf]
        ring
  rw [hparts, htotal, div_self hquantity, mul_one, mul_one]

/-- What a call of `close` that returns has found and done. -/
theorem close_eq_ok {book book' : StrategySleeveBook} {value : ℚ}
    (h : book.close upper exit = (.ok value, book')) :
    ∃ side, positionSide (upper exit.side) = .ok side ∧ 0 < exit.quantity ∧
      exit.quantity ≤ ((book.lots.filter
        (isOpenLot upper exit.strategyId exit.symbol side)).map (·.quantity)).sum ∧
      closeLots exit side (isOpenLot upper exit.strategyId exit.symbol side) book.lots
        exit.quantity = (book'.lots, value) ∧ book' = { book with lots := book'.lots } := by
  unfold close at h
  cases hside : positionSide (upper exit.side) with
  | error e =>
    rw [hside] at h
    cases (Prod.mk.inj h).1
  | ok side =>
    rw [hside] at h
    simp only at h
    split at h
    · cases (Prod.mk.inj h).1
    rename_i hpositive
    split at h
    · cases (Prod.mk.inj h).1
    rename_i havailable
    obtain ⟨hvalue, rfl⟩ := Prod.mk.inj h
    rw [not_or, not_le, not_le] at hpositive
    exact ⟨side, rfl, hpositive.1, not_lt.mp havailable,
      Prod.ext rfl (Except.ok.inj hvalue), rfl⟩

theorem quantity_of_isOpenLot {lot : StrategyAllocationLot} {strategyId symbol : String}
    (h : isOpenLot upper strategyId symbol side lot) : lot.strategyId = strategyId ∧
      lot.symbol = upper symbol ∧ lot.side = side ∧ 0 < lot.quantity := by
  simpa [isOpenLot] using h

/-- **A call of `close` that returns** has taken the lots of the strategy first in, first out. -/
theorem close_firstInFirstOut {book book' : StrategySleeveBook} {value : ℚ}
    (hnonneg : ∀ lot ∈ book.lots, 0 ≤ lot.quantity)
    (h : book.close upper exit = (.ok value, book')) :
    ∃ side taken, positionSide (upper exit.side) = .ok side ∧
      FirstInFirstOut upper book book' exit side taken value := by
  obtain ⟨side, hside, hpositive, havailable, hclosed, hbook⟩ := close_eq_ok h
  have hlots : ∀ lot ∈ book.lots, isOpenLot upper exit.strategyId exit.symbol side lot →
      0 ≤ lot.quantity := fun lot hlot _ => hnonneg lot hlot
  rw [closeLots_eq hlots hpositive.le] at hclosed
  obtain ⟨hafter, hvalue⟩ := Prod.mk.inj hclosed
  have hlength : (takenFrom (isOpenLot upper exit.strategyId exit.symbol side) book.lots
      exit.quantity).length = book.lots.length := length_shares _ _
  have htotal := sum_shares hlots hpositive.le havailable
  refine ⟨side, _, hside, hlength, ?_, ?_, ?_, shares_fifo hlots, htotal, ?_⟩
  · rw [hbook, ← hafter, lotsAfter]
  · intro x hx
    obtain ⟨hzero, hle⟩ := shares_bounds hlots hpositive.le hx
    refine ⟨hzero, ?_⟩
    split at hle
    · exact hle
    · rw [hle]
      exact hnonneg x.1 (List.of_mem_zip hx).1
  · intro x hx htaken
    obtain ⟨-, hown⟩ := shares_bounds hlots hpositive.le hx
    split at hown
    · rename_i hopen
      obtain ⟨hstrategy, hsymbol, hsame, -⟩ := quantity_of_isOpenLot hopen
      exact ⟨hstrategy, hsymbol, hsame⟩
    · exact absurd hown htaken
  · rw [← hvalue, profit_eq hlength hpositive.ne' htotal]

end Close

/-! ## 3. One call -/

/-- What a sequence of calls keeps of the lots. -/
structure InOrder (hedging : Bool) (lots : List StrategyAllocationLot) : Prop where
  nonneg : ∀ lot ∈ lots, 0 ≤ lot.quantity
  oneSided : hedging = false → OneSided lots

/-- The signed quantity of a symbol. -/
def net (symbol : String) (lots : List StrategyAllocationLot) : ℚ :=
  ((lots.filter fun lot => lot.symbol = symbol).map (·.signedQuantity)).sum

section Net

variable {exit : Exit} {side : PositionSide} {lots : List StrategyAllocationLot} {symbol : String}
  {lot : StrategyAllocationLot}

theorem net_cons (symbol : String) (lot : StrategyAllocationLot)
    (lots : List StrategyAllocationLot) : net symbol (lot :: lots) =
      (if lot.symbol = symbol then lot.signedQuantity else 0) + net symbol lots := by
  unfold net
  by_cases h : lot.symbol = symbol
  · rw [List.filter_cons_of_pos (by simpa using h), List.map_cons, List.sum_cons, if_pos h]
  · rw [List.filter_cons_of_neg (by simpa using h), if_neg h, zero_add]

theorem net_append (symbol : String) (lots : List StrategyAllocationLot)
    (lot : StrategyAllocationLot) : net symbol (lots ++ [lot]) =
      net symbol lots + if lot.symbol = symbol then lot.signedQuantity else 0 := by
  induction lots with
  | nil => rw [List.nil_append, net_cons, add_comm]
  | cons l lots ih => rw [List.cons_append, net_cons, net_cons, ih, add_assoc]

/-- What is taken from lots of one symbol and one side, their net quantity loses. -/
theorem net_lotsAfter {taken : List ℚ} {closed : String} (hlength : taken.length = lots.length)
    (hown : ∀ x ∈ lots.zip taken, x.2 ≠ 0 → x.1.symbol = closed ∧ x.1.side = side) :
    net symbol (lotsAfter exit side lots taken) =
      net symbol lots - if closed = symbol then side.signed taken.sum else 0 := by
  unfold lotsAfter
  induction lots generalizing taken with
  | nil =>
    cases taken with
    | nil => simp [net]
    | cons c taken => cases hlength
  | cons lot lots ih =>
    cases taken with
    | nil => cases hlength
    | cons c taken =>
      have hrest := ih (Nat.succ.inj hlength) fun x hx => hown x (List.mem_cons_of_mem _ hx)
      rw [List.zip_cons_cons, List.map_cons, net_cons, net_cons, hrest, List.sum_cons]
      by_cases hc : c = 0
      · simp only [hc, closePart_zero, zero_add]
        ring
      · obtain ⟨rfl, rfl⟩ := hown (lot, c) List.mem_cons_self hc
        by_cases hsymbol : lot.symbol = symbol
        · simp only [closePart, hsymbol, if_true, StrategyAllocationLot.signedQuantity, signed_sub,
            signed_add]
          ring
        · simp only [closePart, hsymbol, if_false]
          ring

theorem net_setStrategy (lotId toStrategy : String) :
    net symbol (setStrategy lotId toStrategy lots) = net symbol lots := by
  induction lots with
  | nil => rfl
  | cons lot lots ih =>
    rw [setStrategy]
    split
    · rw [net_cons, net_cons]
      rfl
    · rw [net_cons, net_cons, ih]

/-- What has become of the lots keeps symbols and sides, and no quantity has grown. -/
def Shrunk (lots lots' : List StrategyAllocationLot) : Prop :=
  ∀ lot' ∈ lots', ∃ lot ∈ lots, lot'.symbol = lot.symbol ∧ lot'.side = lot.side ∧
    0 ≤ lot'.quantity ∧ lot'.quantity ≤ lot.quantity

theorem InOrder.shrunk {hedging : Bool} {lots' : List StrategyAllocationLot}
    (h : InOrder hedging lots) (hshrunk : Shrunk lots lots') : InOrder hedging lots' := by
  constructor
  · intro lot hlot
    obtain ⟨-, -, -, -, hzero, -⟩ := hshrunk lot hlot
    exact hzero
  · intro hhedging lot hlot lot' hlot' hsymbol hopen hopen'
    obtain ⟨l, hl, hs, hside, -, hle⟩ := hshrunk lot hlot
    obtain ⟨l', hl', hs', hside', -, hle'⟩ := hshrunk lot' hlot'
    rw [hside, hside']
    exact h.oneSided hhedging l hl l' hl' (by rw [← hs, ← hs', hsymbol]) (hopen.trans_le hle)
      (hopen'.trans_le hle')

theorem shrunk_lotsAfter {taken : List ℚ}
    (hbounds : ∀ x ∈ lots.zip taken, 0 ≤ x.2 ∧ x.2 ≤ x.1.quantity) :
    Shrunk lots (lotsAfter exit side lots taken) := by
  intro lot' hlot'
  obtain ⟨x, hx, rfl⟩ := List.mem_map.mp hlot'
  obtain ⟨hzero, hle⟩ := hbounds x hx
  exact ⟨x.1, (List.of_mem_zip hx).1, rfl, rfl, sub_nonneg.mpr hle, sub_le_self _ hzero⟩

theorem shrunk_setStrategy (hnonneg : ∀ lot ∈ lots, 0 ≤ lot.quantity)
    (lotId toStrategy : String) : Shrunk lots (setStrategy lotId toStrategy lots) := by
  induction lots with
  | nil => intro lot' hlot'; cases hlot'
  | cons lot lots ih =>
    have hrest := ih fun l hl => hnonneg l (List.mem_cons_of_mem lot hl)
    intro lot' hlot'
    rw [setStrategy] at hlot'
    split at hlot'
    · rcases List.mem_cons.mp hlot' with rfl | hlater
      · exact ⟨lot, List.mem_cons_self, rfl, rfl, hnonneg lot List.mem_cons_self, le_rfl⟩
      · exact ⟨lot', List.mem_cons_of_mem lot hlater, rfl, rfl,
          hnonneg lot' (List.mem_cons_of_mem lot hlater), le_rfl⟩
    · rcases List.mem_cons.mp hlot' with rfl | hlater
      · exact ⟨lot', List.mem_cons_self, rfl, rfl, hnonneg lot' List.mem_cons_self, le_rfl⟩
      · obtain ⟨l, hl, hsame⟩ := hrest lot' hlater
        exact ⟨l, List.mem_cons_of_mem lot hl, hsame⟩

/-- A new lot that meets no open lot on the other side. -/
theorem InOrder.append {hedging : Bool} (h : InOrder hedging lots) (hzero : 0 ≤ lot.quantity)
    (hfree : hedging = false → ¬ ∃ l ∈ lots, l.symbol = lot.symbol ∧ 0 < l.quantity ∧
      l.side = lot.side.opposite) : InOrder hedging (lots ++ [lot]) := by
  have hside : hedging = false → ∀ l ∈ lots, l.symbol = lot.symbol → 0 < l.quantity →
      l.side = lot.side := by
    intro hhedging l hl hsymbol hopen
    by_contra hother
    refine hfree hhedging ⟨l, hl, hsymbol, hopen, ?_⟩
    revert hother
    cases l.side <;> cases lot.side <;> simp [PositionSide.opposite]
  constructor
  · intro l hl
    rcases List.mem_append.mp hl with hold | hnew
    · exact h.nonneg l hold
    · rw [List.mem_singleton.mp hnew]
      exact hzero
  · intro hhedging l hl l' hl' hsymbol hopen hopen'
    rcases List.mem_append.mp hl with hold | hnew <;>
      rcases List.mem_append.mp hl' with hold' | hnew'
    · exact h.oneSided hhedging l hold l' hold' hsymbol hopen hopen'
    · obtain rfl := List.mem_singleton.mp hnew'
      exact hside hhedging l hold hsymbol hopen
    · obtain rfl := List.mem_singleton.mp hnew
      exact (hside hhedging l' hold' hsymbol.symm hopen').symm
    · rw [List.mem_singleton.mp hnew, List.mem_singleton.mp hnew']

end Net

section Perform

variable {book book' : StrategySleeveBook} {call : Call} {answer : Except Exc Unit}

/-- **A call that raises** leaves the book as it was. -/
theorem unchanged_of_error {e : Exc} (h : book.perform upper call = (.error e, book')) :
    book' = book := by
  cases call with
  | allocateFill lotId fill =>
    simp only [StrategySleeveBook.perform, allocateFill] at h
    split at h
    · exact (Prod.mk.inj h).2.symm
    split at h
    · exact (Prod.mk.inj h).2.symm
    split at h
    · exact (Prod.mk.inj h).2.symm
    split at h
    · exact (Prod.mk.inj h).2.symm
    · cases (Prod.mk.inj h).1
  | close exit =>
    simp only [StrategySleeveBook.perform, close] at h
    split at h
    · exact (Prod.mk.inj h).2.symm
    split at h
    · exact (Prod.mk.inj h).2.symm
    split at h
    · exact (Prod.mk.inj h).2.symm
    · cases (Prod.mk.inj h).1
  | transferOwnership lotId fromStrategy toStrategy =>
    simp only [StrategySleeveBook.perform, transferOwnership] at h
    split at h
    · exact (Prod.mk.inj h).2.symm
    split at h
    · exact (Prod.mk.inj h).2.symm
    split at h
    · exact (Prod.mk.inj h).2.symm
    · cases (Prod.mk.inj h).1

/-- What a call of `allocate_fill` that returns has found and done. -/
theorem allocateFill_eq_ok {lotId : String} {fill : Fill} {lot : StrategyAllocationLot}
    (h : book.allocateFill upper lotId fill = (.ok lot, book')) :
    ∃ side, positionSide (upper fill.side) = .ok side ∧ 0 < fill.quantity ∧
      (book.hedgingSupported = false → ¬ ∃ l ∈ book.lots, l.symbol = upper fill.symbol ∧
        0 < l.quantity ∧ l.side = side.opposite) ∧
      lot.symbol = upper fill.symbol ∧ lot.side = side ∧ lot.quantity = fill.quantity ∧
      book' = { book with lots := book.lots ++ [lot] } := by
  unfold allocateFill at h
  split at h
  · cases (Prod.mk.inj h).1
  split at h
  · cases (Prod.mk.inj h).1
  rename_i hpositive
  cases hside : positionSide (upper fill.side) with
  | error e =>
    rw [hside] at h
    cases (Prod.mk.inj h).1
  | ok side =>
    rw [hside] at h
    simp only at h
    split at h
    · cases (Prod.mk.inj h).1
    rename_i hconflict
    obtain ⟨hlot, rfl⟩ := Prod.mk.inj h
    cases hlot
    rw [not_or, not_le, not_le] at hpositive
    exact ⟨side, rfl, hpositive.1, fun hhedging hfound => hconflict ⟨by simp [hhedging], hfound⟩,
      rfl, rfl, rfl, rfl⟩

theorem transferOwnership_eq_ok {lotId fromStrategy toStrategy : String}
    (h : book.transferOwnership lotId fromStrategy toStrategy = (.ok (), book')) :
    book' = { book with lots := setStrategy lotId toStrategy book.lots } := by
  unfold transferOwnership at h
  split at h
  · cases (Prod.mk.inj h).1
  split at h
  · cases (Prod.mk.inj h).1
  split at h
  · cases (Prod.mk.inj h).1
  · exact (Prod.mk.inj h).2.symm

/-- What a call that returns does to the lots and to the net quantity of a symbol. -/
structure Keeps (upper : String → String) (book book' : StrategySleeveBook) (call : Call) :
    Prop where
  hedging : book'.hedgingSupported = book.hedgingSupported
  inOrder : InOrder book'.hedgingSupported book'.lots
  net_eq : ∀ symbol, net (upper symbol) book'.lots = net (upper symbol) book.lots +
    openedQuantity upper symbol call - closedQuantity upper symbol call

theorem keeps_allocateFill (hbook : InOrder book.hedgingSupported book.lots) {lotId : String}
    {fill : Fill} {lot : StrategyAllocationLot}
    (h : book.allocateFill upper lotId fill = (.ok lot, book')) :
    Keeps upper book book' (.allocateFill lotId fill) := by
  obtain ⟨side, hside, hpositive, hfree, hsymbol, hlotSide, hquantity, rfl⟩ := allocateFill_eq_ok h
  have happend : InOrder book.hedgingSupported (book.lots ++ [lot]) := by
    refine hbook.append (hquantity ▸ hpositive.le) ?_
    rw [hsymbol, hlotSide]
    exact hfree
  refine ⟨rfl, happend, fun symbol => ?_⟩
  simp only [net_append, openedQuantity, closedQuantity, signedText, hside, hsymbol,
    StrategyAllocationLot.signedQuantity, hlotSide, hquantity, sub_zero]

theorem keeps_close (hbook : InOrder book.hedgingSupported book.lots) {exit : Exit} {value : ℚ}
    (h : book.close upper exit = (.ok value, book')) : Keeps upper book book' (.close exit) := by
  obtain ⟨side, taken, hside, hfifo⟩ := close_firstInFirstOut hbook.nonneg h
  obtain rfl := hfifo.book_eq
  refine ⟨rfl, hbook.shrunk (shrunk_lotsAfter hfifo.bounds), fun symbol => ?_⟩
  have hown : ∀ x ∈ book.lots.zip taken, x.2 ≠ 0 → x.1.symbol = upper exit.symbol ∧
      x.1.side = side := fun x hx htaken => (hfifo.own x hx htaken).2
  have hnet : net (upper symbol) (lotsAfter exit side book.lots taken) = _ :=
    net_lotsAfter hfifo.length hown
  rw [lotsAfter] at hnet
  rw [hnet, hfifo.total]
  simp only [openedQuantity, closedQuantity, signedText, hside, add_zero]

theorem keeps_transferOwnership (hbook : InOrder book.hedgingSupported book.lots)
    {lotId fromStrategy toStrategy : String}
    (h : book.transferOwnership lotId fromStrategy toStrategy = (.ok (), book')) :
    Keeps upper book book' (.transferOwnership lotId fromStrategy toStrategy) := by
  obtain rfl := transferOwnership_eq_ok h
  refine ⟨rfl, hbook.shrunk (shrunk_setStrategy hbook.nonneg lotId toStrategy), fun symbol => ?_⟩
  simp only [net_setStrategy, openedQuantity, closedQuantity, add_zero, sub_zero]

/-- **One call.** -/
theorem keeps_of_ok (hbook : InOrder book.hedgingSupported book.lots)
    (h : book.perform upper call = (.ok (), book')) : Keeps upper book book' call := by
  cases call with
  | allocateFill lotId fill =>
    rcases hresult : book.allocateFill upper lotId fill with ⟨result, left⟩
    simp only [StrategySleeveBook.perform, hresult] at h
    obtain ⟨hanswer, rfl⟩ := Prod.mk.inj h
    cases result with
    | error e => cases hanswer
    | ok lot => exact keeps_allocateFill hbook hresult
  | close exit =>
    rcases hresult : book.close upper exit with ⟨result, left⟩
    simp only [StrategySleeveBook.perform, hresult] at h
    obtain ⟨hanswer, rfl⟩ := Prod.mk.inj h
    cases result with
    | error e => cases hanswer
    | ok value => exact keeps_close hbook hresult
  | transferOwnership lotId fromStrategy toStrategy => exact keeps_transferOwnership hbook h

end Perform

/-! ## 4. Sequences of calls -/

theorem inOrder_nil {hedging : Bool} : InOrder hedging [] :=
  ⟨fun lot hlot => (by cases hlot), fun _ lot hlot => (by cases hlot)⟩

/-- **After any calls.** -/
theorem play_keeps (upper : String → String) (book : StrategySleeveBook)
    (hbook : InOrder book.hedgingSupported book.lots) (calls : List Call) :
    (book.play upper calls).1.hedgingSupported = book.hedgingSupported ∧
      InOrder book.hedgingSupported (book.play upper calls).1.lots ∧
      ∀ symbol, net (upper symbol) (book.play upper calls).1.lots = net (upper symbol) book.lots +
        ((book.play upper calls).2.map (openedQuantity upper symbol)).sum -
        ((book.play upper calls).2.map (closedQuantity upper symbol)).sum := by
  induction calls generalizing book with
  | nil => exact ⟨rfl, hbook, fun symbol => by simp [play]⟩
  | cons call calls ih =>
    rw [play]
    rcases hperform : book.perform upper call with ⟨answer, book'⟩
    cases answer with
    | error e =>
      obtain rfl := unchanged_of_error hperform
      exact ih _ hbook
    | ok _ =>
      obtain ⟨hhedging, hinOrder, hnet⟩ := keeps_of_ok hbook hperform
      obtain ⟨hhedging', hinOrder', hnet'⟩ := ih _ hinOrder
      rw [hhedging] at hhedging' hinOrder'
      refine ⟨hhedging', hinOrder', fun symbol => ?_⟩
      simp only [Except.isOk, Except.toBool, if_true, List.map_cons, List.sum_cons, hnet', hnet]
      ring

/-- Summed by strategies. -/
theorem net_eq_sum {strategies : Finset String} {lots : List StrategyAllocationLot}
    (symbol : String) (h : ∀ lot ∈ lots, lot.strategyId ∈ strategies) : net symbol lots =
      ∑ strategyId ∈ strategies, ((lots.filter fun lot =>
        lot.strategyId = strategyId ∧ lot.symbol = symbol).map (·.signedQuantity)).sum := by
  induction lots with
  | nil => simp [net]
  | cons lot lots ih =>
    have hsplit : ∀ strategyId, (((lot :: lots).filter fun lot =>
        lot.strategyId = strategyId ∧ lot.symbol = symbol).map (·.signedQuantity)).sum =
        (if lot.strategyId = strategyId then if lot.symbol = symbol then lot.signedQuantity else 0
          else 0) + ((lots.filter fun lot =>
            lot.strategyId = strategyId ∧ lot.symbol = symbol).map (·.signedQuantity)).sum := by
      intro strategyId
      rw [List.filter_cons]
      by_cases hstrategy : lot.strategyId = strategyId <;>
        by_cases hsymbol : lot.symbol = symbol <;> simp [hstrategy, hsymbol]
    simp only [hsplit, Finset.sum_add_distrib, Finset.sum_ite_eq, h lot List.mem_cons_self, if_true]
    rw [net_cons, ih fun l hl => h l (List.mem_cons_of_mem lot hl)]

/-- The sleeves of all strategies that own lots make up the position. -/
theorem accountNetPosition_eq_sum (book : StrategySleeveBook) (symbol : String) :
    book.accountNetPosition upper symbol =
      ∑ strategyId ∈ (book.lots.map (·.strategyId)).toFinset,
        book.strategyVirtualSleeve upper strategyId symbol :=
  net_eq_sum (upper symbol) fun lot hlot =>
    List.mem_toFinset.mpr (List.mem_map.mpr ⟨lot, hlot, rfl⟩)

/-- **After any calls** a book is consistent with just the position that was opened and not closed. -/
theorem reconcile_consistent_iff (upper : String → String) (policy : NettingPolicy)
    (hedging transfers : Bool) (calls : List Call) (symbol : String) (quantity : ℚ) :
    (((play upper ⟨policy, hedging, transfers, []⟩ calls).1.reconcileAccountNet upper symbol
        quantity).consistent = true ↔
      quantity = ((play upper ⟨policy, hedging, transfers, []⟩ calls).2.map
          (openedQuantity upper symbol)).sum -
        ((play upper ⟨policy, hedging, transfers, []⟩ calls).2.map
          (closedQuantity upper symbol)).sum) := by
  have hnet := (play_keeps upper ⟨policy, hedging, transfers, []⟩ inOrder_nil calls).2.2 symbol
  rw [show net (upper symbol) [] = 0 from rfl, zero_add] at hnet
  rw [← hnet]
  exact decide_eq_true_iff

/-- **Sleeves conserve quantity and money.** -/
theorem sleeves_conserve (upper : String → String) (policy : NettingPolicy)
    (hedging transfers : Bool) (calls : List Call) {book : StrategySleeveBook}
    {accepted : List Call}
    (hplay : StrategySleeveBook.play upper ⟨policy, hedging, transfers, []⟩ calls =
      (book, accepted)) :
    Conserved upper hedging book accepted ∧
    (∀ call e book', book.perform upper call = (.error e, book') → book' = book) ∧
    ∀ exit value book', book.close upper exit = (.ok value, book') →
      ∃ side taken, positionSide (upper exit.side) = .ok side ∧
        FirstInFirstOut upper book book' exit side taken value := by
  have hkeeps := play_keeps upper ⟨policy, hedging, transfers, []⟩ inOrder_nil calls
  rw [hplay] at hkeeps
  obtain ⟨-, hinOrder, hnet⟩ := hkeeps
  refine ⟨⟨hinOrder.nonneg, accountNetPosition_eq_sum book, fun symbol => ?_, hinOrder.oneSided⟩,
    fun call e book' => unchanged_of_error,
    fun exit value book' => close_firstInFirstOut hinOrder.nonneg⟩
  rw [← zero_add ((accepted.map (openedQuantity upper symbol)).sum)]
  exact hnet symbol

/-- Two strategies buy, and one of them sells more than its first lot. -/
def twoStrategies : List Call :=
  [.allocateFill "1" ⟨"a", "btc", "long", 1, 100, "o1", "f1", 0, 0⟩,
    .allocateFill "2" ⟨"b", "BTC", "LONG", 2, 110, "o2", "f2", 0, 0⟩,
    .allocateFill "3" ⟨"a", "BTC", "LONG", 3, 120, "o3", "f3", 0, 0⟩,
    .close ⟨"b", "BTC", "LONG", 5, 130, 0, 0⟩, .close ⟨"a", "btc", "long", 2, 130, 1, 0⟩]

theorem sleeves_conserve_twoStrategies : ∃ book accepted,
    StrategySleeveBook.play asciiUpper {} twoStrategies = (book, accepted) ∧
      accepted.length = 4 ∧ Conserved asciiUpper false book accepted := by
  refine ⟨_, _, rfl, by decide +kernel, ?_⟩
  exact (sleeves_conserve asciiUpper .FIFO_PER_STRATEGY false false twoStrategies rfl).1

end Kripto.Execution.Sleeves
