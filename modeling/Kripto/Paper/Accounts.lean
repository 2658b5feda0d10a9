/-
# What a paper position has sold

Runs of `open_long` and `on_quote` on a paper broker.  Each position that was ever opened has an
account of the fills that were made for it.

* `never_oversells`: of each position no more is sold than was opened, it is closed exactly when
  nothing is left, each take-profit level fires once at most and nothing is sold after a stop; the
  error of a negative rest is never raised.
* `net_pnl_iff`: the profit of a closed position is net of all its fees exactly if fills cost no
  fee, or the slippage makes the entry free.

`entry_fee_missing` is a position whose profit leaves out the fee of its opening.
-/
import Kripto.Paper.Quote
import Mathlib.Tactic.Ring

namespace Kripto.Paper

open Effect PaperBroker

/-! ## 1. Runs -/

inductive Call
  | openLong (symbol : String) (qty bid ask stopLoss : ℚ) (takeProfits : TakeProfits)
      (latencyMs : ℤ) (availableQty : Option ℚ)
  | onQuote (symbol : String) (bid : ℚ) (latencyMs : ℤ)

/-- A position with the fills that were made for it, oldest first. -/
structure Account where
  position : PaperPosition
  fills : List PaperFill
  deriving DecidableEq

/-- A broker, the fills of each position it holds, and the positions that were replaced. -/
structure State where
  broker : PaperBroker
  filled : String → List PaperFill
  retired : List Account

namespace State

variable (s : State)

/-- The account of the position that is held for a symbol. -/
def account (symbol : String) : Option Account :=
  (s.broker.positions.lookup symbol).map fun position => ⟨position, s.filled symbol⟩

/-- A position that was ever opened. -/
def Has (a : Account) : Prop := a ∈ s.retired ∨ ∃ symbol, s.account symbol = some a

/-- The fills a call has made. -/
def made (left : PaperBroker) : List PaperFill := left.fills.drop s.broker.fills.length

/-- What a call raises, if it does, and the state it leaves. -/
def perform : Call → Option Exc × State
  | .openLong symbol qty bid ask stopLoss takeProfits latencyMs availableQty =>
    match s.broker.openLong symbol qty bid ask stopLoss takeProfits latencyMs availableQty with
    | (.ok _, left) => (none, ⟨left, Function.update s.filled symbol (s.made left),
        s.retired ++ (s.account symbol).toList⟩)
    | (.error e, left) => (some e,
        ⟨left, Function.update s.filled symbol (s.filled symbol ++ s.made left), s.retired⟩)
  | .onQuote symbol bid latencyMs =>
    match s.broker.onQuote symbol bid latencyMs with
    | (.ok _, left) => (none,
        ⟨left, Function.update s.filled symbol (s.filled symbol ++ s.made left), s.retired⟩)
    | (.error e, left) => (some e,
        ⟨left, Function.update s.filled symbol (s.filled symbol ++ s.made left), s.retired⟩)

end State

/-- The state after some calls on a new broker. -/
def play (feeBps slippageBps : ℚ) (calls : List Call) : State :=
  calls.foldl (fun s call => (s.perform call).2) ⟨{ feeBps, slippageBps }, fun _ => [], []⟩

/-! ## 2. What is conserved -/

namespace Account

variable (a : Account)

def sells : List PaperFill := a.fills.filter (·.side = "SELL")

/-- What was sold of it. -/
def sold : ℚ := (a.sells.map (·.qty)).sum

/-- How often a level has fired. -/
def timesFired (index : ℤ) : ℕ := a.fills.countP (·.reason = "TP" ++ toString (index + 1))

/-- No more is sold than was opened, and each level at most once. -/
structure Conserves : Prop where
  remaining_nonneg : 0 ≤ a.position.remainingQty
  sold_eq : a.sold + a.position.remainingQty = a.position.qty
  closed_iff : a.position.closed = true ↔ a.position.remainingQty = 0
  fired_once : ∀ entry ∈ TakeProfits.levels a.position.takeProfits, a.timesFired entry.1 ≤ 1
  stop_last : ∀ before stop after, a.fills = before ++ stop :: after →
    stop.reason = "STOP_LOSS" → after = []

/-- What the sales brought, less what the opened quantity cost and less all fees. -/
def net : ℚ :=
  (a.sells.map fun made => made.price * made.qty).sum - a.position.entryPrice * a.position.qty -
    (a.fills.map (·.fee)).sum

end Account

/-! ## 3. Sales -/

namespace Account

/-- What holds of an account whichever part of it has been sold. -/
structure Sound (feeBps slippageBps : ℚ) (a : Account) : Prop where
  qty_pos : 0 < a.position.qty
  levels_pos : ∀ entry ∈ TakeProfits.levels a.position.takeProfits, 0 < entry.2.1
  remaining_nonneg : 0 ≤ a.position.remainingQty
  sold_eq : a.sold + a.position.remainingQty = a.position.qty
  fired : ∀ entry ∈ TakeProfits.levels a.position.takeProfits,
    a.timesFired entry.1 ≤ if entry.1 ∈ a.position.triggeredTps then 1 else 0
  pnl_eq : a.position.realizedPnl =
    (a.sells.map fun made => (made.price - a.position.entryPrice) * made.qty - made.fee).sum
  fees_eq : (a.fills.map (·.fee)).sum =
    (a.sells.map (·.fee)).sum + a.position.entryPrice * a.position.qty * feeBps / 10000
  free_iff : a.position.entryPrice = 0 ↔ slippageBps = -10000

/-- The position has not been stopped out. -/
def Running (a : Account) : Prop := ∀ made ∈ a.fills, made.reason ≠ "STOP_LOSS"

variable {feeBps slippageBps : ℚ} {position : PaperPosition} {fills : List PaperFill}
  {made : PaperFill}

theorem sells_append (hside : made.side = "SELL") :
    (Account.mk position (fills ++ [made])).sells = (Account.mk position fills).sells ++ [made] := by
  simp [sells, hside]

/-- **A sale** of a part of what is left, that fires no level a second time. -/
theorem Sound.sell (h : Sound feeBps slippageBps ⟨position, fills⟩) (hside : made.side = "SELL")
    (hle : made.qty ≤ position.remainingQty) {triggered : Finset ℤ}
    (hfired : ∀ entry ∈ TakeProfits.levels position.takeProfits,
      (Account.mk position (fills ++ [made])).timesFired entry.1 ≤
        if entry.1 ∈ triggered then 1 else 0) :
    Sound feeBps slippageBps
      ⟨PaperPosition.sell { position with triggeredTps := triggered } made, fills ++ [made]⟩ where
  qty_pos := h.qty_pos
  levels_pos := h.levels_pos
  remaining_nonneg := sub_nonneg.mpr hle
  sold_eq := by
    have hsold : ((Account.mk position fills).sells.map (·.qty)).sum + position.remainingQty =
      position.qty := h.sold_eq
    rw [sold, sells_append hside]
    change (((Account.mk position fills).sells ++ [made]).map (·.qty)).sum +
      (position.remainingQty - made.qty) = position.qty
    rw [List.map_append, List.sum_append, List.map_singleton, List.sum_singleton, ← hsold]
    ring
  fired := hfired
  pnl_eq := by
    rw [sells_append hside, List.map_append, List.sum_append, List.map_singleton,
      List.sum_singleton]
    exact congrArg (· + _) h.pnl_eq
  fees_eq := by
    have hfees : (fills.map (·.fee)).sum = ((Account.mk position fills).sells.map (·.fee)).sum +
      position.entryPrice * position.qty * feeBps / 10000 := h.fees_eq
    rw [sells_append hside]
    change ((fills ++ [made]).map (·.fee)).sum =
      (((Account.mk position fills).sells ++ [made]).map (·.fee)).sum +
        position.entryPrice * position.qty * feeBps / 10000
    rw [List.map_append, List.map_append, List.sum_append, List.sum_append, hfees]
    ring
  free_iff := h.free_iff

theorem index_cases {t : TakeProfits} {entry : ℤ × ℚ × ℚ} (h : entry ∈ TakeProfits.levels t) :
    entry.1 = 0 ∨ entry.1 = 1 ∨ entry.1 = 2 := by
  simp only [TakeProfits.levels, List.mem_cons, List.not_mem_nil, or_false] at h
  rcases h with rfl | rfl | rfl <;> simp

/-- The reasons of two levels are different. -/
theorem reason_injective {t : TakeProfits} {entry entry' : ℤ × ℚ × ℚ}
    (hentry : entry ∈ TakeProfits.levels t) (hentry' : entry' ∈ TakeProfits.levels t)
    (h : "TP" ++ toString (entry.1 + 1) = "TP" ++ toString (entry'.1 + 1)) :
    entry.1 = entry'.1 := by
  rcases index_cases hentry with hi | hi | hi <;> rcases index_cases hentry' with hi' | hi' | hi' <;>
    rw [hi, hi'] at h ⊢ <;> exact absurd h (by decide)

/-- A stop is not a level. -/
theorem stop_ne_level {t : TakeProfits} {entry : ℤ × ℚ × ℚ}
    (hentry : entry ∈ TakeProfits.levels t) : "STOP_LOSS" ≠ "TP" ++ toString (entry.1 + 1) := by
  rcases index_cases hentry with hi | hi | hi <;> rw [hi] <;> decide

/-- The sale of a level that has not fired. -/
theorem fired_insert (h : Sound feeBps slippageBps ⟨position, fills⟩) {entry : ℤ × ℚ × ℚ}
    (hentry : entry ∈ TakeProfits.levels position.takeProfits)
    (hnew : entry.1 ∉ position.triggeredTps)
    (hreason : made.reason = "TP" ++ toString (entry.1 + 1)) :
    ∀ entry' ∈ TakeProfits.levels position.takeProfits,
      (Account.mk position (fills ++ [made])).timesFired entry'.1 ≤
        if entry'.1 ∈ insert entry.1 position.triggeredTps then 1 else 0 := by
  intro entry' hentry'
  have hold := h.fired entry' hentry'
  simp only [timesFired, List.countP_append, List.countP_singleton, hreason] at hold ⊢
  by_cases hsame : entry'.1 = entry.1
  · rw [hsame, if_neg hnew] at hold
    rw [hsame, if_pos (Finset.mem_insert_self _ _)]
    simp only [decide_true, if_true]
    omega
  · have hother : ¬ "TP" ++ toString (entry.1 + 1) = "TP" ++ toString (entry'.1 + 1) :=
      fun h => hsame (reason_injective hentry' hentry h.symm)
    simp only [hother, decide_false, Bool.false_eq_true, if_false, add_zero, Finset.mem_insert,
      hsame, false_or]
    exact hold

/-- The sale of a stop. -/
theorem fired_stop (h : Sound feeBps slippageBps ⟨position, fills⟩)
    (hreason : made.reason = "STOP_LOSS") :
    ∀ entry ∈ TakeProfits.levels position.takeProfits,
      (Account.mk position (fills ++ [made])).timesFired entry.1 ≤
        if entry.1 ∈ position.triggeredTps then 1 else 0 := by
  intro entry hentry
  have hother : ¬ "STOP_LOSS" = "TP" ++ toString (entry.1 + 1) := stop_ne_level hentry
  have hold := h.fired entry hentry
  simp only [timesFired, List.countP_append, List.countP_singleton, hreason, hother, decide_false,
    Bool.false_eq_true, if_false, add_zero] at hold ⊢
  exact hold

/-- Nothing is sold after a stop. -/
def StopLast (fills : List PaperFill) : Prop :=
  ∀ before stop after, fills = before ++ stop :: after → stop.reason = "STOP_LOSS" → after = []

/-- What holds of every account: its position has something left and has not been stopped out, or
it is closed. -/
def Kept (feeBps slippageBps : ℚ) (a : Account) : Prop :=
  Sound feeBps slippageBps a ∧
    (a.position.closed = false ∧ 0 < a.position.remainingQty ∧ Running a ∨
      a.position.closed = true ∧ a.position.remainingQty = 0 ∧ StopLast a.fills)

theorem Running.stop_last {a : Account} (h : Running a) : StopLast a.fills := by
  intro before stop after hfills hstop
  exact absurd hstop (h stop (hfills ▸ by simp))

theorem Running.stop_last_append {a : Account} (h : Running a) (made : PaperFill) :
    StopLast (a.fills ++ [made]) := by
  intro before stop after hfills hstop
  rcases List.eq_nil_or_concat' after with rfl | ⟨rest, last, rfl⟩
  · rfl
  · rw [← List.cons_append, ← List.append_assoc] at hfills
    have hold : a.fills = before ++ stop :: rest := (List.append_inj' hfills rfl).1
    exact absurd hstop (h stop (hold ▸ by simp))

theorem Sound.close {a : Account} (h : Sound feeBps slippageBps a) :
    Sound feeBps slippageBps ⟨{ a.position with closed := true }, a.fills⟩ :=
  ⟨h.qty_pos, h.levels_pos, h.remaining_nonneg, h.sold_eq, h.fired, h.pnl_eq, h.fees_eq,
    h.free_iff⟩

/-- An account that is kept conserves its quantity. -/
theorem Kept.conserves {a : Account} (h : Kept feeBps slippageBps a) : a.Conserves where
  remaining_nonneg := h.1.remaining_nonneg
  sold_eq := h.1.sold_eq
  closed_iff := by
    rcases h.2 with ⟨hopen, hleft, -⟩ | ⟨hclosed, hzero, -⟩
    · simp [hopen, hleft.ne']
    · simp [hclosed, hzero]
  fired_once := by
    intro entry hentry
    refine (h.1.fired entry hentry).trans ?_
    split <;> simp
  stop_last := by
    rcases h.2 with ⟨-, -, hrunning⟩ | ⟨-, -, hlast⟩
    · exact hrunning.stop_last
    · exact hlast

/-- **The profit of a closed position** is net but for the fee of its opening. -/
theorem Kept.pnl_eq {a : Account} (h : Kept feeBps slippageBps a) (hclosed : a.position.closed) :
    a.position.realizedPnl =
      a.net + a.position.entryPrice * a.position.qty * feeBps / 10000 := by
  have hzero : a.position.remainingQty = 0 := h.conserves.closed_iff.mp hclosed
  have hsold : a.sold = a.position.qty := by
    have heq := h.1.sold_eq
    rw [hzero, add_zero] at heq
    exact heq
  have hsplit : ∀ sells : List PaperFill,
      (sells.map fun made => (made.price - a.position.entryPrice) * made.qty - made.fee).sum =
        (sells.map fun made => made.price * made.qty).sum -
          a.position.entryPrice * (sells.map (·.qty)).sum - (sells.map (·.fee)).sum := by
    intro sells
    induction sells with
    | nil => simp
    | cons made sells ih =>
      simp only [List.map_cons, List.sum_cons, ih]
      ring
  rw [h.1.pnl_eq, hsplit, net, h.1.fees_eq, ← sold, hsold]
  ring

end Account

/-! ## 4. A quote -/

namespace PaperBroker

open Account

variable {feeBps slippageBps : ℚ} {old : List PaperFill} {s : Selling} (bid : ℚ) (latencyMs : ℤ)

/-- The account of a position that is being sold. -/
def Selling.account (old : List PaperFill) (s : Selling) : Account :=
  ⟨s.position, old ++ s.generated⟩

/-- What the levels or the stop have sold: the fills are those of this quote. -/
structure Selling.SoldTo (s t : Selling) (made : List PaperFill) : Prop where
  broker : t.broker = { s.broker with fills := s.broker.fills ++ made }
  generated : t.generated = s.generated ++ made
  takeProfits : t.position.takeProfits = s.position.takeProfits
  closed : t.position.closed = s.position.closed

/-- **The loop over the levels** never raises, and keeps the account sound. -/
theorem sellLevels_sound {levels : List (ℤ × ℚ × ℚ)}
    (hlevels : levels ⊆ TakeProfits.levels s.position.takeProfits)
    (h : Sound feeBps slippageBps (s.account old)) (hrunning : Running (s.account old)) :
    ∃ t made, sellLevels bid latencyMs levels s = (.ok (), t) ∧ s.SoldTo t made ∧
      Sound feeBps slippageBps (t.account old) ∧ Running (t.account old) := by
  induction levels generalizing s with
  | nil => exact ⟨s, [], rfl, ⟨by simp, by simp, rfl, rfl⟩, h, hrunning⟩
  | cons entry rest ih =>
    obtain ⟨index, level, fraction⟩ := entry
    obtain ⟨hentry, hrest⟩ := List.cons_subset.mp hlevels
    by_cases hfire : index ∈ s.position.triggeredTps ∨ bid < level ∨ s.position.remainingQty ≤ 0
    · rw [sellLevels, if_pos hfire]
      exact ih hrest h hrunning
    · have hreached := hfire
      simp only [not_or, not_lt, not_le] at hreached
      obtain ⟨hnew, hreached, hleft⟩ := hreached
      have hbid : 0 < bid := (h.levels_pos _ hentry).trans_le hreached
      obtain ⟨hpos, hle⟩ := levelQty_pos index h.qty_pos hleft (levels_pos _ _ hentry)
      obtain ⟨made, ⟨hside, hmade, hreason⟩, hclose⟩ := closeQty_eq latencyMs
        ("TP" ++ toString (index + 1)) (s := s.trigger index) hpos hbid hle
      have hsold : Sound feeBps slippageBps
          ⟨(s.trigger index).position.sell made, (old ++ s.generated) ++ [made]⟩ :=
        h.sell hside (hmade ▸ hle) (fired_insert h hentry hnew hreason)
      have hstill : Running ⟨(s.trigger index).position.sell made,
          (old ++ s.generated) ++ [made]⟩ := by
        intro f hf
        rcases List.mem_append.mp hf with hf | hf
        · exact hrunning f hf
        · rw [List.mem_singleton.mp hf, hreason]
          exact (stop_ne_level hentry).symm
      rw [List.append_assoc] at hsold hstill
      obtain ⟨t, more, heq, ht, hsound, hrun⟩ := ih (s :=
        ⟨{ s.broker with fills := s.broker.fills ++ [made] }, (s.trigger index).position.sell made,
          s.generated ++ [made]⟩) hrest hsold hstill
      refine ⟨t, made :: more, (sellLevels_fires latencyMs hfire hclose).trans heq,
        ⟨?_, ?_, ht.takeProfits, ht.closed⟩, hsound, hrun⟩
      · rw [ht.broker, List.append_assoc, List.singleton_append]
      · rw [ht.generated, List.append_assoc, List.singleton_append]

/-- **Taking profits** never raises, and closes the position exactly when nothing is left. -/
theorem takeProfit_kept (h : Sound feeBps slippageBps (s.account old))
    (hrunning : Running (s.account old)) (hopen : s.position.closed = false) :
    ∃ t made, takeProfit bid latencyMs s = (.ok (), t) ∧
      t.broker = { s.broker with fills := s.broker.fills ++ made } ∧
      t.generated = s.generated ++ made ∧ Kept feeBps slippageBps (t.account old) := by
  obtain ⟨t, made, heq, hsold, hsound, hrun⟩ :=
    sellLevels_sound bid latencyMs (List.Subset.refl _) h hrunning
  rw [takeProfit, heq]
  dsimp only
  split
  · rename_i hnone
    have hzero : t.position.remainingQty = 0 := le_antisymm hnone hsound.remaining_nonneg
    exact ⟨_, made, rfl, hsold.broker, hsold.generated, hsound.close, .inr ⟨rfl, hzero,
      hrun.stop_last⟩⟩
  · rename_i hleft
    exact ⟨t, made, rfl, hsold.broker, hsold.generated, hsound,
      .inl ⟨hsold.closed.trans hopen, not_le.mp hleft, hrun⟩⟩

/-- **A stop** sells all that is left; without a price it raises and sells nothing. -/
theorem stopOut_kept (h : Sound feeBps slippageBps (s.account old))
    (hrunning : Running (s.account old)) (hopen : s.position.closed = false)
    (hleft : 0 < s.position.remainingQty) :
    ∃ r t made, stopOut bid latencyMs s = (r, t) ∧ (∀ msg, r ≠ .error (.runtimeError msg)) ∧
      t.broker = { s.broker with fills := s.broker.fills ++ made } ∧
      t.generated = s.generated ++ made ∧ Kept feeBps slippageBps (t.account old) := by
  by_cases hbid : 0 < bid
  · obtain ⟨made, ⟨hside, hmade, hreason⟩, hclose⟩ :=
      closeQty_eq latencyMs "STOP_LOSS" hleft hbid le_rfl
    have hsold : Sound feeBps slippageBps
        ⟨s.position.sell made, (old ++ s.generated) ++ [made]⟩ :=
      h.sell hside hmade.le (fired_stop h hreason)
    have hzero : s.position.remainingQty - made.qty = 0 := by rw [hmade, sub_self]
    have hlast : StopLast ((old ++ s.generated) ++ [made]) := hrunning.stop_last_append made
    rw [List.append_assoc] at hsold hlast
    rw [stopOut, hclose]
    exact ⟨_, _, [made], rfl, by simp, rfl, rfl, hsold.close, .inr ⟨rfl, hzero, hlast⟩⟩
  · have hrefused : s.broker.fill "SELL" s.position.remainingQty bid latencyMs "STOP_LOSS" =
        (.error (.valueError "paper fill requires positive quantity and price"), s.broker) :=
      if_pos (.inr (not_lt.mp hbid))
    refine ⟨.error (.valueError "paper fill requires positive quantity and price"), s, [], ?_,
      by simp, by simp, by simp, h, .inl ⟨hopen, hleft, hrunning⟩⟩
    simp only [stopOut, closeQty, hrefused]

variable {b : PaperBroker} {symbol : String}

/-- **A quote** sells of the position it is for, and never more than is left. -/
theorem onQuote_kept
    (h : ∀ position, b.positions.lookup symbol = some position →
      Kept feeBps slippageBps ⟨position, old⟩) :
    ∃ r made positions, b.onQuote symbol bid latencyMs =
        (r, { b with fills := b.fills ++ made, positions := positions }) ∧
      (∀ msg, r ≠ .error (.runtimeError msg)) ∧
      (∀ symbol', symbol' ≠ symbol → positions.lookup symbol' = b.positions.lookup symbol') ∧
      ∀ position, positions.lookup symbol = some position →
        Kept feeBps slippageBps ⟨position, old ++ made⟩ := by
  have hnothing : ∀ position, b.positions.lookup symbol = some position →
      Kept feeBps slippageBps ⟨position, old ++ []⟩ := by
    intro position hlookup
    rw [List.append_nil]
    exact h position hlookup
  unfold onQuote
  split
  · exact ⟨.ok [], [], b.positions, by simp, by simp, fun _ _ => rfl, hnothing⟩
  · rename_i position hlookup
    split
    · exact ⟨.ok [], [], b.positions, by simp, by simp, fun _ _ => rfl, hnothing⟩
    · rename_i hopen
      rw [Bool.not_eq_true] at hopen
      obtain ⟨hsound, hstate⟩ := h position hlookup
      obtain ⟨-, hleft, hrunning⟩ := hstate.resolve_right fun hclosed => by
        rw [hopen] at hclosed
        exact Bool.false_ne_true hclosed.1
      have hsell : ∃ r t made, (if bid ≤ position.stopLoss then stopOut else takeProfit) bid
          latencyMs ⟨b, position, []⟩ = (r, t) ∧ (∀ msg, r ≠ .error (.runtimeError msg)) ∧
          t.broker = { b with fills := b.fills ++ made } ∧ t.generated = made ∧
          Kept feeBps slippageBps (t.account old) := by
        have hsound' : Sound feeBps slippageBps (Selling.account old ⟨b, position, []⟩) := by
          rw [Selling.account, List.append_nil]
          exact hsound
        have hrunning' : Running (Selling.account old ⟨b, position, []⟩) := by
          rw [Selling.account, List.append_nil]
          exact hrunning
        by_cases hstop : bid ≤ position.stopLoss
        · rw [if_pos hstop]
          exact stopOut_kept bid latencyMs hsound' hrunning' hopen hleft
        · rw [if_neg hstop]
          obtain ⟨t, made, heq, hbroker, hgenerated, hkept⟩ :=
            takeProfit_kept bid latencyMs hsound' hrunning' hopen
          exact ⟨.ok (), t, made, heq, by simp, hbroker, hgenerated, hkept⟩
      obtain ⟨r, t, made, heq, hno, hbroker, hgenerated, hkept⟩ := hsell
      refine ⟨r.map fun _ => t.generated, made, b.positions.insert symbol t.position, ?_, ?_,
        fun symbol' hne => AList.lookup_insert_ne hne, fun position' hlookup' => ?_⟩
      · simp only [heq, Selling.stored, hbroker]
      · intro msg hmsg
        cases r with
        | ok u => cases hmsg
        | error e => exact hno msg (congrArg Except.error (Except.error.inj hmsg))
      · obtain rfl : t.position = position' := by simpa using hlookup'
        rw [← hgenerated]
        exact hkept

/-- A position that has just been opened over a fill. -/
theorem kept_opened (symbol : String) {made : PaperFill} {ask stopLoss : ℚ} {t : TakeProfits}
    (hside : made.side = "BUY") (hreason : made.reason = "MARKET") (hqty : 0 < made.qty)
    (hask : 0 < ask) (hprice : made.price = ask + ask * slippageBps / 10000)
    (hfee : made.fee = made.price * made.qty * feeBps / 10000)
    (hlevels : ask < t.first ∧ t.first < t.second ∧ t.second < t.third) :
    Kept feeBps slippageBps ⟨⟨symbol, made.qty, made.price, stopLoss, t, made.qty, 0, false, ∅⟩,
      [made]⟩ := by
  have hsells : (Account.mk ⟨symbol, made.qty, made.price, stopLoss, t, made.qty, 0, false, ∅⟩
      [made]).sells = [] := by
    simp [sells, hside]
  refine ⟨⟨hqty, ?_, hqty.le, ?_, ?_, ?_, ?_, ?_⟩, .inl ⟨rfl, hqty, ?_⟩⟩
  · simp only [TakeProfits.levels, List.forall_mem_cons, List.not_mem_nil, false_imp_iff,
      implies_true, and_true]
    exact ⟨by linarith, by linarith, by linarith⟩
  · rw [sold, hsells]
    simp
  · intro entry hentry
    have hother : ¬ made.reason = "TP" ++ toString (entry.1 + 1) := by
      rw [hreason]
      rcases index_cases hentry with hi | hi | hi <;> rw [hi] <;> decide
    simp only [timesFired, List.countP_singleton, hother, decide_false, Bool.false_eq_true, if_false]
    exact Nat.zero_le _
  · rw [hsells]
    rfl
  · rw [hsells]
    simp [hfee]
  · change made.price = 0 ↔ slippageBps = -10000
    rw [hprice]
    constructor
    · intro hzero
      have hfactor : ask * (1 + slippageBps / 10000) = 0 := by linarith
      have hslip := (mul_eq_zero.mp hfactor).resolve_left hask.ne'
      linarith
    · intro hslip
      rw [hslip]
      ring
  · intro f hf
    rw [List.mem_singleton.mp hf, hreason]
    decide

/-- What a purchase does to a broker: it raises and changes nothing, or it fills. -/
def Bought (b : PaperBroker) (ask : ℚ) (result : Except Exc PaperFill × PaperBroker) : Prop :=
  (∃ msg, result = (.error (.valueError msg), b)) ∨
    ∃ made : PaperFill, made.side = "BUY" ∧ made.reason = "MARKET" ∧ 0 < made.qty ∧ 0 < ask ∧
      made.price = ask + ask * b.slippageBps / 10000 ∧
      made.fee = made.price * made.qty * b.feeBps / 10000 ∧
      result = (.ok made, { b with fills := b.fills ++ [made] })

theorem bought_fill (b : PaperBroker) (qty ask : ℚ) (requestedQty : Option ℚ) :
    Bought b ask (b.fill "BUY" qty ask latencyMs "MARKET" requestedQty) := by
  unfold fill
  split
  · exact .inl ⟨_, rfl⟩
  · rename_i hpositive
    rw [not_or, not_le, not_le] at hpositive
    exact .inr ⟨_, rfl, rfl, hpositive.1, hpositive.2, rfl, rfl, rfl⟩

theorem bought_fillMarket (b : PaperBroker) (qty bid ask : ℚ) (availableQty : Option ℚ) :
    Bought b ask (b.fillMarket "BUY" qty bid ask latencyMs availableQty) := by
  unfold fillMarket
  cases availableQty with
  | none =>
    dsimp only
    split
    · exact .inl ⟨_, rfl⟩
    · exact bought_fill latencyMs b qty ask (some qty)
  | some available =>
    dsimp only
    split
    · exact .inl ⟨_, rfl⟩
    · exact bought_fill latencyMs b (min qty available) ask (some qty)

/-- **An opening** raises and changes nothing, or its position is over what was filled. -/
theorem openLong_kept (hfee : b.feeBps = feeBps) (hslip : b.slippageBps = slippageBps)
    (symbol : String) (qty bid ask stopLoss : ℚ) (t : TakeProfits) (availableQty : Option ℚ) :
    (∃ msg, b.openLong symbol qty bid ask stopLoss t latencyMs availableQty =
      (.error (.valueError msg), b)) ∨
    ∃ made position, b.openLong symbol qty bid ask stopLoss t latencyMs availableQty =
        (.ok position, { b with
          fills := b.fills ++ [made], positions := b.positions.insert symbol position }) ∧
      Kept feeBps slippageBps ⟨position, [made]⟩ := by
  unfold openLong
  split
  · exact .inl ⟨_, rfl⟩
  split
  · exact .inl ⟨_, rfl⟩
  · rename_i hlevels
    obtain ⟨-, hask, hsecond, hthird⟩ := not_not.mp hlevels
    rcases bought_fillMarket latencyMs b qty bid ask availableQty with
      ⟨msg, heq⟩ | ⟨made, hside, hreason, hqty, hpositive, hprice, hcost, heq⟩
    · rw [heq]
      exact .inl ⟨msg, rfl⟩
    · rw [heq]
      rw [hslip] at hprice
      rw [hfee] at hcost
      exact .inr ⟨made, _, rfl, kept_opened symbol hside hreason hqty hpositive hprice hcost
        ⟨hask, hsecond, hthird⟩⟩

end PaperBroker

/-! ## 5. All the calls -/

namespace State

/-- Every account of the state is kept. -/
structure Kept (feeBps slippageBps : ℚ) (s : State) : Prop where
  fee_eq : s.broker.feeBps = feeBps
  slippage_eq : s.broker.slippageBps = slippageBps
  retired : ∀ a ∈ s.retired, a.Kept feeBps slippageBps
  held : ∀ symbol position, s.broker.positions.lookup symbol = some position →
    Account.Kept feeBps slippageBps ⟨position, s.filled symbol⟩

variable {feeBps slippageBps : ℚ} {s : State}

theorem made_append (made : List PaperFill) (positions : Table String PaperPosition) :
    s.made { s.broker with fills := s.broker.fills ++ made, positions := positions } = made :=
  List.drop_left

/-- The account of one symbol is written. -/
theorem Kept.update (h : s.Kept feeBps slippageBps) {symbol : String} {fills made : List PaperFill}
    {positions : Table String PaperPosition} {retired : List Account}
    (hretired : ∀ a ∈ retired, a.Kept feeBps slippageBps)
    (hother : ∀ symbol', symbol' ≠ symbol →
      positions.lookup symbol' = s.broker.positions.lookup symbol')
    (hself : ∀ position, positions.lookup symbol = some position →
      Account.Kept feeBps slippageBps ⟨position, fills⟩) :
    Kept feeBps slippageBps
      ⟨{ s.broker with fills := s.broker.fills ++ made, positions := positions },
        Function.update s.filled symbol fills, retired⟩ := by
  refine ⟨h.fee_eq, h.slippage_eq, hretired, fun symbol' position hlookup => ?_⟩
  by_cases hsymbol : symbol' = symbol
  · subst hsymbol
    change Account.Kept feeBps slippageBps ⟨position, Function.update s.filled symbol' fills symbol'⟩
    rw [Function.update_self]
    exact hself position hlookup
  · change Account.Kept feeBps slippageBps ⟨position, Function.update s.filled symbol fills symbol'⟩
    rw [Function.update_of_ne hsymbol]
    exact h.held symbol' position ((hother symbol' hsymbol).symm.trans hlookup)

theorem Kept.of_account (h : s.Kept feeBps slippageBps) {symbol : String} {a : Account}
    (ha : s.account symbol = some a) : a.Kept feeBps slippageBps := by
  obtain ⟨position, hlookup, rfl⟩ := Option.map_eq_some_iff.mp ha
  exact h.held symbol position hlookup

/-- **One call** keeps every account, and does not find that more was sold than was left. -/
theorem Kept.perform (h : s.Kept feeBps slippageBps) (call : Call) :
    (s.perform call).2.Kept feeBps slippageBps ∧
      ∀ msg, (s.perform call).1 ≠ some (.runtimeError msg) := by
  cases call with
  | openLong symbol qty bid ask stopLoss t latencyMs availableQty =>
    rcases openLong_kept latencyMs h.fee_eq h.slippage_eq symbol qty bid ask stopLoss t
      availableQty with ⟨msg, heq⟩ | ⟨made, position, heq, hkept⟩
    · simp only [State.perform, heq]
      refine ⟨?_, by simp⟩
      have hnone : s.made s.broker = [] := List.drop_length
      rw [hnone, List.append_nil, Function.update_eq_self]
      exact ⟨h.fee_eq, h.slippage_eq, h.retired, h.held⟩
    · simp only [State.perform, heq, made_append]
      refine ⟨h.update (fun a ha => ?_) (fun symbol' hne => AList.lookup_insert_ne hne)
        (fun position' hlookup => ?_), by simp⟩
      · rcases List.mem_append.mp ha with ha | ha
        · exact h.retired a ha
        · exact h.of_account (Option.mem_toList.mp ha)
      · obtain rfl : position = position' := by simpa using hlookup
        exact hkept
  | onQuote symbol bid latencyMs =>
    obtain ⟨r, made, positions, heq, hno, hother, hself⟩ :=
      onQuote_kept bid latencyMs (h.held symbol)
    cases r with
    | ok generated =>
      simp only [State.perform, heq, made_append]
      exact ⟨h.update h.retired hother hself, by simp⟩
    | error e =>
      simp only [State.perform, heq, made_append]
      refine ⟨h.update h.retired hother hself, fun msg hmsg => ?_⟩
      rw [Option.some.inj hmsg] at hno
      exact hno msg rfl

end State

theorem kept_play (feeBps slippageBps : ℚ) (calls : List Call) :
    (play feeBps slippageBps calls).Kept feeBps slippageBps := by
  induction calls using List.reverseRecOn with
  | nil => exact ⟨rfl, rfl, by simp [play], by simp [play]⟩
  | append_singleton calls call ih =>
    rw [play, List.foldl_append]
    exact (ih.perform call).1

theorem State.Kept.of_has {feeBps slippageBps : ℚ} {s : State} (h : s.Kept feeBps slippageBps)
    {a : Account} (ha : s.Has a) : a.Kept feeBps slippageBps := by
  rcases ha with ha | ⟨symbol, ha⟩
  · exact h.retired a ha
  · exact h.of_account ha

/-- **No position is over-sold**, in any run. -/
theorem never_oversells (feeBps slippageBps : ℚ) (calls : List Call) :
    (∀ a, (play feeBps slippageBps calls).Has a → a.Conserves) ∧
      ∀ call msg, ((play feeBps slippageBps calls).perform call).1 ≠ some (.runtimeError msg) := by
  have hkept := kept_play feeBps slippageBps calls
  exact ⟨fun a ha => (hkept.of_has ha).conserves, fun call => (hkept.perform call).2⟩

/-- **The profit of a closed position is net of all its fees** exactly if its opening was free. -/
theorem net_pnl_iff (feeBps slippageBps : ℚ) (calls : List Call) (a : Account)
    (ha : (play feeBps slippageBps calls).Has a) (hclosed : a.position.closed = true) :
    a.position.realizedPnl = a.net ↔ feeBps = 0 ∨ slippageBps = -10000 := by
  have hkept := (kept_play feeBps slippageBps calls).of_has ha
  have hqty : a.position.qty ≠ 0 := hkept.1.qty_pos.ne'
  rw [hkept.pnl_eq hclosed, ← hkept.1.free_iff]
  constructor
  · intro h
    have hzero : a.position.entryPrice * a.position.qty * feeBps = 0 := by linarith
    rcases mul_eq_zero.mp hzero with hentry | hfee
    · exact .inr ((mul_eq_zero.mp hentry).resolve_right hqty)
    · exact .inl hfee
  · rintro (hfee | hentry)
    · rw [hfee]
      ring
    · rw [hentry]
      ring

/-- One bought at 100 and stopped out at 94. -/
def roundTrip : List Call :=
  [.openLong "ETHUSDT" 1 99 100 95 ⟨105, 110, 115⟩ 50 none, .onQuote "ETHUSDT" 94 50]

def stopped : Account where
  position := ⟨"ETHUSDT", 1, 2001/20, 95, ⟨105, 110, 115⟩, 0, -6190953/1000000, true, ∅⟩
  fills := [⟨"BUY", 1, 2001/20, 2001/20000, 50, "FILLED", "MARKET"⟩,
    ⟨"SELL", 1, 93953/1000, 93953/1000000, 50, "FILLED", "STOP_LOSS"⟩]

theorem has_stopped : (play 10 5 roundTrip).Has stopped := .inr ⟨"ETHUSDT", by decide +kernel⟩

theorem net_pnl_iff_stopped : (play 10 5 roundTrip).Has stopped ∧ stopped.position.closed = true ∧
    (stopped.position.realizedPnl = stopped.net ↔ (10 : ℚ) = 0 ∨ (5 : ℚ) = -10000) :=
  ⟨has_stopped, rfl, net_pnl_iff 10 5 roundTrip stopped has_stopped rfl⟩

/-- **The fee of the opening is missing** in the profit of a position that was stopped out. -/
theorem entry_fee_missing : ¬ ∀ a, (play 10 5 roundTrip).Has a → a.position.closed = true →
    a.position.realizedPnl = a.net := by
  intro h
  have hnet : stopped.position.realizedPnl = stopped.net := h stopped has_stopped rfl
  exact absurd hnet (by decide +kernel)

end Kripto.Paper
