/-
# What a quote does to a position

A broker that is solvent (`Solvent`: a position that is not closed is over a positive quantity,
and some of it is left) never fails on a quote with a positive bid.  The quote then either sells,
or finds nothing to sell and changes nothing (`Idle`).

* `openLong_cases`: an opening is refused and changes nothing, or it fills.
* `onQuote_idle`, `onQuote_sells`: a quote that finds nothing, and one that does not.
-/
import Kripto.Paper.Broker
import Mathlib.Tactic.Linarith
import Mathlib.Tactic.NormNum

namespace Kripto.Paper

/-- What is left of a position that was sold from by a fill. -/
def PaperPosition.sell (position : PaperPosition) (made : PaperFill) :
    PaperPosition :=
  { position with
    realizedPnl := position.realizedPnl +
      ((made.price - position.entryPrice) * made.qty - made.fee)
    remainingQty := position.remainingQty - made.qty }

namespace PaperBroker

open Effect

/-! ## 1. Filling and closing -/

variable {b : PaperBroker} {s : Selling} {qty bid : ℚ} {symbol : String} (latencyMs : ℤ)

/-- A fill is refused and changes nothing, or it is one more. -/
theorem fill_cases (b : PaperBroker) (side : String) (qty price : ℚ) (latencyMs : ℤ)
    (reason : String) (requested : Option ℚ) :
    ((qty ≤ 0 ∨ price ≤ 0) ∧
      b.fill side qty price latencyMs reason requested =
        (.error (.valueError "paper fill requires positive quantity and price"), b)) ∨
    (0 < qty ∧ 0 < price ∧ ∃ made, made.side = side ∧ made.qty = qty ∧ made.reason = reason ∧
      b.fill side qty price latencyMs reason requested =
        (.ok made, { b with fills := b.fills ++ [made] })) := by
  unfold fill
  by_cases h : qty ≤ 0 ∨ price ≤ 0
  · exact .inl ⟨h, if_pos h⟩
  · rw [if_neg h]
    rw [not_or, not_le, not_le] at h
    exact .inr ⟨h.1, h.2, _, rfl, rfl, rfl, rfl⟩

/-- Closing a part of what is left. -/
theorem closeQty_eq (reason : String) (hqty : 0 < qty) (hbid : 0 < bid)
    (hle : qty ≤ s.position.remainingQty) :
    ∃ made : PaperFill, (made.side = "SELL" ∧ made.qty = qty ∧ made.reason = reason) ∧
      closeQty s qty bid latencyMs reason = (.ok (),
        ⟨{ s.broker with fills := s.broker.fills ++ [made] }, s.position.sell made,
          s.generated ++ [made]⟩) := by
  rcases fill_cases s.broker "SELL" qty bid latencyMs reason none with
    ⟨hnot, -⟩ | ⟨-, -, made, hside, hmade, hreason, hfill⟩
  · exact absurd hnot (by simp [hqty, hbid])
  · have hrest : ¬ s.position.remainingQty - made.qty < 0 := by linarith
    refine ⟨made, ⟨hside, hmade, hreason⟩, ?_⟩
    simp only [closeQty, hfill, hrest, if_false]
    rfl

/-! ## 2. Levels -/

/-- What is left of a position that was sold from, with what the sale filled. -/
structure Selling.Sold (s t : Selling) (made : List PaperFill) : Prop where
  broker : t.broker = { s.broker with fills := s.broker.fills ++ made }
  generated : t.generated = s.generated ++ made
  qty : t.position.qty = s.position.qty
  closed : t.position.closed = s.position.closed
  remaining : 0 ≤ t.position.remainingQty

/-- A level that has not fired and is reached. -/
def Fires (bid : ℚ) (position : PaperPosition) (entry : ℤ × ℚ × ℚ) : Prop :=
  entry.1 ∉ position.triggeredTps ∧ entry.2.1 ≤ bid

theorem sellLevels_idle {levels : List (ℤ × ℚ × ℚ)}
    (h : ∀ entry ∈ levels, ¬ Fires bid s.position entry) :
    sellLevels bid latencyMs levels s = (.ok (), s) := by
  induction levels with
  | nil => rfl
  | cons entry rest ih =>
    obtain ⟨hentry, hrest⟩ := List.forall_mem_cons.mp h
    rw [sellLevels, if_pos, ih hrest]
    by_cases hfired : entry.1 ∈ s.position.triggeredTps
    · exact .inl hfired
    · exact .inr (.inl (not_le.mp fun hle => hentry ⟨hfired, hle⟩))

theorem levelQty_pos {position : PaperPosition} (index : ℤ) {fraction : ℚ}
    (hqty : 0 < position.qty) (hrest : 0 < position.remainingQty) (hfraction : 0 < fraction) :
    0 < levelQty position index fraction ∧
      levelQty position index fraction ≤ position.remainingQty := by
  refine ⟨lt_min ?_ hrest, min_le_right _ _⟩
  split
  · exact hrest
  · exact mul_pos hqty hfraction

/-- A level fires. -/
def Selling.trigger (s : Selling) (index : ℤ) : Selling :=
  { s with position := { s.position with
      triggeredTps := insert index s.position.triggeredTps } }

theorem sellLevels_fires {index : ℤ} {level fraction : ℚ} {rest : List (ℤ × ℚ × ℚ)}
    {left : Selling}
    (h : ¬ (index ∈ s.position.triggeredTps ∨ bid < level ∨ s.position.remainingQty ≤ 0))
    (hclose : closeQty (s.trigger index) (levelQty s.position index fraction) bid latencyMs
      ("TP" ++ toString (index + 1)) = (.ok (), left)) :
    sellLevels bid latencyMs ((index, level, fraction) :: rest) s =
      sellLevels bid latencyMs rest left := by
  rw [sellLevels, if_neg h]
  unfold Selling.trigger at hclose
  simp only [hclose]

/-- **The loop over the levels** sells and never fails; where one fires it fills. -/
theorem sellLevels_eq {levels : List (ℤ × ℚ × ℚ)} (hbid : 0 < bid)
    (hfractions : ∀ entry ∈ levels, 0 < entry.2.2) (hqty : 0 < s.position.qty)
    (hrest : 0 ≤ s.position.remainingQty) :
    ∃ t made, sellLevels bid latencyMs levels s = (.ok (), t) ∧ s.Sold t made ∧
      (0 < s.position.remainingQty → (∃ entry ∈ levels, Fires bid s.position entry) →
        made ≠ []) := by
  induction levels generalizing s with
  | nil => exact ⟨s, [], rfl, ⟨by simp, by simp, rfl, rfl, hrest⟩, by simp⟩
  | cons entry rest ih =>
    obtain ⟨index, level, fraction⟩ := entry
    obtain ⟨hfraction, hpositive⟩ := List.forall_mem_cons.mp hfractions
    by_cases hfire : index ∈ s.position.triggeredTps ∨ bid < level ∨ s.position.remainingQty ≤ 0
    · obtain ⟨t, made, heq, hsold, hfires⟩ := ih hpositive hqty hrest
      refine ⟨t, made, by rw [sellLevels, if_pos hfire, heq], hsold, fun hleft hfire' =>
        hfires hleft ?_⟩
      obtain ⟨entry, hentry, hentryFires⟩ := hfire'
      rcases List.mem_cons.mp hentry with rfl | hentry
      · rcases hfire with hfired | hbelow | hnone
        · exact absurd hfired hentryFires.1
        · exact absurd hentryFires.2 (not_le.mpr hbelow)
        · exact absurd hleft (not_lt.mpr hnone)
      · exact ⟨entry, hentry, hentryFires⟩
    · have hleft : 0 < s.position.remainingQty := by
        simp only [not_or, not_le] at hfire
        exact hfire.2.2
      obtain ⟨hpos, hle⟩ := levelQty_pos index hqty hleft hfraction
      obtain ⟨made, ⟨-, hmade, -⟩, hclose⟩ := closeQty_eq latencyMs
        ("TP" ++ toString (index + 1)) (s := s.trigger index) hpos hbid hle
      have hrest' : 0 ≤ s.position.remainingQty - made.qty := by
        rw [hmade]
        exact sub_nonneg.mpr hle
      obtain ⟨t, more, heq, hsold, -⟩ := ih (s :=
        ⟨{ s.broker with fills := s.broker.fills ++ [made] }, (s.trigger index).position.sell made,
          s.generated ++ [made]⟩) hpositive hqty hrest'
      refine ⟨t, made :: more, (sellLevels_fires latencyMs hfire hclose).trans heq,
        ⟨?_, ?_, hsold.qty, hsold.closed, hsold.remaining⟩, by simp⟩
      · rw [hsold.broker, List.append_assoc, List.singleton_append]
      · rw [hsold.generated, List.append_assoc, List.singleton_append]

/-! ## 3. Quotes -/

/-- Every position that is not closed is over a positive quantity, and some of it is left. -/
def Solvent (b : PaperBroker) : Prop :=
  ∀ symbol position, b.positions.lookup symbol = some position → position.closed = false →
    0 < position.qty ∧ 0 < position.remainingQty

theorem solvent_new : Solvent {} := by
  intro symbol position h
  simp at h

theorem Solvent.insert {position : PaperPosition} (h : b.Solvent)
    (hnew : position.closed = false → 0 < position.qty ∧ 0 < position.remainingQty) :
    Solvent { b with positions := b.positions.insert symbol position } := by
  intro symbol' position' hlookup hopen
  by_cases hsymbol : symbol' = symbol
  · rw [hsymbol, AList.lookup_insert, Option.some.injEq] at hlookup
    rw [← hlookup] at hopen ⊢
    exact hnew hopen
  · rw [AList.lookup_insert_ne hsymbol] at hlookup
    exact h symbol' position' hlookup hopen

/-- The quote sells nothing of a position: neither the stop nor a level is reached. -/
def Holds (position : PaperPosition) (bid : ℚ) : Prop :=
  position.stopLoss < bid ∧
    ∀ entry ∈ TakeProfits.levels position.takeProfits, ¬ Fires bid position entry

/-- The quote finds nothing to sell. -/
def Idle (b : PaperBroker) (symbol : String) (bid : ℚ) : Prop :=
  ∀ position, b.positions.lookup symbol = some position → position.closed = false →
    Holds position bid

theorem takeProfit_idle (h : Holds s.position bid) (hleft : 0 < s.position.remainingQty) :
    takeProfit bid latencyMs s = (.ok (), s) := by
  rw [takeProfit, sellLevels_idle latencyMs h.2]
  exact if_neg (not_le.mpr hleft)

/-- **A quote that finds nothing** changes nothing. -/
theorem onQuote_idle (hb : b.Solvent) (h : b.Idle symbol bid) :
    ∃ t, b.onQuote symbol bid latencyMs = (.ok [], { b with positions := t }) ∧
      b.positions.Same t := by
  unfold onQuote
  split
  · exact ⟨_, rfl, .refl _⟩
  · rename_i position hlookup
    split
    · exact ⟨_, rfl, .refl _⟩
    · rename_i hopen
      rw [Bool.not_eq_true] at hopen
      have hholds := h position hlookup hopen
      obtain ⟨-, hleft⟩ := hb symbol position hlookup hopen
      refine ⟨b.positions.insert symbol position, ?_, Table.same_insert hlookup⟩
      rw [if_neg (not_le.mpr hholds.1), takeProfit_idle latencyMs hholds hleft]
      rfl

theorem stopOut_eq (hbid : 0 < bid) (hleft : 0 < s.position.remainingQty) :
    ∃ t made, stopOut bid latencyMs s = (.ok (), t) ∧
      t.broker = { s.broker with fills := s.broker.fills ++ [made] } ∧
      t.generated = s.generated ++ [made] ∧ t.position.closed = true := by
  obtain ⟨made, -, hclose⟩ := closeQty_eq latencyMs "STOP_LOSS" hleft hbid le_rfl
  exact ⟨_, made, by rw [stopOut, hclose], rfl, rfl, rfl⟩

theorem levels_pos (t : TakeProfits) : ∀ entry ∈ TakeProfits.levels t, 0 < entry.2.2 := by
  simp only [TakeProfits.levels, List.forall_mem_cons, List.not_mem_nil, false_imp_iff,
    implies_true, and_true]
  norm_num

theorem takeProfit_eq (hbid : 0 < bid) (hqty : 0 < s.position.qty)
    (hleft : 0 < s.position.remainingQty)
    (hfires : ∃ entry ∈ TakeProfits.levels s.position.takeProfits, Fires bid s.position entry) :
    ∃ t made, takeProfit bid latencyMs s = (.ok (), t) ∧ made ≠ [] ∧
      t.broker = { s.broker with fills := s.broker.fills ++ made } ∧
      t.generated = s.generated ++ made ∧
      (t.position.closed = false → 0 < t.position.qty ∧ 0 < t.position.remainingQty) := by
  obtain ⟨t, made, heq, hsold, hmade⟩ :=
    sellLevels_eq latencyMs hbid (levels_pos s.position.takeProfits) hqty hleft.le
  have hqty' : 0 < t.position.qty := hsold.qty ▸ hqty
  rw [takeProfit, heq]
  dsimp only
  split
  · exact ⟨_, made, rfl, hmade hleft hfires, hsold.broker, hsold.generated, by simp⟩
  · rename_i hrest
    exact ⟨_, made, rfl, hmade hleft hfires, hsold.broker, hsold.generated,
      fun _ => ⟨hqty', not_le.mp hrest⟩⟩

/-- **A quote that finds something** sells it, and never fails. -/
theorem onQuote_sells (hb : b.Solvent) (hbid : 0 < bid) (h : ¬ b.Idle symbol bid) :
    ∃ made left, b.onQuote symbol bid latencyMs = (.ok made, left) ∧ made ≠ [] ∧
      left.fills = b.fills ++ made ∧ left.Solvent := by
  simp only [Idle, not_forall] at h
  obtain ⟨position, hlookup, hopen, hsells⟩ := h
  obtain ⟨hqty, hleft⟩ := hb symbol position hlookup hopen
  have hsold : ∃ t made, (if bid ≤ position.stopLoss then stopOut else takeProfit) bid latencyMs
      ⟨b, position, []⟩ = (.ok (), t) ∧ made ≠ [] ∧
      t.broker = { b with fills := b.fills ++ made } ∧ t.generated = made ∧
      (t.position.closed = false → 0 < t.position.qty ∧ 0 < t.position.remainingQty) := by
    by_cases hstop : bid ≤ position.stopLoss
    · obtain ⟨t, made, heq, hbroker, hgenerated, hclosed⟩ :=
        stopOut_eq (s := ⟨b, position, []⟩) latencyMs hbid hleft
      rw [if_pos hstop]
      exact ⟨t, [made], heq, by simp, hbroker, hgenerated, by simp [hclosed]⟩
    · have hfires : ∃ entry ∈ TakeProfits.levels position.takeProfits,
          Fires bid position entry := by
        by_contra hnone
        refine hsells ⟨not_le.mp hstop, fun entry hentry hfire => hnone ⟨entry, hentry, hfire⟩⟩
      rw [if_neg hstop]
      exact takeProfit_eq (s := ⟨b, position, []⟩) latencyMs hbid hqty hleft hfires
  obtain ⟨t, made, heq, hmade, hbroker, hgenerated, hrest⟩ := hsold
  have hleft : t.broker.Solvent := by
    rw [hbroker]
    exact hb
  refine ⟨made, t.stored symbol, ?_, hmade, ?_, hleft.insert hrest⟩
  · simp only [onQuote, hlookup, hopen, heq, hgenerated]
    rfl
  · rw [Selling.stored, hbroker]

/-- **Every quote** keeps a broker solvent. -/
theorem solvent_onQuote (hb : b.Solvent) (hbid : 0 < bid) :
    (b.onQuote symbol bid latencyMs).2.Solvent := by
  by_cases h : b.Idle symbol bid
  · obtain ⟨t, heq, hsame⟩ := onQuote_idle latencyMs hb h
    rw [heq]
    intro symbol' position hlookup hopen
    exact hb symbol' position ((hsame.lookup symbol').trans hlookup) hopen
  · obtain ⟨made, left, heq, -, -, hleft⟩ := onQuote_sells latencyMs hb hbid h
    rw [heq]
    exact hleft

/-! ## 4. Openings -/

/-- The broker refuses to open: there is a position, the levels are out of order, or there is
nothing to fill. -/
def Refuses (b : PaperBroker) (symbol : String) (qty ask stopLoss : ℚ) (t : TakeProfits) : Prop :=
  b.hasOpen symbol = true ∨
    ¬ (stopLoss < ask ∧ ask < t.first ∧ t.first < t.second ∧ t.second < t.third) ∨ qty ≤ 0

variable {ask stopLoss : ℚ} {t : TakeProfits}

theorem openLong_refused (bid : ℚ) (h : b.Refuses symbol qty ask stopLoss t) :
    ∃ e, b.openLong symbol qty bid ask stopLoss t latencyMs = (.error e, b) := by
  unfold openLong
  split
  · exact ⟨_, rfl⟩
  · rename_i hnone
    split
    · exact ⟨_, rfl⟩
    · rename_i hlevels
      have hqty : qty ≤ 0 := (h.resolve_left hnone).resolve_left fun hnot => hlevels hnot
      simp only [fillMarket, hqty, if_true]
      exact ⟨_, rfl⟩

theorem openLong_fills (bid : ℚ) (hask : 0 < ask) (h : ¬ b.Refuses symbol qty ask stopLoss t) :
    ∃ made position, b.openLong symbol qty bid ask stopLoss t latencyMs =
        (.ok position, { b with
          fills := b.fills ++ [made], positions := b.positions.insert symbol position }) ∧
      0 < position.qty ∧ 0 < position.remainingQty := by
  simp only [Refuses, not_or, not_not, not_le] at h
  obtain ⟨hnone, hlevels, hqty⟩ := h
  rcases fill_cases b "BUY" qty ask latencyMs "MARKET" (some qty) with
    ⟨hnot, -⟩ | ⟨-, -, made, -, hmade, -, hfill⟩
  · exact absurd hnot (by simp [hqty, hask])
  · have hmarket : b.fillMarket "BUY" qty bid ask latencyMs none =
        (.ok made, { b with fills := b.fills ++ [made] }) := by
      simp only [fillMarket, not_le.mpr hqty, if_false, if_true, hfill]
    rw [openLong, if_neg hnone, if_neg (not_not.mpr hlevels), hmarket]
    exact ⟨made, _, rfl, hmade ▸ hqty, hmade ▸ hqty⟩

theorem solvent_openLong (hb : b.Solvent) (hask : 0 < ask) :
    (b.openLong symbol qty bid ask stopLoss t latencyMs).2.Solvent := by
  by_cases h : b.Refuses symbol qty ask stopLoss t
  · obtain ⟨e, heq⟩ := openLong_refused latencyMs bid h
    rw [heq]
    exact hb
  · obtain ⟨made, position, heq, hqty, hleft⟩ :=
      openLong_fills latencyMs bid hask h
    have hfilled : Solvent { b with fills := b.fills ++ [made] } := hb
    rw [heq]
    exact hfilled.insert fun _ => ⟨hqty, hleft⟩

end PaperBroker

end Kripto.Paper
