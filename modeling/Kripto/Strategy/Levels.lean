/-
# The protective stop of a long position

`strategies/levels.py`: `build_long_levels` places a stop below the entry, and
`update_protective_stop` tightens it with the price.  It is called with its own output, and takes
the risk that is left for the initial risk.  A stop that has been tightened below the entry is
therefore moved to the entry at a lower price than the plan says.

* `Planned`: what a call does, if the stop follows the plan;
* `planned_iff_agrees`: the runs in which it does, after every call;
* `path_of_levels`: from the stop that was placed, the calls return;
* `break_even_too_early`: a run in which it does not.
-/
import Kripto.Effect.Outcome
import Mathlib.Algebra.Order.Field.Rat
import Mathlib.Data.List.MinMax
import Mathlib.Order.Bounds.Basic
import Mathlib.Tactic.Linarith

namespace Kripto.Strategy.Levels

open Effect

/-! ## 1. `strategies/levels.py` -/

structure TradeLevelConfig where
  atrMultiple : ℚ := 2
  percentStop : ℚ := 2 / 100
  swingBufferAtr : ℚ := 1 / 4
  maxStopFraction : ℚ := 6 / 100
  takeProfitRr : List ℚ := [1, 2, 3]
  breakEvenAtRr : ℚ := 1
  trailAtrMultiple : ℚ := 2

structure TradeLevels where
  entry : ℚ
  stop : ℚ
  takeProfits : List ℚ
  riskPerUnit : ℚ
  stopMethod : String

inductive Exc
  | valueError (msg : String)
  deriving DecidableEq

variable (c : TradeLevelConfig)

def stopCandidates (price atr : ℚ) (swingLow : Option ℚ) : List (String × ℚ) :=
  [("ATR", price - atr * c.atrMultiple), ("PERCENT", price * (1 - c.percentStop))] ++
    match swingLow with
    | some low => if low < price then [("SWING", low - atr * c.swingBufferAtr)] else []
    | none => []

def validStops (price atr : ℚ) (swingLow : Option ℚ) : List (String × ℚ) :=
  ((stopCandidates c price atr swingLow).filter fun item => 0 < item.2 ∧ item.2 < price).map
    fun item => (item.1, max item.2 (price * (1 - c.maxStopFraction)))

def buildLongLevels (price atr : ℚ) (swingLow : Option ℚ) : Except Exc TradeLevels :=
  if price ≤ 0 ∨ atr ≤ 0 then .error (.valueError "price and atr must be positive")
  else match (validStops c price atr swingLow).argmax Prod.snd with
    | none => .error (.valueError "no valid stop candidate")
    | some (method, stop) =>
      let risk := price - stop
      .ok ⟨price, stop, c.takeProfitRr.map fun rr => price + risk * rr, risk, method⟩

def updateProtectiveStop (currentStop entry price atr : ℚ) : Except Exc ℚ :=
  if ¬ (0 < currentStop ∧ currentStop < price) ∨ entry ≤ 0 ∨ atr ≤ 0 then
    .error (.valueError "invalid stop update inputs")
  else
    let initialRisk := max (entry - currentStop) 0
    let breakEven :=
      if 0 < initialRisk ∧ entry + initialRisk * c.breakEvenAtRr ≤ price then entry
      else currentStop
    let trailing := price - atr * c.trailAtrMultiple
    .ok (max (max currentStop breakEven) trailing)

/-! ## 2. Runs -/

structure Tick where
  price : ℚ
  atr : ℚ

/-- The stop after these ticks, each call on what the call before it returned. -/
def path (entry initialStop : ℚ) (ticks : List Tick) : Except Exc ℚ :=
  ticks.foldlM (fun stop t => updateProtectiveStop c stop entry t.price t.atr) initialStop

/-- A price that is this far above the entry moves the stop to the entry. -/
def Reached (entry stop price : ℚ) : Prop := entry + c.breakEvenAtRr * (entry - stop) ≤ price

instance (entry stop price : ℚ) : Decidable (Reached c entry stop price) :=
  inferInstanceAs (Decidable (_ ≤ _))

def trail (t : Tick) : ℚ := t.price - c.trailAtrMultiple * t.atr

/-- The levels of the plan: the stop is the greatest of them. -/
def planned (entry initialStop : ℚ) (ticks : List Tick) : Set ℚ :=
  {level | level = initialStop ∨
    (level = entry ∧ ∃ t ∈ ticks, Reached c entry initialStop t.price) ∨
    ∃ t ∈ ticks, level = trail c t}

/-- A call of the run, that moves the stop from `current` to `next`. -/
structure Called (entry initialStop : ℚ) (ticks past : List Tick) (t : Tick) (current next : ℚ) :
    Prop where
  begins : past ++ [t] <+: ticks
  before : path c entry initialStop past = .ok current
  returned : updateProtectiveStop c current entry t.price t.atr = .ok next

/-- **The call follows the plan.** -/
structure Planned (entry initialStop : ℚ) (past : List Tick) (t : Tick) (current next : ℚ) :
    Prop where
  tightened : current ≤ next
  below : 0 < c.breakEvenAtRr → 0 < c.trailAtrMultiple → next < t.price
  greatest : IsGreatest (planned c entry initialStop (past ++ [t])) next

/-- The move to the entry is of no matter at this price, or the risk that is left and the initial
risk agree on it. -/
def Agrees (entry initialStop current : ℚ) (t : Tick) : Prop :=
  entry ≤ max current (trail c t) ∨
    (Reached c entry current t.price ↔ Reached c entry initialStop t.price)

/-! ## 3. The initial stop -/

variable {c} {entry initialStop current next : ℚ} {past ticks : List Tick} {t : Tick}

/-- The stop is placed between zero and the entry. -/
theorem buildLongLevels_stop {price atr : ℚ} {swingLow : Option ℚ} {levels : TradeLevels}
    (hfraction : 0 < c.maxStopFraction) (h : buildLongLevels c price atr swingLow = .ok levels) :
    0 < levels.stop ∧ levels.stop < levels.entry := by
  unfold buildLongLevels at h
  split_ifs at h with hinputs
  rw [not_or, not_le, not_le] at hinputs
  split at h
  · exact nomatch h
  · next method stop hmax =>
    obtain rfl := Except.ok.inj h
    obtain ⟨item, hitem, heq⟩ := List.mem_map.mp (List.argmax_mem hmax)
    have hvalid := of_decide_eq_true (List.mem_filter.mp hitem).2
    obtain rfl : max item.2 (price * (1 - c.maxStopFraction)) = stop := congrArg Prod.snd heq
    refine ⟨lt_max_of_lt_left hvalid.1, max_lt hvalid.2 ?_⟩
    change price * (1 - c.maxStopFraction) < price
    have hpositive := mul_pos hinputs.1 hfraction
    linarith

/-! ## 4. One call -/

/-- **What a call returns.** -/
theorem update_eq (h : updateProtectiveStop c current entry t.price t.atr = .ok next) :
    current < t.price ∧ 0 < t.atr ∧
      next = if current < entry ∧ Reached c entry current t.price then
        max (max current (trail c t)) entry else max current (trail c t) := by
  have htrail : t.price - t.atr * c.trailAtrMultiple = trail c t := by rw [trail, mul_comm]
  unfold updateProtectiveStop at h
  by_cases hinvalid : ¬ (0 < current ∧ current < t.price) ∨ entry ≤ 0 ∨ t.atr ≤ 0
  · rw [if_pos hinvalid] at h
    exact nomatch h
  rw [if_neg hinvalid] at h
  obtain rfl := Except.ok.inj h
  rw [not_or, not_or, not_not, not_le, not_le] at hinvalid
  obtain ⟨⟨-, hprice⟩, -, hatr⟩ := hinvalid
  refine ⟨hprice, hatr, ?_⟩
  rw [htrail]
  by_cases hbelow : current < entry
  · have hrisk : max (entry - current) 0 = entry - current := max_eq_left (sub_nonneg.mpr hbelow.le)
    rw [hrisk, mul_comm (entry - current)]
    by_cases hreached : Reached c entry current t.price
    · rw [if_pos ⟨sub_pos.mpr hbelow, hreached⟩, if_pos ⟨hbelow, hreached⟩, max_right_comm]
    · rw [if_neg fun h => hreached h.2, if_neg fun h => hreached h.2, max_self]
  · have hrisk : max (entry - current) 0 = 0 :=
      max_eq_right (sub_nonpos.mpr (not_lt.mp hbelow))
    rw [hrisk, if_neg fun h => lt_irrefl _ h.1, if_neg fun h => hbelow h.1, max_self]

theorem update_tightens (h : updateProtectiveStop c current entry t.price t.atr = .ok next) :
    current ≤ next := by
  obtain ⟨-, -, rfl⟩ := update_eq h
  split_ifs
  · exact (le_max_left _ _).trans (le_max_left _ _)
  · exact le_max_left _ _

theorem update_below (hrr : 0 < c.breakEvenAtRr) (hmultiple : 0 < c.trailAtrMultiple)
    (h : updateProtectiveStop c current entry t.price t.atr = .ok next) : next < t.price := by
  obtain ⟨hprice, hatr, rfl⟩ := update_eq h
  have htrail : trail c t < t.price := sub_lt_self _ (mul_pos hmultiple hatr)
  split_ifs with hmoved
  · have hgain := mul_pos hrr (sub_pos.mpr hmoved.1)
    exact max_lt (max_lt hprice htrail) (lt_of_lt_of_le (lt_add_of_pos_right _ hgain) hmoved.2)
  · exact max_lt hprice htrail

/-! ## 5. The plan -/

theorem planned_nil : planned c entry initialStop [] = {initialStop} := by
  ext level
  simp [planned]

theorem planned_concat : planned c entry initialStop (past ++ [t]) =
    planned c entry initialStop past ∪ {trail c t} ∪
      {level | level = entry ∧ Reached c entry initialStop t.price} := by
  ext level
  simp only [planned, List.mem_append, List.mem_singleton, or_and_right, exists_or,
    exists_eq_left, and_or_left, Set.mem_union, Set.mem_ofPred_eq, Set.mem_singleton_iff]
  simp only [or_assoc, or_left_comm, or_comm]

/-- The greatest level, one tick later. -/
theorem isGreatest_concat (h : IsGreatest (planned c entry initialStop past) current) :
    IsGreatest (planned c entry initialStop (past ++ [t]))
      (if Reached c entry initialStop t.price then max (max current (trail c t)) entry
        else max current (trail c t)) := by
  rw [planned_concat]
  have hwithout := h.union (isGreatest_singleton (a := trail c t))
  split_ifs with hreached
  · have hentry : {level | level = entry ∧ Reached c entry initialStop t.price} = {entry} := by
      ext level
      exact and_iff_left hreached
    rw [hentry]
    exact hwithout.union isGreatest_singleton
  · have hnone : {level | level = entry ∧ Reached c entry initialStop t.price} = ∅ := by
      ext level
      exact iff_of_false (fun h => hreached h.2) (Set.notMem_empty level)
    rw [hnone, Set.union_empty]
    exact hwithout

/-- **A call that starts on the plan ends on it** if and only if the two risks agree. -/
theorem isGreatest_update_iff (h : IsGreatest (planned c entry initialStop past) current)
    (hupdate : updateProtectiveStop c current entry t.price t.atr = .ok next) :
    IsGreatest (planned c entry initialStop (past ++ [t])) next ↔
      Agrees c entry initialStop current t := by
  have hplan := isGreatest_concat (t := t) h
  obtain ⟨-, -, hnext⟩ := update_eq hupdate
  have hiff : IsGreatest (planned c entry initialStop (past ++ [t])) next ↔
      next = if Reached c entry initialStop t.price then max (max current (trail c t)) entry
        else max current (trail c t) :=
    ⟨fun hnext => hnext.unique hplan, fun hnext => hnext ▸ hplan⟩
  rw [hiff, hnext, Agrees]
  by_cases hpassed : entry ≤ max current (trail c t)
  · refine iff_of_true ?_ (.inl hpassed)
    rw [max_eq_left hpassed, ite_self, ite_self]
  · have hbelow : current < entry := (le_max_left _ _).trans_lt (not_le.mp hpassed)
    have hmoved : max current (trail c t) ≠ max (max current (trail c t)) entry :=
      (lt_max_of_lt_right (not_le.mp hpassed)).ne
    rw [or_iff_right hpassed]
    by_cases hnow : Reached c entry current t.price <;>
      by_cases hinitial : Reached c entry initialStop t.price
    · rw [if_pos ⟨hbelow, hnow⟩, if_pos hinitial]
      exact iff_of_true rfl (iff_of_true hnow hinitial)
    · rw [if_pos ⟨hbelow, hnow⟩, if_neg hinitial]
      exact iff_of_false hmoved.symm fun h => hinitial (h.mp hnow)
    · rw [if_neg fun h => hnow h.2, if_pos hinitial]
      exact iff_of_false hmoved fun h => hnow (h.mpr hinitial)
    · rw [if_neg fun h => hnow h.2, if_neg hinitial]
      exact iff_of_true rfl (iff_of_false hnow hinitial)

/-! ## 6. All calls -/

theorem path_concat_iff : path c entry initialStop (past ++ [t]) = .ok next ↔
    ∃ current, path c entry initialStop past = .ok current ∧
      updateProtectiveStop c current entry t.price t.atr = .ok next := by
  rw [path, List.foldlM_append, bind_eq_ok_iff]
  simp only [List.foldlM_cons, List.foldlM_nil, bind_pure]
  rfl

/-- **From the stop that was placed** the calls return, as long as the price is above the stop. -/
theorem path_of_levels {price atr : ℚ} {swingLow : Option ℚ} {levels : TradeLevels}
    (hfraction : 0 < c.maxStopFraction) (h : buildLongLevels c price atr swingLow = .ok levels)
    (hticks : ∀ past t current, past ++ [t] <+: ticks →
      path c levels.entry levels.stop past = .ok current → 0 < t.atr ∧ current < t.price) :
    ∃ stop, path c levels.entry levels.stop ticks = .ok stop ∧ levels.stop ≤ stop := by
  obtain ⟨hstop, hentry⟩ := buildLongLevels_stop hfraction h
  induction ticks using List.reverseRecOn with
  | nil => exact ⟨_, rfl, le_rfl⟩
  | append_singleton past t ih =>
    obtain ⟨current, hpath, hle⟩ := ih fun past' t' current' hpre =>
      hticks past' t' current' (hpre.trans (List.prefix_append _ _))
    obtain ⟨hatr, hprice⟩ := hticks past t current List.prefix_rfl hpath
    have hvalid : ¬ (¬ (0 < current ∧ current < t.price) ∨ levels.entry ≤ 0 ∨ t.atr ≤ 0) := by
      rintro (hcurrent | hentry' | hatr')
      · exact hcurrent ⟨hstop.trans_le hle, hprice⟩
      · exact absurd (hstop.trans hentry) (not_lt.mpr hentry')
      · exact absurd hatr (not_lt.mpr hatr')
    obtain ⟨next, hnext⟩ : ∃ next,
        updateProtectiveStop c current levels.entry t.price t.atr = .ok next :=
      ⟨_, if_neg hvalid⟩
    exact ⟨next, path_concat_iff.mpr ⟨current, hpath, hnext⟩, hle.trans (update_tightens hnext)⟩

/-- If the calls agree, the stop is on the plan after all of them. -/
theorem isGreatest_path
    (h : ∀ past t current next, Called c entry initialStop ticks past t current next →
      Agrees c entry initialStop current t) (hpast : past <+: ticks)
    (hpath : path c entry initialStop past = .ok current) :
    IsGreatest (planned c entry initialStop past) current := by
  induction past using List.reverseRecOn generalizing current with
  | nil =>
    obtain rfl : initialStop = current := Except.ok.inj hpath
    rw [planned_nil]
    exact isGreatest_singleton
  | append_singleton past t ih =>
    obtain ⟨stop, hstop, hupdate⟩ := path_concat_iff.mp hpath
    have hgreatest := ih ((List.prefix_append past [t]).trans hpast) hstop
    exact (isGreatest_update_iff hgreatest hupdate).mpr
      (h past t stop current ⟨hpast, hstop, hupdate⟩)

/-- **The stop follows the plan after every call** if and only if in each call the risk that is left
and the initial risk agree on the move to the entry. -/
theorem planned_iff_agrees (c : TradeLevelConfig) (entry initialStop : ℚ) (ticks : List Tick) :
    (∀ past t current next, Called c entry initialStop ticks past t current next →
        Planned c entry initialStop past t current next) ↔
      ∀ past t current next, Called c entry initialStop ticks past t current next →
        Agrees c entry initialStop current t := by
  constructor
  · intro h past t current next hcall
    have hgreatest : IsGreatest (planned c entry initialStop past) current := by
      rcases List.eq_nil_or_concat past with rfl | ⟨past, last, rfl⟩
      · obtain rfl : initialStop = current := Except.ok.inj hcall.before
        rw [planned_nil]
        exact isGreatest_singleton
      · have hbefore := hcall.before
        have hpre := (List.prefix_append _ _).trans hcall.begins
        rw [List.concat_eq_append] at hbefore hpre ⊢
        obtain ⟨stop, hstop, hupdate⟩ := path_concat_iff.mp hbefore
        exact (h past last stop current ⟨hpre, hstop, hupdate⟩).greatest
    exact (isGreatest_update_iff hgreatest hcall.returned).mp (h _ _ _ _ hcall).greatest
  · intro h past t current next hcall
    have hgreatest := isGreatest_path h ((List.prefix_append _ _).trans hcall.begins) hcall.before
    exact ⟨update_tightens hcall.returned,
      fun hrr hmultiple => update_below hrr hmultiple hcall.returned,
      (isGreatest_update_iff hgreatest hcall.returned).mpr (h _ _ _ _ hcall)⟩

/-- The stop is tightened to 94, and at 106 it is moved to the entry, which the plan does at 110. -/
theorem break_even_too_early :
    Called {} 100 90 [⟨104, 5⟩, ⟨106, 8⟩] [⟨104, 5⟩] ⟨106, 8⟩ 94 100 ∧
      ¬ Planned {} 100 90 [⟨104, 5⟩] ⟨106, 8⟩ 94 100 := by
  refine ⟨⟨List.prefix_rfl, by decide +kernel, by decide +kernel⟩, fun h => ?_⟩
  rcases h.greatest.1 with hinitial | ⟨-, t, ht, hreached⟩ | ⟨t, ht, htrail⟩
  · exact absurd hinitial (by decide)
  · rw [List.cons_append, List.nil_append, List.mem_pair] at ht
    rcases ht with rfl | rfl <;> exact absurd hreached (by decide +kernel)
  · rw [List.cons_append, List.nil_append, List.mem_pair] at ht
    rcases ht with rfl | rfl <;> exact absurd htrail (by decide +kernel)

end Kripto.Strategy.Levels
