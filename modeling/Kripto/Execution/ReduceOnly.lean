/-
# A reduce-only order only reduces

`validate_reduce_only` compares the order of a call with the position, `evaluate_pretrade` does so
once more in its own words, and what is sent is the order rounded to the step of the symbol.

* `reduceOnly_end_to_end`: however much of a reduce-only order that `submit` sends is filled, the
  position does not grow and does not change its side, as long as the context rounds nothing up on
  the way; and wherever `evaluate_pretrade` returns, it gives a reduce-only reason exactly when
  `validate_reduce_only` raises.
-/
import Kripto.Execution.FailClosed
import Kripto.Execution.Normalization
import Kripto.Execution.Script

namespace Kripto.Execution

open Effect ExecutionService PyStr

open Python.DecimalContext (fix)

/-! ## 1. Positions -/

section

variable [PyStr]

/-- The position after a part of an order is filled. -/
def filled (position : ℚ) (side : String) (part : ℚ) : ℚ :=
  if upper side = "BUY" then position + part else position - part

/-- However much is filled, the position does not grow and keeps its side. -/
def OnlyReduces (position : ℚ) (order : OrderIntent) : Prop :=
  ∀ part, 0 ≤ part → part ≤ order.quantity →
    |filled position order.side part| ≤ |position| ∧
      0 ≤ position * filled position order.side part

variable {intent n : OrderIntent} {position : ℚ}

/-- **What `validate_reduce_only` passes** is against the position, and no more than it. -/
theorem validateReduceOnly_eq_ok_iff (hreduce : intent.reduceOnly = true) :
    validateReduceOnly intent (some position) = .ok () ↔
      (0 < position ∧ upper intent.side = "SELL" ∨ position < 0 ∧ upper intent.side = "BUY") ∧
        intent.quantity ≤ absolute position := by
  unfold validateReduceOnly
  rcases lt_trichotomy position 0 with hpos | rfl | hpos
  · by_cases hside : upper intent.side = "BUY" <;>
      by_cases hqty : absolute position < intent.quantity <;>
      simp [hreduce, hpos, hpos.ne, hpos.not_gt, hside, hqty, not_le.mpr, not_lt.mp]
  · simp [hreduce]
  · by_cases hside : upper intent.side = "SELL" <;>
      by_cases hqty : absolute position < intent.quantity <;>
      simp [hreduce, hpos, hpos.ne', hpos.not_gt, hside, hqty, not_le.mpr, not_lt.mp]

/-- A part of an order that `validate_reduce_only` passes. -/
theorem onlyReduces_of_valid (hreduce : intent.reduceOnly = true)
    (hvalid : validateReduceOnly intent (some position) = .ok ()) (hside : n.side = intent.side)
    (hqty : n.quantity ≤ intent.quantity) (habsolute : absolute position ≤ |position|) :
    OnlyReduces position n := by
  obtain ⟨hagainst, hle⟩ := (validateReduceOnly_eq_ok_iff hreduce).mp hvalid
  intro part hpart hfill
  have htotal : part ≤ |position| := hfill.trans (hqty.trans (hle.trans habsolute))
  unfold filled
  rw [hside]
  rcases hagainst with ⟨hpos, hsell⟩ | ⟨hneg, hbuy⟩
  · rw [abs_of_pos hpos] at htotal
    have hrest : 0 ≤ position - part := by linarith
    rw [hsell, if_neg (by decide), abs_of_nonneg hrest, abs_of_pos hpos]
    exact ⟨by linarith, mul_nonneg hpos.le hrest⟩
  · rw [abs_of_neg hneg] at htotal
    have hrest : position + part ≤ 0 := by linarith
    rw [hbuy, if_pos rfl, abs_of_nonpos hrest, abs_of_neg hneg]
    exact ⟨by linarith, mul_nonneg_of_nonpos_of_nonpos hneg.le hrest⟩

/-- The context rounds nothing up: not the number of steps over a whole number, nor so many steps,
nor the size of the position. -/
structure RoundsNoneUp (step qty position : ℚ) : Prop where
  steps : (⌊fix (qty / step)⌋ : ℚ) ≤ qty / step
  product : multiple step ⌊fix (qty / step)⌋ ≤ ⌊fix (qty / step)⌋ * step
  position : absolute position ≤ |position|

/-- Rounding down to the step takes nothing away from zero and adds nothing. -/
theorem normalizeQuantity_le {qty step rounded : ℚ} (hqty : 0 < qty)
    (hnone : RoundsNoneUp step qty position) (h : normalizeQuantity qty step = .ok rounded) :
    rounded ≤ qty := by
  by_cases hstep : step ≤ 0
  · rw [normalizeQuantity, quantizeStep, if_pos hstep] at h
    cases h
  · have hpos : 0 < step := not_le.mp hstep
    rw [normalizeQuantity_eq hpos hqty.le] at h
    rw [← Except.ok.inj h]
    exact hnone.product.trans ((le_div_iff₀ hpos).mp hnone.steps)

/-! ## 2. The second check -/

/-- `validate_reduce_only` and the reasons of `evaluate_pretrade` judge alike. -/
theorem reduceOnlyReasons_eq_nil_iff :
    reduceOnlyReasons intent position = [] ↔
      validateReduceOnly intent (some position) = .ok () := by
  unfold reduceOnlyReasons validateReduceOnly
  dsimp only
  split_ifs <;> simp

/-- `REDUCE_ONLY_*`. -/
def IsReduceOnlyReason (reason : String) : Prop := "REDUCE_ONLY_".toList <+: reason.toList

instance IsReduceOnlyReason.decidable : DecidablePred IsReduceOnlyReason := fun reason =>
  inferInstanceAs (Decidable ("REDUCE_ONLY_".toList <+: reason.toList))

omit [PyStr] in
theorem exists_reasonIf {c : Prop} [Decidable c] {reason : String} {P : String → Prop} :
    (∃ r, r ∈ reasonIf c reason ∧ P r) ↔ c ∧ P reason := by
  by_cases hc : c <;> simp [reasonIf, hc]

theorem exists_reduceOnlyReasons :
    (∃ r, r ∈ reduceOnlyReasons intent position ∧ IsReduceOnlyReason r) ↔
      reduceOnlyReasons intent position ≠ [] := by
  unfold reduceOnlyReasons
  split_ifs <;> simp <;> decide

/-- **A decision has a reduce-only reason** exactly when `validate_reduce_only` raises. -/
theorem exists_reason_iff {limits : PreTradeLimits} {ctx : PreTradeContext} {now : ℤ}
    {d : PreTradeDecision} (h : evaluatePretrade intent limits ctx now = .ok d) :
    (∃ r, r ∈ d.reasons ∧ IsReduceOnlyReason r) ↔
      ∃ e, validateReduceOnly intent (some ctx.currentPositionQty) = .error e := by
  have hraises : (∃ e, validateReduceOnly intent (some ctx.currentPositionQty) = .error e) ↔
      reduceOnlyReasons intent ctx.currentPositionQty ≠ [] := by
    rw [ne_eq, reduceOnlyReasons_eq_nil_iff]
    cases validateReduceOnly intent (some ctx.currentPositionQty) <;> simp
  simp only [evaluatePretrade, raiseIf_bind_eq_ok_iff] at h
  obtain ⟨-, h⟩ := h
  obtain ⟨deviation, -, h⟩ := bind_eq_ok h
  obtain rfl := Except.ok.inj h
  simp only [List.mem_append, or_and_right, exists_or, exists_reasonIf]
  rw [hraises, exists_reduceOnlyReasons]
  -- no other reason begins like this
  have hothers : ∀ reason ∈ ["SIDE_SANITY", "TRADING_STATE_BLOCKS_NEW_RISK", "SYMBOL_NOT_TRADING",
      "STALE_REFERENCE_PRICE", "MAX_QUANTITY", "MAX_ORDER_NOTIONAL", "MAX_POSITION_NOTIONAL",
      "PRICE_COLLAR", "SPREAD_LIMIT", "SLIPPAGE_LIMIT", "EXCHANGE_MIN_PRICE", "EXCHANGE_MAX_PRICE",
      "INSUFFICIENT_AVAILABLE_BALANCE"], ¬ IsReduceOnlyReason reason := by
    decide
  simp only [List.forall_mem_cons] at hothers
  simp only [hothers, and_false, false_or]

end

/-! ## 3. From the call to the fill -/

/-- What is sent has been normalized, and only reduces the position if the context rounds nothing
up. -/
def SendsReducing [PyStr] (a : SubmitArgs) : Op → Prop
  | .submitOrder n => ∃ position, a.currentPositionQty = some position ∧
    (∃ filters cap, normalizeAndValidate a.intent filters cap a.referencePrice a.maxDeviationBps =
      .ok n) ∧
    ∀ filters cap,
      normalizeAndValidate a.intent filters cap a.referencePrice a.maxDeviationBps = .ok n →
        RoundsNoneUp filters.stepSize a.intent.quantity position → OnlyReduces position n
  | _ => True

/-- **A reduce-only order only reduces**, for every exchange, every answer of the surroundings and
every part that is filled, if the context rounds nothing up; and the two checks agree wherever the
second one returns. -/
theorem reduceOnly_end_to_end [PyStr] {σ : Type} (H : Handler execSig σ) (self : ExecutionService)
    (a : SubmitArgs) (hreduce : a.intent.reduceOnly = true) (hqty : 0 < a.intent.quantity) :
    (∀ s s' n k, Exec H (submit self a) s (.op (.submitOrder n) k) s' →
      ∃ position, a.currentPositionQty = some position ∧
        (∃ filters cap, normalizeAndValidate a.intent filters cap a.referencePrice
          a.maxDeviationBps = .ok n) ∧
        ∀ filters cap,
          normalizeAndValidate a.intent filters cap a.referencePrice a.maxDeviationBps = .ok n →
            RoundsNoneUp filters.stepSize a.intent.quantity position → OnlyReduces position n) ∧
    ∀ limits ctx now d, evaluatePretrade a.intent limits ctx now = .ok d →
      ((∃ r, r ∈ d.reasons ∧ IsReduceOnlyReason r) ↔
        ∃ e, validateReduceOnly a.intent (some ctx.currentPositionQty) = .error e) := by
  refine ⟨fun s s' n k hexec => ?_, fun limits ctx now d => exists_reason_iff⟩
  have hwithin : (submit self a).Within (SendsReducing a) := by
    refine within_submit (fun o ho => ?_) (fun o ho => ?_) fun hadmitted n filters cap hnorm => ?_
    · cases o <;> first | exact ho.elim | trivial
    · cases o <;> first | exact ho.elim | trivial
    · have hvalid := hadmitted.reduceOnly
      cases hposition : a.currentPositionQty with
      | none => simp [hposition, validateReduceOnly, hreduce] at hvalid
      | some position =>
        rw [hposition] at hvalid
        refine ⟨position, hposition, ⟨filters, cap, hnorm⟩, fun filters cap hnorm hnone => ?_⟩
        obtain ⟨qty, price, hround, -, rfl⟩ := normalizeAndValidate_eq_ok hnorm
        exact onlyReduces_of_valid hreduce hvalid rfl (normalizeQuantity_le hqty hnone hround)
          hnone.position
  exact (hexec.within hwithin).1

/-- A `SELL` of one that may only reduce a position of two. -/
def reduceCall : SubmitArgs where
  intent := { buyOne with side := "SELL", reduceOnly := true }
  referencePrice := 100
  maxDeviationBps := 100
  currentPositionQty := some 2

/-- Surroundings that answer anything. -/
def anything : Handler execSig Unit := fun _ _ _ _ => True

section

attribute [local instance] asciiStr

theorem reduceOnly_end_to_end_sell :
    (∀ s s' n k, Exec anything (submit { id := 0, accountLocks := 0 } reduceCall) s
      (.op (.submitOrder n) k) s' →
        ∃ filters cap, normalizeAndValidate reduceCall.intent filters cap 100 100 = .ok n ∧
          (filters.stepSize = 1 / 10 → OnlyReduces 2 n)) ∧
    ∀ limits ctx now d, evaluatePretrade reduceCall.intent limits ctx now = .ok d →
      ((∃ r, r ∈ d.reasons ∧ IsReduceOnlyReason r) ↔
        ∃ e, validateReduceOnly reduceCall.intent (some ctx.currentPositionQty) = .error e) := by
  obtain ⟨hsent, hreasons⟩ :=
    reduceOnly_end_to_end anything { id := 0, accountLocks := 0 } reduceCall rfl one_pos
  refine ⟨fun s s' n k hexec => ?_, hreasons⟩
  obtain ⟨position, hposition, ⟨filters, cap, hnorm⟩, hreduces⟩ := hsent s s' n k hexec
  refine ⟨filters, cap, hnorm, fun hstep => ?_⟩
  obtain rfl := Option.some.inj hposition
  refine hreduces filters cap hnorm ?_
  rw [hstep]
  exact ⟨by decide +kernel, by decide +kernel, by decide +kernel⟩

attribute [local instance] exactColumn

/-- The whole of a position that is just under three steps. -/
def wholeCall : SubmitArgs :=
  { reduceCall with
    intent := { reduceCall.intent with quantity := 8999999999999999999999999999 / 10 ^ 28 }
    currentPositionQty := some (8999999999999999999999999999 / 10 ^ 28) }

def threeTenths : Instrument := { Instrument.plain with
  filters := { Instrument.plain.filters with stepSize := 3 / 10 } }

/-- The call about to send. -/
def closing : Program OrderRecord × World Unit :=
  (submit { id := 0, accountLocks := 0 } wholeCall).playFor
    (cooperate threeTenths .acknowledging) 8 (World.empty ())

/-- **A flat position that is not reported**: without a reference price the second check raises
before it gives a reason.  And a position that changes its side: three steps are sent. -/
theorem flat_not_reported : (¬ ∀ [PyStr] (intent : OrderIntent) (limits : PreTradeLimits)
    (ctx : PreTradeContext) (now : ℤ), (∃ d, evaluatePretrade intent limits ctx now = .ok d ∧
      ∃ r, r ∈ d.reasons ∧ IsReduceOnlyReason r) ↔
        ∃ e, validateReduceOnly intent (some ctx.currentPositionQty) = .error e) ∧
    ∃ n k s', Exec (handler (Exchange.any Unit))
      (submit { id := 0, accountLocks := 0 } wholeCall) (World.empty ()) (.op (.submitOrder n) k)
        s' ∧ ¬ OnlyReduces (8999999999999999999999999999 / 10 ^ 28) n := by
  constructor
  · intro h
    have hraises : ∃ e, validateReduceOnly reduceCall.intent
        (some { crossedContext with referencePrice := 0 }.currentPositionQty) = .error e :=
      ⟨_, rfl⟩
    obtain ⟨d, hd, -⟩ := (h _ ⟨1000, 10, 1000, 100, 50, 50, 3000⟩ _ 0).mpr hraises
    simp only [evaluatePretrade, raiseIf_bind_eq_ok_iff] at hd
    obtain ⟨deviation, hdeviation, -⟩ := bind_eq_ok hd.2
    exact absurd (guardBps_eq_ok_iff.mp hdeviation).1 (lt_irrefl 0)
  · have hsending : (sending closing.1).map (·.quantity) = some (9 / 10) := by decide +kernel
    obtain ⟨n, hn, hqty⟩ := Option.map_eq_some_iff.mp hsending
    obtain ⟨k, hk⟩ := eq_op_of_sending hn
    have hexec := exec_playFor (cooperate_picks (Venue.picks_any Venue.acknowledging) threeTenths) 8
      (submit { id := 0, accountLocks := 0 } wholeCall) (World.empty ())
    rw [show (Prog.playFor _ 8 _ _).1 = _ from hk] at hexec
    refine ⟨n, k, _, hexec, fun honly => ?_⟩
    have hsell : upper n.side = "SELL" := by
      have hside : (sending closing.1).map (fun n => upper n.side) = some "SELL" := by
        decide +kernel
      rw [hn] at hside
      exact Option.some.inj hside
    obtain ⟨-, hsign⟩ := honly n.quantity (by rw [hqty]; norm_num) le_rfl
    rw [filled, hsell, if_neg (by decide), hqty] at hsign
    norm_num at hsign

end

end Kripto.Execution
