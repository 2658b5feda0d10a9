/-
# What normalization returns

`normalize_and_validate` rounds the quantity down to the step, rounds the price to the tick in the
favour of the order, and checks what it has rounded.  It takes a price of zero for a missing one and
a maximal notional of zero for none.

* `normalized_iff`: with exact `Decimal`s, what it returns is normalized just when the price is not
  rounded to zero (or there is no minimal notional) and the maximal notional is not zero (or the
  notional is);
* `priced_at_zero`: an order whose price is rounded to zero passes the minimal notional.
-/
import Kripto.Effect.Grid
import Kripto.Effect.Outcome
import Kripto.Execution.PreTrade
import Mathlib.Tactic.Linarith

namespace Kripto.Execution

open Effect PyStr Python

open Python.DecimalContext (fix fix_nonneg fix_nonpos Exact)

/-! ## 1. Rounding -/

section Integral

variable {u : ℚ}

theorem toIntegralValue_of_nonneg (h : 0 ≤ u) :
    toIntegralValue u .down = ⌊u⌋ ∧ toIntegralValue u .up = ⌈u⌉ :=
  ⟨if_pos h, (if_pos h).trans (Rat.ceil_eq_neg_floor_neg _)⟩

theorem toIntegralValue_of_nonpos (h : u ≤ 0) :
    toIntegralValue u .down = ⌈u⌉ ∧ toIntegralValue u .up = ⌊u⌋ := by
  rcases h.eq_or_lt with rfl | hneg
  · exact ⟨rfl, rfl⟩
  · exact ⟨(if_neg (not_le.mpr hneg)).trans (Rat.ceil_eq_neg_floor_neg _),
      if_neg (not_le.mpr hneg)⟩

end Integral

section Rounding

variable {step value : ℚ}

section

variable [DecimalContext]

/-- So many steps, as the context multiplies. -/
def multiple (step : ℚ) (k : ℤ) : ℚ := fix (k * step)

/-- The quantity, rounded down to the step. -/
def roundedQuantity (step quantity : ℚ) : ℚ := multiple step ⌊fix (quantity / step)⌋

theorem normalizeQuantity_eq (hstep : 0 < step) (h : 0 ≤ value) :
    normalizeQuantity value step = .ok (roundedQuantity step value) := by
  have hunits := (toIntegralValue_of_nonneg (fix_nonneg (div_nonneg h hstep.le))).1
  rw [normalizeQuantity, quantizeStep, if_neg (not_le.mpr hstep), hunits]
  rfl

/-- The quotient of just under three is rounded to three. -/
example : @roundedQuantity defaultContext (3 / 10) (8999999999999999999999999999 / 10 ^ 28) =
    9 / 10 := by
  decide +kernel

theorem multiple_mono {i j : ℤ} (hstep : 0 < step) (hle : i ≤ j) :
    multiple step i ≤ multiple step j :=
  DecimalContext.fix_mono (mul_le_mul_of_nonneg_right (Int.cast_le.mpr hle) hstep.le)

theorem roundedQuantity_nonneg (hstep : 0 < step) (h : 0 ≤ value) :
    0 ≤ roundedQuantity step value := by
  have hfloor : 0 ≤ ⌊fix (value / step)⌋ :=
    Int.floor_nonneg.mpr (fix_nonneg (div_nonneg h hstep.le))
  exact fix_nonneg (mul_nonneg (Int.cast_nonneg hfloor) hstep.le)

theorem roundedQuantity_of_exact (hexact : Exact) : roundedQuantity step value =
    floorOn step value := by
  rw [roundedQuantity, multiple, hexact, hexact]
  rfl

end

variable [PyStr]

/-- Towards zero to buy, away from it to sell. -/
def RoundsDown (side : String) (price : ℚ) : Prop := upper side = "BUY" ↔ 0 ≤ price

instance (side : String) (price : ℚ) : Decidable (RoundsDown side price) :=
  inferInstanceAs (Decidable (_ ↔ _))

/-- The price, rounded in the favour of the order. -/
def roundedPrice (side : String) (tick price : ℚ) : ℚ :=
  multiple tick (if RoundsDown side price then ⌊fix (price / tick)⌋ else ⌈fix (price / tick)⌉)

theorem normalizePrice_eq (side : String) (price : ℚ) (hstep : 0 < step) :
    normalizePrice price step side = .ok (roundedPrice side step price) := by
  rw [normalizePrice, quantizeStep, if_neg (not_le.mpr hstep), roundedPrice, multiple]
  rcases le_total 0 price with hprice | hprice
  · have hunits := toIntegralValue_of_nonneg (fix_nonneg (div_nonneg hprice hstep.le))
    have hdown : RoundsDown side price ↔ upper side = "BUY" := iff_true_right hprice
    by_cases hbuy : upper side = "BUY"
    · rw [if_pos hbuy, hunits.1, if_pos (hdown.mpr hbuy)]
    · rw [if_neg hbuy, hunits.2, if_neg (hdown.not.mpr hbuy)]
  · have hunits := toIntegralValue_of_nonpos (fix_nonpos (div_nonpos_of_nonpos_of_nonneg hprice
      hstep.le))
    rcases hprice.eq_or_lt with rfl | hneg
    · have hzero : ∀ direction, toIntegralValue 0 direction = 0 := by
        rintro ⟨⟩ <;> rfl
      simp [hzero]
    · have hdown : RoundsDown side price ↔ upper side ≠ "BUY" := iff_false_right (not_le.mpr hneg)
      by_cases hbuy : upper side = "BUY"
      · rw [if_pos hbuy, hunits.1, if_neg (hdown.not.mpr (not_not.mpr hbuy))]
      · rw [if_neg hbuy, hunits.2, if_pos (hdown.mpr hbuy)]

/-- The price on the grid of the ticks. -/
def gridPrice (side : String) (tick price : ℚ) : ℚ :=
  if RoundsDown side price then floorOn tick price else ceilOn tick price

theorem roundedPrice_of_exact (hexact : Exact) (side : String) (tick price : ℚ) :
    roundedPrice side tick price = gridPrice side tick price := by
  rw [roundedPrice, multiple, hexact, hexact, gridPrice]
  split_ifs <;> rfl

theorem gridPrice_mem (side : String) (tick price : ℚ) :
    gridPrice side tick price ∈ grid tick := by
  unfold gridPrice
  split_ifs
  · exact floorOn_mem tick price
  · exact ceilOn_mem tick price

theorem gridPrice_of_mem (side : String) (hstep : 0 < step) (h : value ∈ grid step) :
    gridPrice side step value = value := by
  unfold gridPrice
  split_ifs
  · exact floorOn_of_mem hstep h
  · exact ceilOn_of_mem hstep h

theorem gridPrice_nonneg (side : String) (hstep : 0 < step) (h : 0 ≤ value) :
    0 ≤ gridPrice side step value := by
  unfold gridPrice
  split_ifs
  · exact floorOn_nonneg hstep h
  · exact h.trans (le_ceilOn hstep)

/-- Only a price below the tick is rounded to zero, and only to buy. -/
theorem gridPrice_eq_zero_iff (side : String) (hstep : 0 < step) (h : 0 < value) :
    gridPrice side step value = 0 ↔ upper side = "BUY" ∧ value < step := by
  have hdown : RoundsDown side value ↔ upper side = "BUY" := iff_true_right h.le
  unfold gridPrice
  split_ifs with hside
  · rw [floorOn_eq_zero_iff hstep h.le, and_iff_right (hdown.mp hside)]
  · exact iff_of_false (h.trans_le (le_ceilOn hstep)).ne' fun hbuy => hside (hdown.mpr hbuy.1)

/-- **Rounding** moves the price less than a tick, and not against the order. -/
theorem gridPrice_near (side : String) (hstep : 0 < step) (h : 0 < value) :
    |gridPrice side step value - value| < step ∧
      (upper side = "BUY" → gridPrice side step value ≤ value) ∧
      (upper side ≠ "BUY" → value ≤ gridPrice side step value) := by
  have hdown : RoundsDown side value ↔ upper side = "BUY" := iff_true_right h.le
  unfold gridPrice
  split_ifs with hside
  · have hle : floorOn step value ≤ value := floorOn_le hstep
    have hlt : value - step < floorOn step value := sub_lt_floorOn hstep
    rw [abs_lt]
    exact ⟨⟨by linarith, by linarith⟩, fun _ => hle, absurd (hdown.mp hside)⟩
  · have hle : value ≤ ceilOn step value := le_ceilOn hstep
    have hlt : ceilOn step value < value + step := ceilOn_lt_add hstep
    rw [abs_lt]
    exact ⟨⟨by linarith, by linarith⟩, fun hbuy => absurd (hdown.mpr hbuy) hside, fun _ => hle⟩

end Rounding

/-! ## 2. What is returned -/

section Returned

variable [PyStr] {intent n : OrderIntent} {filters : SymbolFilters} {cap : Capabilities}
  {referencePrice maxDeviationBps : ℚ}

/-- The checks, and the intent with its values rounded. -/
structure Accepted (intent n : OrderIntent) (filters : SymbolFilters) (cap : Capabilities)
    (referencePrice maxDeviationBps : ℚ) : Prop where
  supported : supportedType cap (upper intent.orderType) = true
  quantity : filters.minQty ≤ n.quantity ∧ n.quantity ≤ filters.maxQty
  minNotional : filters.minNotional ≤ fix (checkPrice n.price referencePrice * n.quantity)
  maxNotional : exceedsMaxNotional filters.maxNotional
    (fix (checkPrice n.price referencePrice * n.quantity)) = false
  collar : checkCollar n.price referencePrice maxDeviationBps = .ok ()
  eq : n = { intent with
    orderType := upper intent.orderType
    quantity := roundedQuantity filters.stepSize intent.quantity
    price := intent.price.map (roundedPrice intent.side filters.tickSize)
    clientOrderId := some (orText intent.clientOrderId intent.intentId) }

theorem normalizedPrice_eq (htick : 0 < filters.tickSize) : normalizedPrice intent filters =
    .ok (intent.price.map (roundedPrice intent.side filters.tickSize)) := by
  unfold normalizedPrice
  cases intent.price with
  | none => rfl
  | some p =>
    dsimp only
    rw [normalizePrice_eq intent.side p htick]
    rfl

/-- **What is returned** has passed the checks, and what passes them is returned. -/
theorem normalizeAndValidate_eq_ok_iff (hstep : 0 < filters.stepSize)
    (htick : 0 < filters.tickSize) (hqty : 0 ≤ intent.quantity) :
    normalizeAndValidate intent filters cap referencePrice maxDeviationBps = .ok n ↔
      Accepted intent n filters cap referencePrice maxDeviationBps := by
  have hquantity := normalizeQuantity_eq hstep hqty
  simp only [normalizeAndValidate, hquantity, normalizedPrice_eq htick, ok_bind, pure_eq_ok,
    bind_eq_ok_iff, raiseIf_eq_ok_iff, exists_const, not_or, not_lt, Bool.not_eq_false,
    Bool.not_eq_true, Except.ok.injEq]
  constructor
  · rintro ⟨hsupported, hbounds, hmin, hmax, ⟨⟩, hcollar, rfl⟩
    exact ⟨hsupported, hbounds, hmin, hmax, hcollar, rfl⟩
  · rintro ⟨hsupported, hbounds, hmin, hmax, hcollar, rfl⟩
    exact ⟨hsupported, hbounds, hmin, hmax, (), hcollar, rfl⟩

/-- At its own price, or at the reference price if it has none. -/
def notional (n : OrderIntent) (referencePrice : ℚ) : ℚ := n.price.getD referencePrice * n.quantity

/-- **An order is normalized**: on both grids, within every filter, and the same again. -/
structure Normalized (intent n : OrderIntent) (filters : SymbolFilters) (cap : Capabilities)
    (referencePrice maxDeviationBps : ℚ) : Prop where
  quantity : IsGreatest {q | q ∈ grid filters.stepSize ∧ q ≤ intent.quantity} n.quantity
  quantity_bounds : filters.minQty ≤ n.quantity ∧ n.quantity ≤ filters.maxQty
  unpriced : intent.price = none → n.price = none
  price : ∀ p ∈ intent.price, ∃ p' ∈ n.price, p' ∈ grid filters.tickSize ∧
    |p' - p| < filters.tickSize ∧ (upper intent.side = "BUY" → p' ≤ p) ∧
    (upper intent.side ≠ "BUY" → p ≤ p')
  minNotional : filters.minNotional ≤ notional n referencePrice
  maxNotional : ∀ m ∈ filters.maxNotional, notional n referencePrice ≤ m
  collar : ∀ p ∈ n.price, |p - referencePrice| / referencePrice * 10000 ≤ maxDeviationBps
  again : normalizeAndValidate n filters cap referencePrice maxDeviationBps = .ok n

/-- The price is rounded to zero. -/
def PricedAtZero (intent : OrderIntent) (filters : SymbolFilters) : Prop :=
  upper intent.side = "BUY" ∧ ∃ p ∈ intent.price, p < filters.tickSize

/-! ## 3. Its parts -/

section

omit [PyStr] in
theorem checkPrice_of_ne {price : Option ℚ} (h : price ≠ some 0) :
    checkPrice price referencePrice = price.getD referencePrice := by
  cases price with
  | none => rfl
  | some p => exact if_neg fun hp => h (congrArg some hp)

theorem distanceBps_of_exact (hexact : Exact) (a b : ℚ) :
    distanceBps a b = |a - b| / b * 10000 := by
  simp only [distanceBps, absolute, hexact _]

theorem checkCollar_eq_ok {price : Option ℚ} (hexact : Exact) (href : 0 < referencePrice)
    (h : checkCollar price referencePrice maxDeviationBps = .ok ()) :
    ∀ p ∈ price, |p - referencePrice| / referencePrice * 10000 ≤ maxDeviationBps := by
  rintro p rfl
  rw [checkCollar, bpsDistance, if_neg href.ne', ok_bind, raiseIf_eq_ok_iff, not_lt,
    distanceBps_of_exact hexact] at h
  exact h

theorem map_roundedPrice (hexact : Exact) (side : String) (tick : ℚ) (price : Option ℚ) :
    price.map (roundedPrice side tick) = price.map (gridPrice side tick) :=
  Option.map_congr fun p _ => roundedPrice_of_exact hexact side tick p

end

theorem supportedType_again
    (hupper : ∀ typ ∈ ["MARKET", "LIMIT", "STOP_LOSS_LIMIT", "TAKE_PROFIT_LIMIT"], upper typ = typ)
    {typ : String} (h : supportedType cap (upper typ) = true) : upper (upper typ) = upper typ := by
  refine hupper _ ?_
  by_contra hnot
  simp only [List.mem_cons, List.not_mem_nil, or_false, not_or] at hnot
  obtain ⟨hmarket, hlimit, hstop, htake⟩ := hnot
  rw [supportedType, if_neg hmarket, if_neg hlimit, if_neg hstop, if_neg htake] at h
  cases h

/-- **Normalizing again** changes nothing. -/
theorem Accepted.again (hexact : Exact)
    (hupper : ∀ typ ∈ ["MARKET", "LIMIT", "STOP_LOSS_LIMIT", "TAKE_PROFIT_LIMIT"], upper typ = typ)
    (hstep : 0 < filters.stepSize) (htick : 0 < filters.tickSize) (hqty : 0 ≤ intent.quantity)
    (h : Accepted intent n filters cap referencePrice maxDeviationBps) :
    normalizeAndValidate n filters cap referencePrice maxDeviationBps = .ok n := by
  obtain ⟨hsupported, hbounds, hmin, hmax, hcollar, rfl⟩ := h
  have htyp := supportedType_again hupper hsupported
  have hquantity : roundedQuantity filters.stepSize
      (roundedQuantity filters.stepSize intent.quantity) =
        roundedQuantity filters.stepSize intent.quantity := by
    rw [roundedQuantity_of_exact hexact, roundedQuantity_of_exact hexact]
    exact floorOn_of_mem hstep (floorOn_mem filters.stepSize intent.quantity)
  have hrounded : (intent.price.map (roundedPrice intent.side filters.tickSize)).map
      (roundedPrice intent.side filters.tickSize) =
        intent.price.map (roundedPrice intent.side filters.tickSize) := by
    rw [map_roundedPrice hexact, map_roundedPrice hexact, Option.map_map]
    exact Option.map_congr fun p _ =>
      gridPrice_of_mem intent.side htick (gridPrice_mem intent.side filters.tickSize p)
  refine (normalizeAndValidate_eq_ok_iff hstep htick (roundedQuantity_nonneg hstep hqty)).mpr
    ⟨?_, hbounds, hmin, hmax, hcollar, ?_⟩
  · rw [htyp]
    exact hsupported
  · dsimp only
    rw [htyp, hquantity, hrounded, orText_orText]

/-! ## 4. The notional -/

/-- The price is zero exactly if it is rounded to zero. -/
theorem Accepted.price_eq_zero_iff (hexact : Exact) (htick : 0 < filters.tickSize)
    (hprice : ∀ p ∈ intent.price, 0 < p)
    (h : Accepted intent n filters cap referencePrice maxDeviationBps) :
    n.price = some 0 ↔ PricedAtZero intent filters := by
  have hn : n.price = intent.price.map (gridPrice intent.side filters.tickSize) := by
    rw [h.eq, map_roundedPrice hexact]
  rw [hn, Option.map_eq_some_iff, PricedAtZero]
  constructor
  · rintro ⟨p, hp, hzero⟩
    obtain ⟨hbuy, hlt⟩ := (gridPrice_eq_zero_iff intent.side htick (hprice p hp)).mp hzero
    exact ⟨hbuy, p, hp, hlt⟩
  · rintro ⟨hbuy, p, hp, hlt⟩
    exact ⟨p, hp, (gridPrice_eq_zero_iff intent.side htick (hprice p hp)).mpr ⟨hbuy, hlt⟩⟩

/-- **The minimal notional** is kept, unless the price is rounded to zero. -/
theorem Accepted.minNotional_iff (hexact : Exact)
    (h : Accepted intent n filters cap referencePrice maxDeviationBps) :
    filters.minNotional ≤ notional n referencePrice ↔
      (n.price = some 0 → filters.minNotional ≤ 0) := by
  by_cases hzero : n.price = some 0
  · have hnotional : notional n referencePrice = 0 := by
      rw [notional, hzero, Option.getD_some, zero_mul]
    rw [hnotional]
    exact ⟨fun hle _ => hle, fun hle => hle hzero⟩
  · have hmin := h.minNotional
    rw [hexact, checkPrice_of_ne hzero] at hmin
    exact iff_of_true hmin fun hp => absurd hp hzero

/-- **The maximal notional** is kept, unless it is zero. -/
theorem Accepted.maxNotional_iff (hexact : Exact) (href : 0 < referencePrice)
    (hqty : 0 ≤ n.quantity) (hprice : ∀ p ∈ n.price, 0 ≤ p)
    (h : Accepted intent n filters cap referencePrice maxDeviationBps) :
    (∀ m ∈ filters.maxNotional, notional n referencePrice ≤ m) ↔
      (filters.maxNotional = some 0 → n.price = some 0 ∨ n.quantity = 0) := by
  have hown : 0 ≤ n.price.getD referencePrice := by
    cases hp : n.price with
    | none => exact href.le
    | some p => exact hprice p hp
  have hexceeds := h.maxNotional
  rw [hexact] at hexceeds
  cases hmax : filters.maxNotional with
  | none => exact iff_of_true (fun m hm => by cases hm) fun hm => by cases hm
  | some m =>
    rw [hmax] at hexceeds
    have hle : m ≠ 0 → checkPrice n.price referencePrice * n.quantity ≤ m := by
      intro hm
      simpa [exceedsMaxNotional, hm] using hexceeds
    rw [Option.some.injEq]
    by_cases hm : m = 0
    · have hzero : n.price.getD referencePrice = 0 ↔ n.price = some 0 := by
        cases n.price with
        | none => exact iff_of_false href.ne' fun hp => by cases hp
        | some p => rw [Option.getD_some, Option.some.injEq]
      rw [hm, imp_iff_right rfl, ← hzero, ← mul_eq_zero]
      constructor
      · exact fun hle => le_antisymm (hle 0 rfl) (mul_nonneg hown hqty)
      · rintro hnotional _ ⟨⟩
        exact hnotional.le
    · have hm' := hle hm
      refine iff_of_true ?_ fun hzero => absurd hzero hm
      rintro _ ⟨⟩
      by_cases hzero : n.price = some 0
      · have hcheck : 0 ≤ checkPrice n.price referencePrice := by
          rw [hzero, checkPrice, if_pos rfl]
          exact href.le
        rw [notional, hzero, Option.getD_some, zero_mul]
        exact (mul_nonneg hcheck hqty).trans hm'
      · rwa [checkPrice_of_ne hzero] at hm'

/-! ## 5. Normalization -/

/-- **What is returned is normalized**, except that a price of zero escapes the minimal notional and
a maximal notional of zero is none. -/
theorem normalized_iff (hexact : Exact) (intent n : OrderIntent) (filters : SymbolFilters)
    (cap : Capabilities) (referencePrice maxDeviationBps : ℚ)
    (hupper : ∀ typ ∈ ["MARKET", "LIMIT", "STOP_LOSS_LIMIT", "TAKE_PROFIT_LIMIT"], upper typ = typ)
    (hqty : 0 < intent.quantity) (hprice : ∀ p ∈ intent.price, 0 < p)
    (htick : 0 < filters.tickSize) (hstep : 0 < filters.stepSize) (href : 0 < referencePrice)
    (h : normalizeAndValidate intent filters cap referencePrice maxDeviationBps = .ok n) :
    Normalized intent n filters cap referencePrice maxDeviationBps ↔
      (PricedAtZero intent filters → filters.minNotional ≤ 0) ∧
        (filters.maxNotional = some 0 →
          PricedAtZero intent filters ∨ intent.quantity < filters.stepSize) := by
  have haccepted := (normalizeAndValidate_eq_ok_iff hstep htick hqty.le).mp h
  have hpriced : n.price = intent.price.map (gridPrice intent.side filters.tickSize) := by
    rw [haccepted.eq, map_roundedPrice hexact]
  have hquantity : n.quantity = floorOn filters.stepSize intent.quantity := by
    rw [haccepted.eq, roundedQuantity_of_exact hexact]
  have hnonneg : ∀ p ∈ n.price, 0 ≤ p := by
    rw [hpriced]
    intro _ hrounded
    obtain ⟨p, hp, rfl⟩ := Option.map_eq_some_iff.mp hrounded
    exact gridPrice_nonneg intent.side htick (hprice p hp).le
  have hqty' : 0 ≤ n.quantity := hquantity ▸ floorOn_nonneg hstep hqty.le
  rw [← haccepted.price_eq_zero_iff hexact htick hprice, ← floorOn_eq_zero_iff hstep hqty.le,
    ← hquantity, ← haccepted.minNotional_iff hexact,
    ← haccepted.maxNotional_iff hexact href hqty' hnonneg]
  refine ⟨fun hn => ⟨hn.minNotional, hn.maxNotional⟩, fun ⟨hmin, hmax⟩ => ?_⟩
  constructor
  · exact hquantity ▸ isGreatest_floorOn hstep
  · exact haccepted.quantity
  · intro hnone
    rw [hpriced, hnone, Option.map_none]
  · intro p hp
    obtain ⟨hnear, hbuy, hother⟩ := gridPrice_near intent.side htick (hprice p hp)
    refine ⟨gridPrice intent.side filters.tickSize p, ?_, gridPrice_mem _ _ _, hnear, hbuy, hother⟩
    rw [hpriced]
    exact Option.mem_map_of_mem _ hp
  · exact hmin
  · exact hmax
  · exact checkCollar_eq_ok hexact href haccepted.collar
  · exact haccepted.again hexact hupper hstep htick hqty.le

end Returned

section

attribute [local instance] exactStr

/-- Ticks of a cent, steps of one, and a minimal notional of ten. -/
def centFilters : SymbolFilters := ⟨1 / 100, 1, 1, 100000, 10, none, none⟩

/-- Buy at half a cent. -/
def halfCent : OrderIntent :=
  { intentId := "i1", accountId := "a1", symbol := "SHIBUSDT", side := "BUY", orderType := "limit"
    quantity := 20000, price := some (1 / 200) }

/-- Sell at just above a dollar. -/
def aboveDollar : OrderIntent :=
  { halfCent with side := "SELL", quantity := 41 / 2, price := some (1001 / 1000) }

theorem normalized_iff_aboveDollar :
    ∃ n, normalizeAndValidate aboveDollar centFilters {} 1 100 = .ok n ∧
      Normalized aboveDollar n centFilters {} 1 100 := by
  refine ⟨{ aboveDollar with
    orderType := "LIMIT", quantity := 20, price := some (101 / 100)
    clientOrderId := some "i1" }, by decide +kernel, ?_⟩
  refine (normalized_iff (fun _ => rfl) aboveDollar _ centFilters {} 1 100 (by decide)
    (by decide +kernel) (by decide +kernel) (by decide +kernel) (by decide +kernel) one_pos
    (by decide +kernel)).mpr ?_
  exact ⟨fun hzero => absurd hzero.1 (by decide), fun hmax => by cases hmax⟩

/-- **An order for nothing** passes the minimal notional, at a price that is rounded to zero. -/
theorem priced_at_zero : ¬ ∀ (intent n : OrderIntent) (filters : SymbolFilters)
    (cap : Capabilities) (referencePrice maxDeviationBps : ℚ), 0 < intent.quantity →
      (∀ p ∈ intent.price, 0 < p) → 0 < filters.tickSize → 0 < filters.stepSize →
      0 < referencePrice →
      normalizeAndValidate intent filters cap referencePrice maxDeviationBps = .ok n →
        Normalized intent n filters cap referencePrice maxDeviationBps := by
  intro h
  have hreturned : normalizeAndValidate halfCent centFilters {} (1 / 200) 10000 = .ok { halfCent with
      orderType := "LIMIT", price := some 0, clientOrderId := some "i1" } := by decide +kernel
  have hnormalized := h halfCent _ centFilters {} (1 / 200) 10000 (by decide +kernel)
    (by decide +kernel) (by decide +kernel) one_pos (by decide +kernel) hreturned
  have hmin := hnormalized.minNotional
  norm_num [notional, centFilters, halfCent] at hmin

end

end Kripto.Execution
