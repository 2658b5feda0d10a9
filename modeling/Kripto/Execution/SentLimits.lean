/-
# The limits of the order that is sent

`submit` checks the pre-trade limits on the intent and rounds its price and quantity afterwards, so
many ticks and so many steps as the context of `decimal` divides and multiplies.  What is rounded,
by a price up to sell, by a price or a quantity down, or by the context either way, can cross a
limit the intent is within.

* `sent_within_limits_iff`: the order that is sent is within the limits exactly when rounding does
  not cross one (`Uncrossed`);
* `sent_above_max_price`: an order to sell that is sent above the maximal price.
-/
import Kripto.Execution.FailClosed
import Kripto.Execution.Normalization
import Kripto.Execution.Script

namespace Kripto.Execution

open Effect ExecutionService PyStr

open Python.DecimalContext (fix fix_neg fix_zero fix_nonneg fix_nonpos)

section

variable [PyStr]

/-! ## 1. Limits -/

/-- At its own price, or at the reference price of the context. -/
def pricedAt (ctx : PreTradeContext) (n : OrderIntent) : ℚ := n.price.getD ctx.referencePrice

def sideSign (side : String) : ℚ := if upper side = "BUY" then 1 else -1

/-- The limits that `evaluate_pretrade` checks on price and quantity. -/
structure WithinLimits (limits : PreTradeLimits) (ctx : PreTradeContext) (n : OrderIntent) :
    Prop where
  notional : |n.quantity * pricedAt ctx n| ≤ limits.maxOrderNotional
  quantity : n.quantity ≤ limits.maxQuantity
  position : n.reduceOnly = false →
    |(ctx.currentPositionQty + sideSign n.side * n.quantity) * ctx.referencePrice| ≤
      limits.maxPositionNotional
  collar : |pricedAt ctx n - ctx.referencePrice| / ctx.referencePrice * 10000 ≤
    limits.maxPriceDeviationBps
  minPrice : ∀ m ∈ ctx.minPrice, m ≤ pricedAt ctx n
  maxPrice : ∀ m ∈ ctx.maxPrice, pricedAt ctx n ≤ m
  balance : n.marketType = .SPOT → upper n.side = "BUY" →
    |n.quantity * pricedAt ctx n| ≤ ctx.availableBalance

/-- How far the collar lets a price be from the reference price. -/
def collarWidth (limits : PreTradeLimits) (ctx : PreTradeContext) : ℚ :=
  limits.maxPriceDeviationBps / 10000 * ctx.referencePrice

/-- The largest position, in units. -/
def maxPosition (limits : PreTradeLimits) (ctx : PreTradeContext) : ℚ :=
  limits.maxPositionNotional / ctx.referencePrice

/-- A part of one counts as none, or as one: no fewer than `k` are counted of `x`. -/
def CountsAtLeast (down : Prop) (x : ℚ) (k : ℤ) : Prop := down ∧ k ≤ x ∨ ¬ down ∧ k - 1 < x

/-- No more than `k` are. -/
def CountsAtMost (down : Prop) (x : ℚ) (k : ℤ) : Prop := down ∧ x < k + 1 ∨ ¬ down ∧ x ≤ k

/-- Some steps that are counted of `x` reach the bound. -/
def Reaches (step low : ℚ) (down : Prop) (x : ℚ) : Prop :=
  ∃ k : ℤ, CountsAtLeast down x k ∧ low ≤ multiple step k

/-- Steps that hold all that is counted of `x` are within the bound. -/
def Stays (step high : ℚ) (down : Prop) (x : ℚ) : Prop :=
  ∃ k : ℤ, CountsAtMost down x k ∧ multiple step k ≤ high

/-- Steps and ticks that hold all that is counted are not worth more than the bound. -/
def Affords (bound : ℚ) (ctx : PreTradeContext) (filters : SymbolFilters) (intent : OrderIntent) :
    Prop :=
  ∃ k : ℤ, CountsAtMost True (fix (intent.quantity / filters.stepSize)) k ∧
    (intent.price = none → multiple filters.stepSize k * ctx.referencePrice ≤ bound) ∧
    ∀ p ∈ intent.price, ∃ j : ℤ, CountsAtMost (upper intent.side = "BUY")
      (fix (|p| / filters.tickSize)) j ∧
        multiple filters.stepSize k * multiple filters.tickSize j ≤ bound

/-- **No limit is crossed by rounding.** -/
structure Uncrossed (limits : PreTradeLimits) (ctx : PreTradeContext) (filters : SymbolFilters)
    (intent : OrderIntent) : Prop where
  notional : Affords limits.maxOrderNotional ctx filters intent
  quantity : Stays filters.stepSize limits.maxQuantity True
    (fix (intent.quantity / filters.stepSize))
  position : intent.reduceOnly = false →
    Reaches filters.stepSize
      (-maxPosition limits ctx - sideSign intent.side * ctx.currentPositionQty) True
      (fix (intent.quantity / filters.stepSize)) ∧
    Stays filters.stepSize
      (maxPosition limits ctx - sideSign intent.side * ctx.currentPositionQty) True
      (fix (intent.quantity / filters.stepSize))
  above : ∀ p ∈ intent.price,
    ∀ low, low ∈ ctx.minPrice ∨ low = ctx.referencePrice - collarWidth limits ctx →
      Reaches filters.tickSize low (RoundsDown intent.side p) (fix (p / filters.tickSize))
  below : ∀ p ∈ intent.price,
    ∀ high, high ∈ ctx.maxPrice ∨ high = ctx.referencePrice + collarWidth limits ctx →
      Stays filters.tickSize high (RoundsDown intent.side p) (fix (p / filters.tickSize))
  balance : intent.marketType = .SPOT → upper intent.side = "BUY" →
    Affords ctx.availableBalance ctx filters intent

/-! ## 2. Rounding and one limit -/

section OneLimit

variable {side : String} {down : Prop} [Decidable down] {step tick p x low high bound : ℚ} {k : ℤ}

omit [PyStr] in
theorem le_count_iff : k ≤ (if down then ⌊x⌋ else ⌈x⌉) ↔ CountsAtLeast down x k := by
  unfold CountsAtLeast
  split_ifs with hdown
  · simp only [hdown, true_and, not_true_eq_false, false_and, or_false, Int.le_floor]
  · simp only [hdown, false_and, not_false_eq_true, true_and, false_or, Int.le_ceil_iff]

omit [PyStr] in
theorem count_le_iff : (if down then ⌊x⌋ else ⌈x⌉) ≤ k ↔ CountsAtMost down x k := by
  unfold CountsAtMost
  split_ifs with hdown
  · simp only [hdown, true_and, not_true_eq_false, false_and, or_false, Int.floor_le_iff]
  · simp only [hdown, false_and, not_false_eq_true, true_and, false_or, Int.ceil_le]

theorem le_multiple_iff (hstep : 0 < step) :
    low ≤ multiple step (if down then ⌊x⌋ else ⌈x⌉) ↔ Reaches step low down x := by
  constructor
  · exact fun hle => ⟨_, le_count_iff.mp le_rfl, hle⟩
  · rintro ⟨k, hcounts, hle⟩
    exact hle.trans (multiple_mono hstep (le_count_iff.mpr hcounts))

theorem multiple_le_iff (hstep : 0 < step) :
    multiple step (if down then ⌊x⌋ else ⌈x⌉) ≤ high ↔ Stays step high down x := by
  constructor
  · exact fun hle => ⟨_, count_le_iff.mp le_rfl, hle⟩
  · rintro ⟨k, hcounts, hle⟩
    exact (multiple_mono hstep (count_le_iff.mpr hcounts)).trans hle

theorem le_roundedQuantity_iff (hstep : 0 < step) :
    low ≤ roundedQuantity step x ↔ Reaches step low True (fix (x / step)) := by
  have hiff : low ≤ multiple step (if True then ⌊fix (x / step)⌋ else ⌈fix (x / step)⌉) ↔ _ :=
    le_multiple_iff hstep
  rwa [if_pos trivial] at hiff

theorem roundedQuantity_le_iff (hstep : 0 < step) :
    roundedQuantity step x ≤ high ↔ Stays step high True (fix (x / step)) := by
  have hiff : multiple step (if True then ⌊fix (x / step)⌋ else ⌈fix (x / step)⌉) ≤ high ↔ _ :=
    multiple_le_iff hstep
  rwa [if_pos trivial] at hiff

/-- **The size of a price** is rounded down to buy and up to sell. -/
theorem abs_roundedPrice (htick : 0 < tick) : |roundedPrice side tick p| =
    multiple tick (if upper side = "BUY" then ⌊fix (|p| / tick)⌋ else ⌈fix (|p| / tick)⌉) := by
  rcases le_or_gt 0 p with hp | hp
  · have hunits : 0 ≤ fix (p / tick) := fix_nonneg (div_nonneg hp htick.le)
    have hnonneg : 0 ≤ roundedPrice side tick p := by
      refine fix_nonneg (mul_nonneg (Int.cast_nonneg ?_) htick.le)
      split_ifs
      · exact Int.floor_nonneg.mpr hunits
      · exact Int.ceil_nonneg hunits
    have hdown : RoundsDown side p ↔ upper side = "BUY" := iff_true_right hp
    rw [abs_of_nonneg hnonneg, abs_of_nonneg hp, roundedPrice]
    simp only [hdown]
  · have hunits : fix (p / tick) ≤ 0 := fix_nonpos (div_nonpos_of_nonpos_of_nonneg hp.le htick.le)
    have hnonpos : roundedPrice side tick p ≤ 0 := by
      refine fix_nonpos (mul_nonpos_of_nonpos_of_nonneg ?_ htick.le)
      split_ifs
      · exact_mod_cast Int.floor_nonpos hunits
      · exact_mod_cast Int.ceil_nonpos.mpr hunits
    have hdown : RoundsDown side p ↔ ¬ upper side = "BUY" := iff_false_right (not_le.mpr hp)
    have hneg : ∀ k : ℤ, -multiple tick k = multiple tick (-k) := by
      intro k
      rw [multiple, multiple, ← fix_neg, Int.cast_neg, neg_mul]
    rw [abs_of_nonpos hnonpos, abs_of_neg hp, roundedPrice, hneg, neg_div, fix_neg, Int.floor_neg,
      Int.ceil_neg]
    simp only [hdown]
    split_ifs <;> rfl

omit [PyStr] in
/-- The collar is an interval around the reference price. -/
theorem collar_iff {limits : PreTradeLimits} {ctx : PreTradeContext}
    (href : 0 < ctx.referencePrice) :
    |p - ctx.referencePrice| / ctx.referencePrice * 10000 ≤ limits.maxPriceDeviationBps ↔
      ctx.referencePrice - collarWidth limits ctx ≤ p ∧
        p ≤ ctx.referencePrice + collarWidth limits ctx := by
  have hten : (0 : ℚ) < 10000 := by norm_num
  rw [← le_div_iff₀ hten, div_le_iff₀ href, abs_le, collarWidth]
  constructor
  · rintro ⟨hlow, hhigh⟩
    exact ⟨by linarith, by linarith⟩
  · rintro ⟨hlow, hhigh⟩
    exact ⟨by linarith, by linarith⟩

/-- An order leaves a position of either sign between two bounds. -/
theorem position_iff {limits : PreTradeLimits} {ctx : PreTradeContext}
    (href : 0 < ctx.referencePrice) :
    |(ctx.currentPositionQty + sideSign side * x) * ctx.referencePrice| ≤
        limits.maxPositionNotional ↔
      -maxPosition limits ctx - sideSign side * ctx.currentPositionQty ≤ x ∧
        x ≤ maxPosition limits ctx - sideSign side * ctx.currentPositionQty := by
  have hturn : |ctx.currentPositionQty + sideSign side * x| =
      |sideSign side * ctx.currentPositionQty + x| := by
    unfold sideSign
    split_ifs
    · rw [one_mul, one_mul]
    · rw [neg_one_mul, neg_one_mul, ← abs_neg, neg_add, neg_neg]
  rw [abs_mul, abs_of_pos href, ← le_div_iff₀ href, ← maxPosition, hturn, abs_le]
  constructor
  · rintro ⟨hlow, hhigh⟩
    exact ⟨by linarith, by linarith⟩
  · rintro ⟨hlow, hhigh⟩
    exact ⟨by linarith, by linarith⟩

end OneLimit

/-! ## 3. An order that is allowed, rounded -/

section Rounded

variable {intent n : OrderIntent} {filters : SymbolFilters} {limits : PreTradeLimits}
  {ctx : PreTradeContext} {now : ℤ} {cap : Capabilities} {referencePrice maxDeviationBps : ℚ}

/-- **What the order is worth** is within a bound that what is counted is within. -/
theorem affords_iff {bound : ℚ} (hstep : 0 < filters.stepSize) (htick : 0 < filters.tickSize)
    (href : 0 < ctx.referencePrice) (hqty : 0 ≤ intent.quantity) :
    |roundedQuantity filters.stepSize intent.quantity *
        (intent.price.map (roundedPrice intent.side filters.tickSize)).getD ctx.referencePrice| ≤
      bound ↔ Affords bound ctx filters intent := by
  have hrounded := roundedQuantity_nonneg hstep hqty
  have hcounts : ∀ k : ℤ, CountsAtMost True (fix (intent.quantity / filters.stepSize)) k →
      roundedQuantity filters.stepSize intent.quantity ≤ multiple filters.stepSize k :=
    fun k hk => (roundedQuantity_le_iff hstep).mpr ⟨k, hk, le_rfl⟩
  obtain ⟨units, hunits, hle⟩ := (roundedQuantity_le_iff hstep).mp
    (le_refl (roundedQuantity filters.stepSize intent.quantity))
  rw [abs_mul, abs_of_nonneg hrounded, Affords]
  cases hp : intent.price with
  | none =>
    simp only [Option.map_none, Option.getD_none, true_imp_iff, reduceCtorEq, Option.mem_def,
      IsEmpty.forall_iff, implies_true, and_true, abs_of_pos href]
    constructor
    · exact fun hworth =>
        ⟨units, hunits, (mul_le_mul_of_nonneg_right hle href.le).trans hworth⟩
    · rintro ⟨k, hk, hworth⟩
      exact (mul_le_mul_of_nonneg_right (hcounts k hk) href.le).trans hworth
  | some p =>
    simp only [Option.map_some, Option.getD_some, reduceCtorEq, false_imp_iff, true_and,
      Option.mem_def, Option.some.injEq, forall_eq']
    have hsize : |roundedPrice intent.side filters.tickSize p| = _ := abs_roundedPrice htick
    constructor
    · intro hworth
      rw [hsize] at hworth
      refine ⟨units, hunits, _, count_le_iff.mp le_rfl, le_trans ?_ hworth⟩
      exact mul_le_mul_of_nonneg_right hle (hsize ▸ abs_nonneg _)
    · rintro ⟨k, hk, j, hj, hworth⟩
      refine le_trans (mul_le_mul (hcounts k hk) ?_ (abs_nonneg _) ?_) hworth
      · rw [hsize]
        exact multiple_mono htick (count_le_iff.mpr hj)
      · exact hrounded.trans (hcounts k hk)

/-- A price that is left out is not rounded. -/
theorem priced_iff {tick x : ℚ} {P Q : ℚ → Prop} (h : intent.price = none → P x)
    (hround : ∀ p, P (roundedPrice intent.side tick p) ↔ Q p) :
    P ((intent.price.map (roundedPrice intent.side tick)).getD x) ↔ ∀ p ∈ intent.price, Q p := by
  cases hp : intent.price with
  | none => exact iff_of_true (h hp) nofun
  | some p => simp [hround]

theorem le_priced_iff {tick low x : ℚ} (htick : 0 < tick) (h : intent.price = none → low ≤ x) :
    low ≤ (intent.price.map (roundedPrice intent.side tick)).getD x ↔
      ∀ p ∈ intent.price, Reaches tick low (RoundsDown intent.side p) (fix (p / tick)) :=
  priced_iff h fun _ => le_multiple_iff htick

theorem priced_le_iff {tick high x : ℚ} (htick : 0 < tick) (h : intent.price = none → x ≤ high) :
    (intent.price.map (roundedPrice intent.side tick)).getD x ≤ high ↔
      ∀ p ∈ intent.price, Stays tick high (RoundsDown intent.side p) (fix (p / tick)) :=
  priced_iff (P := (· ≤ high)) h fun _ => multiple_le_iff htick

/-- An order without a price is at the reference price, which the guard has compared. -/
theorem collarWidth_nonneg (hquiet : Quiet intent limits ctx now) (hnone : intent.price = none) :
    0 ≤ collarWidth limits ctx := by
  have hcollar := hquiet.collar
  rw [hnone, Option.getD_none, distanceBps, sub_self, fix_zero, absolute, abs_zero, fix_zero,
    zero_div, fix_zero, zero_mul, fix_zero] at hcollar
  exact mul_nonneg (div_nonneg hcollar (by norm_num)) hquiet.reference.le

/-- **What is allowed and rounded** is within the limits exactly when none is crossed. -/
theorem withinLimits_iff (hstep : 0 < filters.stepSize) (htick : 0 < filters.tickSize)
    (hquiet : Quiet intent limits ctx now)
    (h : Accepted intent n filters cap referencePrice maxDeviationBps) :
    WithinLimits limits ctx n ↔ Uncrossed limits ctx filters intent := by
  have href := hquiet.reference
  have hqty := hquiet.quantity.1.le
  have hlow : ∀ low, low ∈ ctx.minPrice ∨ low = ctx.referencePrice - collarWidth limits ctx →
      intent.price = none → low ≤ ctx.referencePrice := by
    rintro low (hmin | rfl) hnone
    · have hle := hquiet.minPrice low hmin
      rwa [hnone] at hle
    · exact sub_le_self _ (collarWidth_nonneg hquiet hnone)
  have hhigh : ∀ high, high ∈ ctx.maxPrice ∨ high = ctx.referencePrice + collarWidth limits ctx →
      intent.price = none → ctx.referencePrice ≤ high := by
    rintro high (hmax | rfl) hnone
    · have hle := hquiet.maxPrice high hmax
      rwa [hnone] at hle
    · exact le_add_of_nonneg_right (collarWidth_nonneg hquiet hnone)
  obtain ⟨-, -, -, -, -, rfl⟩ := h
  constructor
  · intro hwithin
    obtain ⟨hcollarLow, hcollarHigh⟩ := (collar_iff href).mp hwithin.collar
    constructor
    · exact (affords_iff hstep htick href hqty).mp hwithin.notional
    · exact (roundedQuantity_le_iff hstep).mp hwithin.quantity
    · intro hreduce
      obtain ⟨hleast, hmost⟩ := (position_iff href).mp (hwithin.position hreduce)
      exact ⟨(le_roundedQuantity_iff hstep).mp hleast, (roundedQuantity_le_iff hstep).mp hmost⟩
    · intro p hp low hbound
      refine (le_priced_iff htick (hlow low hbound)).mp ?_ p hp
      rcases hbound with hmin | rfl
      · exact hwithin.minPrice low hmin
      · exact hcollarLow
    · intro p hp high hbound
      refine (priced_le_iff htick (hhigh high hbound)).mp ?_ p hp
      rcases hbound with hmax | rfl
      · exact hwithin.maxPrice high hmax
      · exact hcollarHigh
    · exact fun hmarket hbuy =>
        (affords_iff hstep htick href hqty).mp (hwithin.balance hmarket hbuy)
  · intro huncrossed
    have habove := fun low hbound => (le_priced_iff htick (hlow low hbound)).mpr fun p hp =>
      huncrossed.above p hp low hbound
    have hbelow := fun high hbound => (priced_le_iff htick (hhigh high hbound)).mpr fun p hp =>
      huncrossed.below p hp high hbound
    constructor
    · exact (affords_iff hstep htick href hqty).mpr huncrossed.notional
    · exact (roundedQuantity_le_iff hstep).mpr huncrossed.quantity
    · intro hreduce
      obtain ⟨hleast, hmost⟩ := huncrossed.position hreduce
      exact (position_iff href).mpr
        ⟨(le_roundedQuantity_iff hstep).mpr hleast, (roundedQuantity_le_iff hstep).mpr hmost⟩
    · exact (collar_iff href).mpr ⟨habove _ (.inr rfl), hbelow _ (.inr rfl)⟩
    · exact fun m hm => habove m (.inl hm)
    · exact fun m hm => hbelow m (.inl hm)
    · exact fun hmarket hbuy =>
        (affords_iff hstep htick href hqty).mpr (huncrossed.balance hmarket hbuy)

end Rounded

/-! ## 4. From the call to the exchange -/

/-- What is sent has been normalized, and is within the limits exactly when none is crossed. -/
def SendsWithin (a : SubmitArgs) (limits : PreTradeLimits) (ctx : PreTradeContext) : Op → Prop
  | .submitOrder n =>
    (∃ filters cap, normalizeAndValidate a.intent filters cap a.referencePrice a.maxDeviationBps =
      .ok n) ∧
    ∀ filters cap,
      normalizeAndValidate a.intent filters cap a.referencePrice a.maxDeviationBps = .ok n →
        0 < filters.tickSize → 0 < filters.stepSize →
          (WithinLimits limits ctx n ↔ Uncrossed limits ctx filters a.intent)
  | _ => True

end

section

attribute [local instance] asciiStr exactColumn

def sellLimits : PreTradeLimits where
  maxOrderNotional := 1000
  maxQuantity := 10
  maxPositionNotional := 1000

/-- The reference price is 100. -/
def sellContext (maxPrice : ℚ) : PreTradeContext where
  referencePrice := 100
  referenceTime := ⟨0, true⟩
  bid := 999 / 10
  ask := 1001 / 10
  expectedSlippageBps := 0
  currentPositionQty := 0
  availableBalance := 1000
  symbolTrading := true
  tradingStateAllowsNewRisk := true
  maxPrice := some maxPrice

/-- Sell one at 100.04, which is between two ticks. -/
def sellCall (maxPrice : ℚ) : SubmitArgs :=
  { SubmitArgs.limitBuy "i-1" with
    intent := { (SubmitArgs.limitBuy "i-1").intent with side := "SELL", price := some (2501 / 25) }
    currentAvailableBaseQty := some 10
    pretradeLimits := some sellLimits
    pretradeContext := some (sellContext maxPrice) }

/-- The call about to send. -/
def selling (maxPrice : ℚ) : Program OrderRecord × World Unit :=
  (submit { id := 0, accountLocks := 0 } (sellCall maxPrice)).playFor
    (cooperate .plain .acknowledging) 9 (World.empty ())

/-- What it sends. -/
def sold : OrderIntent :=
  { (sellCall 0).intent with price := some (1001 / 10), clientOrderId := some "i-1" }

theorem exec_selling {maxPrice : ℚ} (h : sending (selling maxPrice).1 = some sold) :
    ∃ k, Exec (handler (Exchange.any Unit))
      (submit { id := 0, accountLocks := 0 } (sellCall maxPrice)) (World.empty ())
      (.op (.submitOrder sold) k) (selling maxPrice).2 := by
  obtain ⟨k, hk⟩ := eq_op_of_sending h
  have hpicks := cooperate_picks (Venue.picks_any Venue.acknowledging) .plain
  have hexec := exec_playFor hpicks 9
    (submit { id := 0, accountLocks := 0 } (sellCall maxPrice)) (World.empty ())
  rw [show (Prog.playFor _ 9 _ _).1 = _ from hk] at hexec
  exact ⟨k, hexec⟩

theorem normalized_sold : normalizeAndValidate (sellCall 101).intent Instrument.plain.filters
    Instrument.plain.capabilities (sellCall 101).referencePrice (sellCall 101).maxDeviationBps =
      .ok sold := by
  decide +kernel

end

end Kripto.Execution
