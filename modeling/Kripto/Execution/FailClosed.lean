/-
# Does the pre-trade guard fail closed on market data?

`evaluate_pretrade` compares the age of its reference and the spread of its quote with limits.  The
age is never negative and counts whole milliseconds, and the spread of a crossed quote is negative.
`data/quality.py` has checks of its own for the same timestamp and quote.

* `allowed_iff`: what an intent and its context must be like for an order to be allowed;
* `failsClosed_iff`: an allowed order has sound market data exactly if the context has none of four
  defects, or something else about the order is refused.
-/
import Kripto.Execution.PreTrade

namespace Kripto.Execution

open Python (binary64 totalSeconds DecimalContext)

open Python.DecimalContext (fix)

/-! ## 1. `data/quality.py` -/

/-- The age in seconds. -/
def ensureFresh (dataTime : DateTime) (maxAgeSeconds : ℚ) (now : ℤ) : Except Exc ℚ := do
  raiseIf (dataTime.aware = false) (.valueError "timezone-aware timestamp required")
  let age := totalSeconds (now - dataTime.micros)
  raiseIf (age < 0) (.valueError "future data timestamp")
  raiseIf (maxAgeSeconds < age) (.valueError "stale data")
  return age

def spreadBps [DecimalContext] (bestBid bestAsk : ℚ) : Except Exc ℚ := do
  raiseIf (bestBid ≤ 0 ∨ bestAsk ≤ 0 ∨ bestAsk < bestBid) (.valueError "invalid/crossed book")
  let mid := fix (fix (bestBid + bestAsk) / 2)
  return fix (fix (fix (bestAsk - bestBid) / mid) * 10000)

theorem exists_ensureFresh {dataTime : DateTime} {maxAgeMs now : ℤ}
    (haware : dataTime.aware = true) (hpast : dataTime.micros ≤ now)
    (hfresh : now - dataTime.micros ≤ maxAgeMs * 1000) :
    ∃ age, ensureFresh dataTime (binary64 (maxAgeMs / 1000)) now = .ok age := by
  have hnonneg : 0 ≤ totalSeconds (now - dataTime.micros) := by
    have hmono := Python.totalSeconds_mono (sub_nonneg.mpr hpast)
    simpa [totalSeconds] using hmono
  have hage : totalSeconds (now - dataTime.micros) ≤ binary64 (maxAgeMs / 1000) := by
    have hcast : ((now - dataTime.micros : ℤ) : ℚ) ≤ ((maxAgeMs * 1000 : ℤ) : ℚ) := by
      exact_mod_cast hfresh
    rw [Int.cast_mul, Int.cast_ofNat] at hcast
    exact Python.binary64_mono (by linarith)
  refine ⟨totalSeconds (now - dataTime.micros), ?_⟩
  simp only [ensureFresh, raiseIf_bind_eq_ok_iff, not_lt]
  exact ⟨by simp [haware], hnonneg, hage, rfl⟩

theorem exists_spreadBps [DecimalContext] {bid ask : ℚ} (hbid : 0 < bid) (hask : bid ≤ ask) :
    ∃ bps, spreadBps bid ask = .ok bps := by
  refine ⟨_, raiseIf_bind_eq_ok_iff.mpr ⟨?_, rfl⟩⟩
  simp only [not_or, not_le, not_lt]
  exact ⟨hbid, hbid.trans_le hask, hask⟩

/-! ## 2. What is allowed -/

section

variable [PyStr] (intent : OrderIntent) (limits : PreTradeLimits) (ctx : PreTradeContext) (now : ℤ)

open PyStr

/-- Nothing of what the guard looks at is refused. -/
structure Quiet : Prop where
  aware : ctx.referenceTime.aware = true
  reference : 0 < ctx.referencePrice
  side : upper intent.side = "BUY" ∨ upper intent.side = "SELL"
  newRisk : ctx.tradingStateAllowsNewRisk = true ∨ intent.reduceOnly = true
  trading : ctx.symbolTrading = true
  age : max 0 (ageMillis (now - ctx.referenceTime.micros)) ≤ limits.maxReferenceAgeMs
  quantity : 0 < intent.quantity ∧ intent.quantity ≤ limits.maxQuantity
  notional : absolute (fix (intent.quantity * intent.price.getD ctx.referencePrice)) ≤
    limits.maxOrderNotional
  position : absolute (fix (fix (ctx.currentPositionQty +
    fix ((if upper intent.side = "BUY" then 1 else -1) * intent.quantity)) * ctx.referencePrice)) ≤
      limits.maxPositionNotional ∨ intent.reduceOnly = true
  collar : distanceBps (intent.price.getD ctx.referencePrice) ctx.referencePrice ≤
    limits.maxPriceDeviationBps
  spread : fix (fix (fix (ctx.ask - ctx.bid) / ctx.referencePrice) * 10000) ≤ limits.maxSpreadBps
  slippage : ctx.expectedSlippageBps ≤ limits.maxExpectedSlippageBps
  minPrice : ∀ m ∈ ctx.minPrice, m ≤ intent.price.getD ctx.referencePrice
  maxPrice : ∀ m ∈ ctx.maxPrice, intent.price.getD ctx.referencePrice ≤ m
  balance : intent.marketType = .SPOT → upper intent.side = "BUY" →
    absolute (fix (intent.quantity * intent.price.getD ctx.referencePrice)) ≤ ctx.availableBalance
  reduceOnly : reduceOnlyReasons intent ctx.currentPositionQty = []

variable {intent limits ctx now}

theorem guardBps_eq_ok_iff {x y bps : ℚ} :
    guardBps x y = .ok bps ↔ 0 < y ∧ distanceBps x y = bps := by
  by_cases hy : y ≤ 0
  · simp [guardBps, hy, not_lt.mpr hy]
  · simp [guardBps, hy, not_le.mp hy]

/-- **An order is allowed** just when nothing is refused. -/
theorem allowed_iff :
    (∃ d, evaluatePretrade intent limits ctx now = .ok d ∧ d.allowed = true) ↔
      Quiet intent limits ctx now := by
  constructor
  · rintro ⟨d, hd, hallowed⟩
    simp only [evaluatePretrade, raiseIf_bind_eq_ok_iff] at hd
    obtain ⟨haware, hd⟩ := hd
    obtain ⟨deviation, hdeviation, hd⟩ := bind_eq_ok hd
    obtain ⟨href, rfl⟩ := guardBps_eq_ok_iff.mp hdeviation
    obtain rfl := Except.ok.inj hd
    simp only [decide_eq_true_eq, List.append_eq_nil_iff, reasonIf_eq_nil_iff, if_pos href]
      at hallowed
    obtain ⟨⟨⟨⟨⟨⟨⟨⟨⟨⟨⟨⟨⟨hside, hrisk⟩, htrading⟩, hage⟩, hqty⟩, hnotional⟩, hposition⟩, hcollar⟩,
      hspread⟩, hslippage⟩, hmin⟩, hmax⟩, hbalance⟩, hreduce⟩ := hallowed
    exact {
      aware := by simpa using haware
      reference := href
      side := or_iff_not_and_not.mpr hside
      newRisk := by
        rw [not_and_or, Bool.not_eq_false, Bool.not_eq_false] at hrisk
        exact hrisk
      trading := by simpa using htrading
      age := not_lt.mp hage
      quantity := by
        obtain ⟨hpos, hle⟩ := not_or.mp hqty
        exact ⟨not_le.mp hpos, not_lt.mp hle⟩
      notional := not_lt.mp hnotional
      position := by
        rw [not_and_or, not_lt, Bool.not_eq_false] at hposition
        exact hposition
      collar := not_lt.mp hcollar
      spread := by simpa using hspread
      slippage := not_lt.mp hslippage
      minPrice := fun m hm => not_lt.mp fun hlt => hmin ⟨m, hm, hlt⟩
      maxPrice := fun m hm => not_lt.mp fun hlt => hmax ⟨m, hm, hlt⟩
      balance := fun hmarket hbuy => not_lt.mp fun hlt => hbalance ⟨hmarket, hbuy, hlt⟩
      reduceOnly := hreduce }
  · intro h
    have hraise : raiseIf (ctx.referenceTime.aware = false)
        (.valueError "reference_time must be timezone-aware") = .ok () :=
      raiseIf_eq_ok_iff.mpr (by simp [h.aware])
    have hdeviation := guardBps_eq_ok_iff.mpr
      ⟨h.reference, rfl (a := distanceBps (intent.price.getD ctx.referencePrice)
        ctx.referencePrice)⟩
    simp only [evaluatePretrade, hraise, hdeviation, bind, Except.bind]
    refine ⟨_, rfl, ?_⟩
    simp only [decide_eq_true_eq, List.append_eq_nil_iff, reasonIf_eq_nil_iff, if_pos h.reference,
      and_assoc, not_lt]
    refine ⟨?_, ?_, ?_, h.age, ?_, h.notional, ?_, h.collar, ?_, h.slippage, ?_, ?_, ?_,
      h.reduceOnly⟩
    · exact or_iff_not_and_not.mp h.side
    · rcases h.newRisk with hrisk | hrisk <;> simp [hrisk]
    · simp [h.trading]
    · rintro (hneg | hmax)
      · exact absurd h.quantity.1 (not_lt.mpr hneg)
      · exact absurd h.quantity.2 (not_le.mpr hmax)
    · rintro ⟨hlt, hreduce⟩
      rcases h.position with hle | hreduce'
      · exact absurd hle (not_le.mpr hlt)
      · simp [hreduce'] at hreduce
    · simpa using h.spread
    · rintro ⟨m, hm, hlt⟩
      exact absurd (h.minPrice m hm) (not_le.mpr hlt)
    · rintro ⟨m, hm, hlt⟩
      exact absurd (h.maxPrice m hm) (not_le.mpr hlt)
    · rintro ⟨hmarket, hbuy, hlt⟩
      exact absurd (h.balance hmarket hbuy) (not_le.mpr hlt)

/-! ## 3. Sound market data -/

variable (limits ctx now) in
/-- What an allowed order should be able to rely on. -/
structure SoundMarket : Prop where
  reference : 0 < ctx.referencePrice
  notFuture : ctx.referenceTime.micros ≤ now
  fresh : now - ctx.referenceTime.micros ≤ limits.maxReferenceAgeMs * 1000
  uncrossed : 0 < ctx.bid ∧ ctx.bid ≤ ctx.ask
  ensureFresh : ∃ age,
    ensureFresh ctx.referenceTime (binary64 (limits.maxReferenceAgeMs / 1000)) now = .ok age
  spreadBps : ∃ bps, spreadBps ctx.bid ctx.ask = .ok bps

variable (limits ctx now) in
/-- The defects of a context: a reference from the future, or one that is older than the limit, a bid
that is not positive, a crossed quote. -/
def Defective : Prop :=
  now < ctx.referenceTime.micros ∨
    limits.maxReferenceAgeMs * 1000 < now - ctx.referenceTime.micros ∨ ctx.bid ≤ 0 ∨
      ctx.ask < ctx.bid

theorem soundMarket_iff (h : Quiet intent limits ctx now) :
    SoundMarket limits ctx now ↔ ¬ Defective limits ctx now := by
  constructor
  · rintro hsound (hfuture | hold | hbid | hcrossed)
    · exact absurd hsound.notFuture (not_le.mpr hfuture)
    · exact absurd hsound.fresh (not_le.mpr hold)
    · exact absurd hsound.uncrossed.1 (not_lt.mpr hbid)
    · exact absurd hsound.uncrossed.2 (not_le.mpr hcrossed)
  · intro hnot
    obtain ⟨hpast, hfresh, hbid, hask⟩ : ctx.referenceTime.micros ≤ now ∧
        now - ctx.referenceTime.micros ≤ limits.maxReferenceAgeMs * 1000 ∧ 0 < ctx.bid ∧
          ctx.bid ≤ ctx.ask := by
      simpa [Defective] using hnot
    exact ⟨h.reference, hpast, hfresh, ⟨hbid, hask⟩, exists_ensureFresh h.aware hpast hfresh,
      exists_spreadBps hbid hask⟩

end

/-- **The guard fails closed** exactly if it refuses the order, or the context has none of the
defects. -/
theorem failsClosed_iff [PyStr] (intent : OrderIntent) (limits : PreTradeLimits)
    (ctx : PreTradeContext) (now : ℤ) :
    (∀ d, evaluatePretrade intent limits ctx now = .ok d → d.allowed = true →
        SoundMarket limits ctx now) ↔
      ¬ Defective limits ctx now ∨ ¬ Quiet intent limits ctx now := by
  constructor
  · intro h
    by_cases hquiet : Quiet intent limits ctx now
    · obtain ⟨d, hd, hallowed⟩ := allowed_iff.mpr hquiet
      exact .inl ((soundMarket_iff hquiet).mp (h d hd hallowed))
    · exact .inr hquiet
  · intro h d hd hallowed
    have hquiet := allowed_iff.mp ⟨d, hd, hallowed⟩
    exact (soundMarket_iff hquiet).mpr (h.resolve_right fun hnot => hnot hquiet)

/-- A reference one second ahead, and a bid above the ask. -/
def crossedContext : PreTradeContext where
  referencePrice := 100
  referenceTime := ⟨1000000, true⟩
  bid := 101
  ask := 99
  expectedSlippageBps := 0
  currentPositionQty := 0
  availableBalance := 1000
  symbolTrading := true
  tradingStateAllowsNewRisk := true

/-- A `BUY` of one at the market. -/
def buyOne : OrderIntent where
  intentId := "i-1"
  accountId := "a-1"
  symbol := "BTCUSDT"
  side := "BUY"
  orderType := "MARKET"
  quantity := 1

/-- A second of the future is no age. -/
theorem ageMillis_future : ageMillis (-1000000) = -1000 := by
  have hseconds : totalSeconds (-1 * 1000000) = (-1 : ℤ) :=
    Python.totalSeconds_of_seconds (by norm_num)
  have hmillis : binary64 ((-1000 : ℤ) : ℚ) = (-1000 : ℤ) := Python.binary64_intCast (by norm_num)
  have hproduct : ((-1 : ℤ) : ℚ) * 1000 = ((-1000 : ℤ) : ℚ) := by norm_num
  rw [ageMillis, show (-1000000 : ℤ) = -1 * 1000000 by norm_num, hseconds, hproduct, hmillis,
    Python.toInt_intCast]

/-- **A crossed quote from the future is allowed.** -/
theorem crossed_allowed : ¬ ∀ [PyStr] (intent : OrderIntent) (limits : PreTradeLimits)
    (ctx : PreTradeContext) (now : ℤ) (d : PreTradeDecision),
    evaluatePretrade intent limits ctx now = .ok d → d.allowed = true →
      SoundMarket limits ctx now := by
  intro h
  let := exactStr
  have hside : PyStr.upper "BUY" = "BUY" := by decide
  have hfix : ∀ q : ℚ, fix q = q := fun _ => rfl
  have hquiet : Quiet buyOne ⟨1000, 10, 1000, 100, 50, 50, 3000⟩ crossedContext 0 := by
    constructor <;>
      norm_num [hside, hfix, crossedContext, buyOne, ageMillis_future, reduceOnlyReasons, absolute,
        distanceBps] <;>
      exact fun m hm => nomatch hm
  obtain ⟨d, hd, hallowed⟩ := allowed_iff.mpr hquiet
  have hcrossed := (h _ _ _ _ d hd hallowed).uncrossed.2
  norm_num [crossedContext] at hcrossed

end Kripto.Execution
