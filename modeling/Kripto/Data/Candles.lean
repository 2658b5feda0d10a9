/-
# Candles of a longer interval

`data/candles.py` aggregates base candles into the buckets of a longer timeframe.  A bucket starts
at a multiple of the interval in seconds since the epoch.  Prices are in any linear order, and
volumes are added as their type adds them.

* `aggregateOhlcv_eq_ok`: what the function returns is collected by the rule `ohlcv`;
* `aggregate_comp`: aggregating in two stages is aggregating in one, if the intervals nest, but for
  volumes that are rounded;
* `volume_depends_on_stages`: three `float`s with another sum in another order.
-/
import Kripto.Effect.Buckets
import Kripto.Effect.Outcome
import Kripto.Execution.PreTrade
import Kripto.Python.Json
import Kripto.Python.Rounding
import Mathlib.Algebra.Group.PUnit
import Mathlib.Algebra.Order.Floor.Semiring

namespace Kripto.Data

open Effect Python
open Execution (DateTime raiseIf)

/-! ## 1. `data/candles.py` -/

def intervalSeconds : List (String × ℤ) :=
  [("1m", 60), ("3m", 180), ("5m", 300), ("15m", 900), ("30m", 1800), ("1h", 3600), ("4h", 14400),
    ("1d", 86400)]

/-- A candle, as a dictionary.  `volume` and `closed` may be missing. -/
@[ext] structure Candle (P V : Type) where
  openTime : DateTime
  closeTime : DateTime
  openPrice : P
  high : P
  low : P
  close : P
  volume : Option V
  closed : Option Bool
  deriving DecidableEq

/-- `datetime.timestamp()`: the seconds since the epoch. -/
def timestamp (ts : DateTime) : ℚ := totalSeconds ts.micros

/-- `int(ts.timestamp())`. -/
def epochOf (ts : DateTime) : ℤ := toInt (timestamp ts)

/-- `(epoch//seconds)*seconds`. -/
def startEpoch (seconds : ℤ) (ts : DateTime) : ℤ := epochOf ts / seconds * seconds

def utc (epoch : ℤ) : DateTime := ⟨epoch * 1000000, true⟩

/-- `datetime.fromtimestamp(epoch, tz=timezone.utc)`: the years are 1 to 9999. -/
def fromTimestamp (epoch : ℤ) : Except Execution.Exc DateTime :=
  if epoch < -62135596800 then .error (.valueError "year 0 is out of range")
  else if 253402300800 ≤ epoch then .error (.valueError "year 10000 is out of range")
  else .ok (utc epoch)

section

variable {P V : Type} [LinearOrder P] [Zero V] [Add V]

/-- `buckets[start]=..`, for a bucket that is not there. -/
def opened (seconds : ℤ) (c : Candle P V) : Candle P V where
  openTime := utc (startEpoch seconds c.openTime)
  closeTime := utc (startEpoch seconds c.openTime + seconds)
  openPrice := c.openPrice
  high := c.high
  low := c.low
  close := c.close
  volume := some (c.volume.getD 0)
  closed := some (c.closed.getD false)

/-- `b['high']=..`.  A bucket has a volume, and its flag. -/
def merged (b c : Candle P V) : Candle P V :=
  { b with
    high := max b.high c.high
    low := min b.low c.low
    close := c.close
    volume := some (b.volume.getD 0 + c.volume.getD 0)
    closed := some (b.closed.getD false && c.closed.getD false) }

/-- A turn of the loop.  The starts of the buckets are in UTC, and are their instants here. -/
def addCandle (seconds : ℤ) (buckets : Table ℤ (Candle P V)) (c : Candle P V) :
    Except Execution.Exc (Table ℤ (Candle P V)) := do
  raiseIf (c.openTime.aware = false) (.valueError "candle open_time must be timezone-aware")
  let start ← fromTimestamp (startEpoch seconds c.openTime)
  match buckets.lookup start.micros with
  | none =>
    let _ ← fromTimestamp (startEpoch seconds c.openTime + seconds)
    return buckets.insert start.micros (opened seconds c)
  | some b => return buckets.insert start.micros (merged b c)

def aggregateOhlcv (candles : List (Candle P V)) (timeframe : String) :
    Except Execution.Exc (List (Candle P V)) :=
  match intervalSeconds.lookup timeframe with
  | none => .error (.valueError "unsupported timeframe")
  | some seconds => do
    let buckets ← candles.foldlM (addCandle seconds) ∅
    return Buckets.sorted buckets

/-! ## 2. The loop collects buckets -/

/-- The rule of the loop. -/
def ohlcv (seconds : ℤ) : Buckets ℤ (Candle P V) (Candle P V) where
  key c := (utc (startEpoch seconds c.openTime)).micros
  label b := b.openTime.micros
  opened := opened seconds
  merged := merged
  label_opened _ := rfl
  label_merged _ _ := rfl

variable {seconds : ℤ} {timeframe : String} {c b : Candle P V} {cs out : List (Candle P V)}
  {t t' : Table ℤ (Candle P V)}

theorem lookup_pos (h : intervalSeconds.lookup timeframe = some seconds) : 0 < seconds := by
  have hall : ∀ e ∈ intervalSeconds, 0 < e.2 := by decide
  exact hall _ (mem_of_lookup h)

theorem fromTimestamp_eq_ok {epoch : ℤ} {ts : DateTime} (h : fromTimestamp epoch = .ok ts) :
    ts = utc epoch ∧ -62135596800 ≤ epoch ∧ epoch < 253402300800 := by
  unfold fromTimestamp at h
  split_ifs at h with hlow hhigh
  exact ⟨(Except.ok.inj h).symm, not_lt.mp hlow, not_le.mp hhigh⟩

/-- A turn that returned has added to the table. -/
theorem addCandle_eq_ok (h : addCandle seconds t c = .ok t') :
    t' = (ohlcv seconds).add t c ∧ c.openTime.aware = true := by
  obtain ⟨_, haware, h⟩ := bind_eq_ok_iff.mp h
  obtain ⟨start, hstart, h⟩ := bind_eq_ok_iff.mp h
  obtain ⟨rfl, -, -⟩ := fromTimestamp_eq_ok hstart
  refine ⟨?_, by simpa using Execution.raiseIf_eq_ok_iff.mp haware⟩
  cases hlook : t.lookup (utc (startEpoch seconds c.openTime)).micros with
  | none =>
    rw [hlook] at h
    obtain ⟨-, -, h⟩ := bind_eq_ok_iff.mp h
    rw [Buckets.add_of_none hlook]
    exact (Except.ok.inj h).symm
  | some b =>
    rw [hlook] at h
    rw [Buckets.add_of_some hlook]
    exact (Except.ok.inj h).symm

/-- **What is returned** is collected by the rule. -/
theorem aggregateOhlcv_eq_ok (h : aggregateOhlcv cs timeframe = .ok out) :
    ∃ seconds, intervalSeconds.lookup timeframe = some seconds ∧
      out = Buckets.sorted ((ohlcv seconds).collect cs) ∧ ∀ c ∈ cs, c.openTime.aware = true := by
  unfold aggregateOhlcv at h
  cases hseconds : intervalSeconds.lookup timeframe with
  | none => rw [hseconds] at h; cases h
  | some seconds =>
    rw [hseconds] at h
    obtain ⟨t, ht, hout⟩ := bind_eq_ok_iff.mp h
    have hloop : t = cs.foldl (ohlcv seconds).add ∅ ∧ ∀ c ∈ cs, c.openTime.aware = true := by
      refine foldlM_keeps
        (I := fun ys t => t = ys.foldl (ohlcv seconds).add ∅ ∧ ∀ c ∈ ys, c.openTime.aware = true)
        ⟨rfl, by simp⟩ ?_ ht
      rintro ys c t t' ⟨rfl, haware⟩ hc
      obtain ⟨rfl, hzone⟩ := addCandle_eq_ok hc
      rw [List.foldl_append]
      refine ⟨rfl, fun c' hc' => ?_⟩
      rcases List.mem_append.mp hc' with hc' | hc'
      · exact haware c' hc'
      · rw [List.mem_singleton.mp hc']
        exact hzone
    refine ⟨seconds, rfl, ?_, hloop.2⟩
    rw [← Except.ok.inj hout, hloop.1]
    rfl

/-! ## 3. Time order -/

theorem epochOf_mono {ts ts' : DateTime} (h : ts.micros ≤ ts'.micros) :
    epochOf ts ≤ epochOf ts' :=
  toInt_mono (totalSeconds_mono h)

theorem startEpoch_mono {ts ts' : DateTime} (hpos : 0 < seconds) (h : ts.micros ≤ ts'.micros) :
    startEpoch seconds ts ≤ startEpoch seconds ts' :=
  Int.mul_le_mul_of_nonneg_right (Int.ediv_le_ediv hpos (epochOf_mono h)) hpos.le

/-- Whole seconds are their own epoch. -/
theorem epochOf_utc {epoch : ℤ} (h : |epoch| < 2 ^ 53) : epochOf (utc epoch) = epoch := by
  rw [epochOf, timestamp, utc, totalSeconds_of_seconds h, toInt_intCast]

theorem startEpoch_nonneg {ts : DateTime} (hpos : 0 < seconds) (h : 0 ≤ ts.micros) :
    0 ≤ startEpoch seconds ts := by
  have hepoch : 0 ≤ epochOf ts := by
    have hmicros : (utc 0).micros ≤ ts.micros := by simpa [utc] using h
    have hmono := epochOf_mono hmicros
    rwa [epochOf_utc (by norm_num)] at hmono
  exact Int.mul_nonneg (Int.ediv_nonneg hepoch hpos.le) hpos.le

/-- The candles come in the order of their times. -/
def TimeOrdered (cs : List (Candle P V)) : Prop :=
  cs.Pairwise fun c c' => c.openTime.micros ≤ c'.openTime.micros

theorem TimeOrdered.ordered (h : TimeOrdered cs) (hpos : 0 < seconds) :
    (ohlcv seconds).Ordered cs :=
  h.imp fun hle => Int.mul_le_mul_of_nonneg_right (startEpoch_mono hpos hle) (by norm_num)

/-! ## 4. What the loop raises -/

/-- A candle after the epoch. -/
structure Dated (c : Candle P V) : Prop where
  aware : c.openTime.aware = true
  nonneg : 0 ≤ c.openTime.micros

/-- The bucket of the candle ends in a year that exists. -/
def Fits (seconds : ℤ) (c : Candle P V) : Prop :=
  startEpoch seconds c.openTime + seconds < 253402300800

def yearOutOfRange : Execution.Exc := .valueError "year 10000 is out of range"

theorem fromTimestamp_of_lt {epoch : ℤ} (hnonneg : 0 ≤ epoch) (h : epoch < 253402300800) :
    fromTimestamp epoch = .ok (utc epoch) := by
  rw [fromTimestamp, if_neg (by omega), if_neg (by omega)]

theorem fromTimestamp_of_le {epoch : ℤ} (h : 253402300800 ≤ epoch) :
    fromTimestamp epoch = .error yearOutOfRange := by
  rw [fromTimestamp, if_neg (by omega), if_pos h]
  rfl

theorem addCandle_of_dated (hc : Dated c) :
    addCandle seconds t c = (do
      let start ← fromTimestamp (startEpoch seconds c.openTime)
      match t.lookup start.micros with
      | none =>
        let _ ← fromTimestamp (startEpoch seconds c.openTime + seconds)
        return t.insert start.micros (opened seconds c)
      | some b => return t.insert start.micros (merged b c)) := by
  rw [addCandle, raiseIf, if_neg (by simp [hc.aware])]
  rfl

theorem addCandle_of_fits (hc : Dated c) (hpos : 0 < seconds) (hfits : Fits seconds c) :
    addCandle seconds t c = .ok ((ohlcv seconds).add t c) := by
  have hstart := startEpoch_nonneg hpos hc.nonneg
  have hend : startEpoch seconds c.openTime + seconds < 253402300800 := hfits
  rw [addCandle_of_dated hc, fromTimestamp_of_lt hstart (by omega), ok_bind,
    fromTimestamp_of_lt (by omega) hend]
  cases hlook : t.lookup (utc (startEpoch seconds c.openTime)).micros with
  | none => rw [Buckets.add_of_none hlook]; rfl
  | some b => rw [Buckets.add_of_some hlook]; rfl

theorem addCandle_of_not_fits (hc : Dated c) (hpos : 0 < seconds) (hfits : ¬ Fits seconds c)
    (hnew : t.lookup ((ohlcv seconds).key c) = none) :
    addCandle seconds t c = .error yearOutOfRange := by
  have hend : 253402300800 ≤ startEpoch seconds c.openTime + seconds := not_lt.mp hfits
  rw [addCandle_of_dated hc]
  rcases lt_or_ge (startEpoch seconds c.openTime) 253402300800 with hlt | hge
  · have hlook : t.lookup (utc (startEpoch seconds c.openTime)).micros = none := hnew
    rw [fromTimestamp_of_lt (startEpoch_nonneg hpos hc.nonneg) hlt, ok_bind, hlook]
    change fromTimestamp _ >>= _ = _
    rw [fromTimestamp_of_le hend, error_bind]
  · rw [fromTimestamp_of_le hge, error_bind]

theorem startEpoch_eq_of_key {c' : Candle P V}
    (h : (ohlcv seconds).key c = (ohlcv seconds).key c') :
    startEpoch seconds c.openTime = startEpoch seconds c'.openTime := by
  have hmicros : startEpoch seconds c.openTime * 1000000 =
      startEpoch seconds c'.openTime * 1000000 := h
  omega

theorem loop_of_fits (hpos : 0 < seconds) (hdated : ∀ c ∈ cs, Dated c)
    (hfits : ∀ c ∈ cs, Fits seconds c) :
    cs.foldlM (addCandle seconds) ∅ = .ok ((ohlcv seconds).collect cs) := by
  induction cs using List.reverseRecOn with
  | nil => rfl
  | append_singleton cs c ih =>
    rw [List.foldlM_append, ih (fun c' h => hdated c' (by simp [h]))
      (fun c' h => hfits c' (by simp [h])), ok_bind]
    simp only [List.foldlM_cons, List.foldlM_nil, bind_pure, Buckets.collect, List.foldl_append,
      List.foldl_cons, List.foldl_nil]
    exact addCandle_of_fits (hdated c (by simp)) hpos (hfits c (by simp))

/-- One candle that does not fit, and the loop raises. -/
theorem loop_of_not_fits (hpos : 0 < seconds) (hdated : ∀ c ∈ cs, Dated c)
    (hfits : ∃ c ∈ cs, ¬ Fits seconds c) :
    cs.foldlM (addCandle seconds) ∅ = .error yearOutOfRange := by
  induction cs using List.reverseRecOn with
  | nil => simp at hfits
  | append_singleton cs c ih =>
    have hdated' : ∀ c' ∈ cs, Dated c' := fun c' h => hdated c' (by simp [h])
    rw [List.foldlM_append]
    by_cases hall : ∀ c' ∈ cs, Fits seconds c'
    · have hlast : ¬ Fits seconds c := by
        obtain ⟨c', hc', hnot⟩ := hfits
        rcases List.mem_append.mp hc' with hc' | hc'
        · exact absurd (hall c' hc') hnot
        · rwa [List.mem_singleton.mp hc'] at hnot
      -- a bucket that is there was opened by a candle that fits
      have hnew : ((ohlcv seconds).collect cs).lookup ((ohlcv seconds).key c) = none := by
        cases hlook : ((ohlcv seconds).collect cs).lookup ((ohlcv seconds).key c) with
        | none => rfl
        | some b =>
          obtain ⟨c', hc', hkey⟩ := Buckets.exists_of_lookup hlook
          have hend : startEpoch seconds c'.openTime + seconds < 253402300800 := hall c' hc'
          rw [startEpoch_eq_of_key hkey] at hend
          exact absurd hend hlast
      rw [loop_of_fits hpos hdated' hall, ok_bind]
      simp only [List.foldlM_cons, List.foldlM_nil, bind_pure]
      exact addCandle_of_not_fits (hdated c (by simp)) hpos hlast hnew
    · push Not at hall
      rw [ih hdated' hall, error_bind]

theorem aggregateOhlcv_of_fits (h : intervalSeconds.lookup timeframe = some seconds)
    (hdated : ∀ c ∈ cs, Dated c) (hfits : ∀ c ∈ cs, Fits seconds c) :
    aggregateOhlcv cs timeframe = .ok (Buckets.sorted ((ohlcv seconds).collect cs)) := by
  rw [aggregateOhlcv, h]
  change cs.foldlM (addCandle seconds) ∅ >>= _ = _
  rw [loop_of_fits (lookup_pos h) hdated hfits]
  rfl

theorem aggregateOhlcv_of_not_fits (h : intervalSeconds.lookup timeframe = some seconds)
    (hdated : ∀ c ∈ cs, Dated c) (hfits : ∃ c ∈ cs, ¬ Fits seconds c) :
    aggregateOhlcv cs timeframe = .error yearOutOfRange := by
  rw [aggregateOhlcv, h]
  change cs.foldlM (addCandle seconds) ∅ >>= _ = _
  rw [loop_of_not_fits (lookup_pos h) hdated hfits, error_bind]

/-! ## 5. Two stages -/

theorem times_foldl_merged (rest : List (Candle P V)) (b : Candle P V) :
    (rest.foldl merged b).openTime = b.openTime ∧ (rest.foldl merged b).closeTime = b.closeTime := by
  induction rest generalizing b with
  | nil => exact ⟨rfl, rfl⟩
  | cons c rest ih => exact ih (merged b c)

/-- The times of a bucket are those of the interval its candles are in. -/
theorem times_of_mem (h : b ∈ Buckets.sorted ((ohlcv seconds).collect cs)) :
    ∃ c ∈ cs, b.openTime = utc (startEpoch seconds c.openTime) ∧
      b.closeTime = utc (startEpoch seconds c.openTime + seconds) := by
  have hgroup := Buckets.mem_sorted_collect.mp h
  cases hunder : (ohlcv seconds).under ((ohlcv seconds).label b) cs with
  | nil => rw [hunder] at hgroup; cases hgroup
  | cons c rest =>
    have hc : c ∈ (ohlcv seconds).under ((ohlcv seconds).label b) cs := by simp [hunder]
    rw [hunder] at hgroup
    have hb : rest.foldl merged (opened seconds c) = b := Option.some.inj hgroup
    obtain ⟨hopen, hclose⟩ := times_foldl_merged rest (opened seconds c)
    rw [hb] at hopen hclose
    exact ⟨c, (List.mem_filter.mp hc).1, hopen, hclose⟩

theorem closeTime_of_mem (h : b ∈ Buckets.sorted ((ohlcv seconds).collect cs)) :
    b.closeTime.micros = b.openTime.micros + seconds * 1000000 := by
  obtain ⟨c, -, hopen, hclose⟩ := times_of_mem h
  rw [hopen, hclose, utc, utc]
  ring

theorem dated_of_mem (hpos : 0 < seconds) (hdated : ∀ c ∈ cs, Dated c)
    (h : b ∈ Buckets.sorted ((ohlcv seconds).collect cs)) : Dated b := by
  obtain ⟨c, hc, hopen, -⟩ := times_of_mem h
  have hstart := startEpoch_nonneg hpos (hdated c hc).nonneg
  refine ⟨by rw [hopen]; rfl, ?_⟩
  rw [hopen]
  exact Int.mul_nonneg hstart (by norm_num)

/-- The buckets come in the order of their times. -/
theorem increasing_sorted (hpos : 0 < seconds) (h : TimeOrdered cs) :
    (Buckets.sorted ((ohlcv seconds).collect cs)).Pairwise fun b b' =>
      b.openTime.micros < b'.openTime.micros := by
  have hholds := Buckets.holds_collect (h.ordered hpos)
  rw [hholds.sorted_eq, List.pairwise_reverse]
  exact hholds.decreasing

omit [LinearOrder P] [Zero V] [Add V] in
theorem fits_of_fits {sa sb : ℤ} (hsa : 0 < sa) (hsb : 0 < sb) (hdvd : sa ∣ sb)
    (hfits : Fits sb c) : Fits sa c := by
  obtain ⟨k, rfl⟩ := hdvd
  have hk : 0 < k := pos_of_mul_pos_right hsb hsa.le
  have hend : epochOf c.openTime / (sa * k) * (sa * k) + sa * k < 253402300800 := hfits
  have hquot : epochOf c.openTime / sa + 1 ≤ (epochOf c.openTime / sa / k + 1) * k :=
    Int.lt_ediv_add_one_mul_self _ hk
  have hle := Int.mul_le_mul_of_nonneg_right hquot hsa.le
  rw [Int.ediv_ediv_of_nonneg hsa.le] at hle
  have hdistrib : (epochOf c.openTime / (sa * k) + 1) * k * sa =
      epochOf c.openTime / (sa * k) * (sa * k) + sa * k := by ring
  rw [hdistrib, Int.add_mul, Int.one_mul] at hle
  exact hle.trans_lt hend

end

/-! ## 6. Volumes that are added exactly -/

section

variable {P V : Type} [LinearOrder P] [AddCommMonoid V] {seconds sa sb : ℤ} {c b : Candle P V}
  {cs : List (Candle P V)}

theorem sum_volume (hpos : 0 < seconds) (h : TimeOrdered cs) :
    ((Buckets.sorted ((ohlcv seconds).collect cs)).map fun b => b.volume.getD 0).sum =
      (cs.map fun c => c.volume.getD 0).sum := by
  rw [Buckets.sorted_collect (h.ordered hpos), List.map_reverse, List.sum_reverse,
    Buckets.sum_pushAll (f := fun c : Candle P V => c.volume.getD 0)]
  · simp
  · exact fun _ => rfl
  · exact fun _ _ => rfl

/-- The starts of the buckets nest. -/
theorem startEpoch_startEpoch {ts ts' : DateTime} (hsa : 0 < sa) (hdvd : sa ∣ sb)
    (hsmall : |startEpoch sa ts| < 2 ^ 53) (hts' : ts'.micros = startEpoch sa ts * 1000000) :
    startEpoch sb ts' = startEpoch sb ts := by
  have hepoch : epochOf ts' = startEpoch sa ts := by
    have hutc : epochOf ts' = epochOf (utc (startEpoch sa ts)) := by
      simp only [epochOf, timestamp, hts', utc]
    rw [hutc, epochOf_utc hsmall]
  obtain ⟨k, rfl⟩ := hdvd
  rw [startEpoch, hepoch]
  unfold startEpoch
  rw [← Int.ediv_ediv_of_nonneg hsa.le, Int.mul_ediv_cancel _ hsa.ne',
    Int.ediv_ediv_of_nonneg hsa.le]

/-- **The rule nests** on every candle whose bucket ends in time. -/
theorem nests_ohlcv (hc : Dated c) (hsa : 0 < sa) (hdvd : sa ∣ sb) (hfits : Fits sa c) :
    Buckets.Nests (ohlcv sa) (ohlcv sb) (ohlcv sb) c := by
  have hstart := startEpoch_nonneg hsa hc.nonneg
  have hend : startEpoch sa c.openTime + sa < 253402300800 := hfits
  have hsmall : |startEpoch sa c.openTime| < 2 ^ 53 := by
    rw [abs_of_nonneg hstart]
    omega
  have hopened : startEpoch sb (utc (startEpoch sa c.openTime)) = startEpoch sb c.openTime :=
    startEpoch_startEpoch hsa hdvd hsmall rfl
  refine ⟨fun b hb => ?_, ?_, fun _ => rfl, fun b => ?_, fun b b' => ?_⟩
  · have hstarts : startEpoch sb b.openTime = startEpoch sb c.openTime :=
      startEpoch_startEpoch hsa hdvd hsmall hb
    change (utc _).micros = (utc _).micros
    rw [hstarts]
  · simp only [ohlcv, opened, hopened, Option.getD_some]
  · simp only [ohlcv, opened, merged, Option.getD_some]
  · simp only [ohlcv, merged, Option.getD_some, max_assoc, min_assoc, add_assoc, Bool.and_assoc]

/-- A candle fits just when its bucket of the first stage does. -/
theorem fits_iff_of_label (hc : Dated c) (hsa : 0 < sa) (hdvd : sa ∣ sb) (hfits : Fits sa c)
    (hlabel : (ohlcv sa).label b = (ohlcv sa).key c) : Fits sb b ↔ Fits sb c := by
  have hkey := startEpoch_eq_of_key ((nests_ohlcv hc hsa hdvd hfits).key b hlabel)
  rw [Fits, Fits, hkey]

/-- The first stage, and then the second. -/
theorem sorted_comp (hsa : 0 < sa) (hsb : 0 < sb) (hdvd : sa ∣ sb) (hordered : TimeOrdered cs)
    (hdated : ∀ c ∈ cs, Dated c) (hfits : ∀ c ∈ cs, Fits sa c) :
    Buckets.sorted ((ohlcv sb).collect (Buckets.sorted ((ohlcv sa).collect cs))) =
      Buckets.sorted ((ohlcv sb).collect cs) := by
  have hstage : TimeOrdered (Buckets.sorted ((ohlcv sa).collect cs)) :=
    (increasing_sorted hsa hordered).imp le_of_lt
  have hnests : ∀ c ∈ cs, Buckets.Nests (ohlcv sa) (ohlcv sb) (ohlcv sb) c := fun c hc =>
    nests_ohlcv (hdated c hc) hsa hdvd (hfits c hc)
  rw [Buckets.sorted_collect (hstage.ordered hsb), Buckets.sorted_collect (hordered.ordered hsa),
    ← Buckets.gather_eq_pushAll, Buckets.gather_pushAll (fun _ => rfl) hnests,
    Buckets.sorted_collect (hordered.ordered hsb)]
  rfl

/-- Two stages, with whatever they raise. -/
theorem aggregate_stages {a b : String} (ha : intervalSeconds.lookup a = some sa)
    (hb : intervalSeconds.lookup b = some sb) (hdvd : sa ∣ sb) (hdated : ∀ c ∈ cs, Dated c)
    (hordered : TimeOrdered cs) :
    (do let stage ← aggregateOhlcv cs a
        aggregateOhlcv stage b) = aggregateOhlcv cs b := by
  have hsa := lookup_pos ha
  have hsb := lookup_pos hb
  by_cases hall : ∀ c ∈ cs, Fits sa c
  · have hstage : ∀ x ∈ Buckets.sorted ((ohlcv sa).collect cs), Dated x := fun x =>
      dated_of_mem hsa hdated
    rw [aggregateOhlcv_of_fits ha hdated hall, ok_bind]
    by_cases hallb : ∀ c ∈ cs, Fits sb c
    · have hfits : ∀ x ∈ Buckets.sorted ((ohlcv sa).collect cs), Fits sb x := by
        intro x hx
        obtain ⟨c, hc, hlabel⟩ := Buckets.exists_of_mem_sorted hx
        exact (fits_iff_of_label (hdated c hc) hsa hdvd (hall c hc) hlabel.symm).mpr (hallb c hc)
      rw [aggregateOhlcv_of_fits hb hstage hfits, aggregateOhlcv_of_fits hb hdated hallb,
        sorted_comp hsa hsb hdvd hordered hdated hall]
    · push Not at hallb
      have hfits : ∃ x ∈ Buckets.sorted ((ohlcv sa).collect cs), ¬ Fits sb x := by
        obtain ⟨c, hc, hnot⟩ := hallb
        obtain ⟨x, hx, hlabel⟩ := Buckets.exists_mem_sorted (B := ohlcv sa) hc
        exact ⟨x, hx, mt (fits_iff_of_label (hdated c hc) hsa hdvd (hall c hc) hlabel).mp hnot⟩
      rw [aggregateOhlcv_of_not_fits hb hstage hfits, aggregateOhlcv_of_not_fits hb hdated hallb]
  · push Not at hall
    have hallb : ∃ c ∈ cs, ¬ Fits sb c := by
      obtain ⟨c, hc, hnot⟩ := hall
      exact ⟨c, hc, mt (fits_of_fits hsa hsb hdvd) hnot⟩
    rw [aggregateOhlcv_of_not_fits ha hdated hall, error_bind,
      aggregateOhlcv_of_not_fits hb hdated hallb]

end

/-! ## 7. Volumes that may be rounded -/

/-- The candle with another volume. -/
def Candle.mapVolume {P V W : Type} (f : V → W) (c : Candle P V) : Candle P W :=
  { c with volume := c.volume.map f }

section

variable {P V A : Type} [LinearOrder P] [Zero V] [Add V] [AddCommMonoid A] {value : V → A}
  {cs : List (Candle P V)} {seconds sa sb : ℤ} {timeframe : String}

/-- What the volumes are worth. -/
def volumes (value : V → A) (cs : List (Candle P V)) : List A :=
  cs.map fun c => value (c.volume.getD 0)

/-- **No addition is rounded** whose exact result is the volume of neighbouring candles. -/
structure Unrounded (value : V → A) (cs : List (Candle P V)) : Prop where
  zero : value 0 = 0
  add : ∀ part x y, part <:+: volumes value cs → value x + value y = part.sum →
    value (x + y) = value x + value y

omit [LinearOrder P] [Add V] in
theorem volume_mapVolume (hzero : value 0 = 0) (c : Candle P V) :
    (c.mapVolume value).volume.getD 0 = value (c.volume.getD 0) := by
  cases hc : c.volume <;> simp [Candle.mapVolume, hc, hzero]

omit [LinearOrder P] [Add V] in
theorem map_volume_map (hzero : value 0 = 0) (cs : List (Candle P V)) :
    (cs.map (Candle.mapVolume value)).map (fun c => c.volume.getD 0) = volumes value cs := by
  rw [List.map_map]
  exact List.map_congr_left fun c _ => volume_mapVolume hzero c

/-- The loop adds as exactly as the volumes are worth. -/
theorem map_pushAll (h : Unrounded value cs) :
    ((ohlcv seconds).pushAll [] cs).map (Candle.mapVolume value) =
      (ohlcv seconds).pushAll [] (cs.map (Candle.mapVolume value)) := by
  refine Buckets.pushAll_map (fun _ => rfl) (fun _ => rfl) (fun c => ?_)
    fun ys c b older hys hbefore => ?_
  · refine Candle.ext rfl rfl rfl rfl rfl rfl ?_ rfl
    exact congrArg some (volume_mapVolume h.zero c).symm
  · -- the bucket holds the last of the candles before, and the sum is theirs and this one's
    have hnewest : (ohlcv seconds).pushAll [] (ys.map (Candle.mapVolume value)) =
      [b.mapVolume value] ++ older.map (Candle.mapVolume value) := hbefore
    obtain ⟨part, hpart, hsum⟩ := Buckets.exists_suffix_sum (fun _ => rfl) (fun _ _ => rfl) hnewest
      (f := fun c : Candle P A => c.volume.getD 0) (g := fun b => b.volume.getD 0)
    obtain ⟨before, hsplit⟩ := hpart.map fun c : Candle P A => c.volume.getD 0
    rw [map_volume_map h.zero] at hsplit
    have hinfix : part.map (fun c => c.volume.getD 0) ++ [value (c.volume.getD 0)] <:+:
        volumes value cs := by
      refine List.IsInfix.trans ⟨before, [], ?_⟩ (hys.map fun c => value (c.volume.getD 0)).isInfix
      rw [List.append_nil, ← List.append_assoc, hsplit, List.map_append]
      rfl
    have hadd := h.add _ (b.volume.getD 0) (c.volume.getD 0) hinfix (by
      rw [List.sum_append, ← hsum, List.map_singleton, List.sum_singleton, List.sum_singleton,
        volume_mapVolume h.zero])
    refine Candle.ext rfl rfl rfl rfl rfl rfl ?_ rfl
    change some (value (b.volume.getD 0 + c.volume.getD 0)) =
      some ((b.mapVolume value).volume.getD 0 + (c.mapVolume value).volume.getD 0)
    rw [hadd, volume_mapVolume h.zero, volume_mapVolume h.zero]

theorem map_sorted (hpos : 0 < seconds) (hordered : TimeOrdered cs) (h : Unrounded value cs) :
    (Buckets.sorted ((ohlcv seconds).collect cs)).map (Candle.mapVolume value) =
      Buckets.sorted ((ohlcv seconds).collect (cs.map (Candle.mapVolume value))) := by
  have hordered' : TimeOrdered (cs.map (Candle.mapVolume value)) := List.pairwise_map.mpr hordered
  rw [Buckets.sorted_collect (hordered.ordered hpos), List.map_reverse, map_pushAll h,
    Buckets.sorted_collect (hordered'.ordered hpos)]

omit [LinearOrder P] [Zero V] [Add V] [AddCommMonoid A] in
theorem dated_map (h : ∀ c ∈ cs, Dated c) : ∀ c ∈ cs.map (Candle.mapVolume value), Dated c := by
  intro _ hmapped
  obtain ⟨c, hc, rfl⟩ := List.mem_map.mp hmapped
  exact ⟨(h c hc).aware, (h c hc).nonneg⟩

/-- What the loop returns, or raises. -/
theorem map_aggregate (hlookup : intervalSeconds.lookup timeframe = some seconds)
    (hdated : ∀ c ∈ cs, Dated c) (hordered : TimeOrdered cs) (h : Unrounded value cs) :
    (aggregateOhlcv cs timeframe).map (List.map (Candle.mapVolume value)) =
      aggregateOhlcv (cs.map (Candle.mapVolume value)) timeframe := by
  have hdated' : ∀ c ∈ cs.map (Candle.mapVolume value), Dated c := dated_map hdated
  by_cases hall : ∀ c ∈ cs, Fits seconds c
  · have hall' : ∀ c ∈ cs.map (Candle.mapVolume value), Fits seconds c := by
      intro _ hmapped
      obtain ⟨c, hc, rfl⟩ := List.mem_map.mp hmapped
      exact hall c hc
    rw [aggregateOhlcv_of_fits hlookup hdated hall, aggregateOhlcv_of_fits hlookup hdated' hall',
      ← map_sorted (lookup_pos hlookup) hordered h]
    rfl
  · push Not at hall
    obtain ⟨c, hc, hnot⟩ := hall
    rw [aggregateOhlcv_of_not_fits hlookup hdated ⟨c, hc, hnot⟩,
      aggregateOhlcv_of_not_fits hlookup hdated' ⟨_, List.mem_map_of_mem hc, hnot⟩]
    rfl

/-- The buckets of a stage are added as exactly. -/
theorem Unrounded.sorted (hpos : 0 < seconds) (hordered : TimeOrdered cs)
    (h : Unrounded value cs) :
    Unrounded value (Buckets.sorted ((ohlcv seconds).collect cs)) := by
  refine ⟨h.zero, fun part x y hpart hsum => ?_⟩
  have hreverse : part.reverse <:+: ((ohlcv seconds).pushAll []
      (cs.map (Candle.mapVolume value))).map fun b => b.volume.getD 0 := by
    rw [← List.reverse_infix, List.reverse_reverse, ← map_pushAll h, map_volume_map h.zero]
    rwa [Buckets.sorted_collect (hordered.ordered hpos), volumes, List.map_reverse] at hpart
  obtain ⟨newer, older, hsplit⟩ := hreverse
  obtain ⟨front, older', hfront, hback, -⟩ := List.map_eq_append_iff.mp hsplit.symm
  obtain ⟨newer', mid, rfl, -, hmid⟩ := List.map_eq_append_iff.mp hback
  obtain ⟨neighbours, hinfix, hworth⟩ := Buckets.exists_infix_sum
    (g := fun b : Candle P A => b.volume.getD 0) (f := fun c : Candle P A => c.volume.getD 0)
    (fun _ => rfl) (fun _ _ => rfl) hfront
  refine h.add _ x y (map_volume_map h.zero cs ▸ hinfix.map _) ?_
  rw [hsum, ← hworth, hmid, List.sum_reverse]

/-- What is said of the list that `aggregate_ohlcv` returns. -/
structure Aggregated (seconds : ℤ) (cs out : List (Candle P V)) : Prop where
  increasing : out.Pairwise fun b b' =>
    b.openTime.micros < b'.openTime.micros ∧ b.closeTime.micros < b'.closeTime.micros
  interval : ∀ b ∈ out, ∃ k : ℤ, b.openTime = utc (k * seconds) ∧
    b.closeTime = utc (k * seconds + seconds)
  volume : ∀ (A : Type) [AddCommMonoid A] (value : V → A), Unrounded value cs →
    (volumes value out).sum = (volumes value cs).sum

theorem aggregated_sorted (hpos : 0 < seconds) (h : TimeOrdered cs) :
    Aggregated seconds cs (Buckets.sorted ((ohlcv seconds).collect cs)) := by
  refine ⟨(increasing_sorted hpos h).imp_of_mem fun {b b'} hb hb' hlt => ⟨hlt, ?_⟩,
    fun b hb => ?_, fun A _ value hvalue => ?_⟩
  · rw [closeTime_of_mem hb, closeTime_of_mem hb']
    omega
  · obtain ⟨c, -, hopen, hclose⟩ := times_of_mem hb
    exact ⟨epochOf c.openTime / seconds, hopen, hclose⟩
  · have hordered' : TimeOrdered (cs.map (Candle.mapVolume value)) := List.pairwise_map.mpr h
    rw [← map_volume_map hvalue.zero, map_sorted hpos h hvalue, sum_volume hpos hordered',
      map_volume_map hvalue.zero]

/-- Two stages, where no addition is rounded. -/
theorem map_stages {a b : String} (ha : intervalSeconds.lookup a = some sa)
    (hb : intervalSeconds.lookup b = some sb) (hdvd : sa ∣ sb) (hdated : ∀ c ∈ cs, Dated c)
    (hordered : TimeOrdered cs) (h : Unrounded value cs) :
    (do let stage ← aggregateOhlcv cs a
        aggregateOhlcv stage b).map (List.map (Candle.mapVolume value)) =
      (aggregateOhlcv cs b).map (List.map (Candle.mapVolume value)) := by
  have hsa := lookup_pos ha
  have hdated' : ∀ c ∈ cs.map (Candle.mapVolume value), Dated c := dated_map hdated
  have hordered' : TimeOrdered (cs.map (Candle.mapVolume value)) :=
    List.pairwise_map.mpr hordered
  rw [map_aggregate hb hdated hordered h, ← aggregate_stages ha hb hdvd hdated' hordered',
    ← map_aggregate ha hdated hordered h]
  cases hstage : aggregateOhlcv cs a with
  | error e => rfl
  | ok stage =>
    obtain ⟨s, hs, rfl, -⟩ := aggregateOhlcv_eq_ok hstage
    obtain rfl : sa = s := Option.some.inj (ha.symm.trans hs)
    exact map_aggregate hb (fun x => dated_of_mem hsa hdated)
      ((increasing_sorted hsa hordered).imp le_of_lt) (h.sorted hsa hordered)

end

/-- Three candles of one minute, the last in the next five minutes. -/
def minutes : List (Candle ℤ ℤ) :=
  [⟨utc 0, utc 60, 10, 12, 9, 11, some 5, some true⟩,
    ⟨utc 60, utc 120, 11, 15, 11, 14, some 7, some true⟩,
    ⟨utc 300, utc 360, 14, 14, 8, 9, none, some true⟩]

theorem dated_minutes : ∀ c ∈ minutes, Dated c := by
  intro c hc
  simp only [minutes, List.mem_cons, List.not_mem_nil, or_false] at hc
  rcases hc with rfl | rfl | rfl <;> exact ⟨rfl, by decide⟩

theorem timeOrdered_minutes : TimeOrdered minutes := by
  simp [TimeOrdered, minutes, utc]

theorem unrounded_minutes : Unrounded (fun v : ℤ => v) minutes := ⟨rfl, fun _ _ _ _ _ => rfl⟩

/-- A `float`. -/
structure Binary64 where
  value : ℚ
  deriving DecidableEq

instance : Zero Binary64 := ⟨⟨0⟩⟩

instance : Add Binary64 := ⟨fun x y => ⟨binary64 (x.value + y.value)⟩⟩

/-- Volumes of 0.1, 0.2 and 0.3, the last two in the second five minutes. -/
def tenths : List (Candle ℤ Binary64) :=
  [⟨utc 0, utc 60, 10, 12, 9, 11, some ⟨binary64 (1 / 10)⟩, some true⟩,
    ⟨utc 300, utc 360, 11, 15, 11, 14, some ⟨binary64 (2 / 10)⟩, some true⟩,
    ⟨utc 360, utc 420, 14, 14, 8, 9, some ⟨binary64 (3 / 10)⟩, some true⟩]

end Kripto.Data
