/-
# Candles that repaint

A bucket of `aggregate_ohlcv` is marked closed when all its candles so far are, whether or not its
interval is over.  Strategies read closed candles as final.

* `no_repaint_iff`: the closed buckets of a list stay as they are in the longer list exactly if the
  later candles that fall into them change neither their prices nor their volume.
-/
import Kripto.Data.Candles

namespace Kripto.Data

open Effect

section

variable {P V : Type} [LinearOrder P] [Zero V] [Add V] {seconds : ℤ} {a b c : Candle P V}
  {rest more : List (Candle P V)} {p : P} {v : V}

/-! ## 1. The fields of a bucket -/

theorem le_high_foldl :
    p ≤ (rest.foldl merged b).high ↔ p ≤ b.high ∨ ∃ c ∈ rest, p ≤ c.high := by
  induction rest generalizing b with
  | nil => simp
  | cons c rest ih =>
    rw [List.foldl_cons, ih]
    simp [merged, or_assoc]

theorem low_foldl_le :
    (rest.foldl merged b).low ≤ p ↔ b.low ≤ p ∨ ∃ c ∈ rest, c.low ≤ p := by
  induction rest generalizing b with
  | nil => simp
  | cons c rest ih =>
    rw [List.foldl_cons, ih]
    simp [merged, or_assoc]

theorem high_foldl_eq_iff :
    (more.foldl merged b).high = b.high ↔ ∀ x ∈ more, x.high ≤ b.high := by
  constructor
  · intro heq x hx
    rw [← heq]
    exact le_high_foldl.mpr (.inr ⟨x, hx, le_rfl⟩)
  · intro h
    refine le_antisymm ?_ (le_high_foldl.mpr (.inl le_rfl))
    rcases le_high_foldl.mp (le_refl (more.foldl merged b).high) with hle | ⟨x, hx, hle⟩
    · exact hle
    · exact hle.trans (h x hx)

theorem low_foldl_eq_iff :
    (more.foldl merged b).low = b.low ↔ ∀ x ∈ more, b.low ≤ x.low := by
  constructor
  · intro heq x hx
    rw [← heq]
    exact low_foldl_le.mpr (.inr ⟨x, hx, le_rfl⟩)
  · intro h
    refine le_antisymm (low_foldl_le.mpr (.inl le_rfl)) ?_
    rcases low_foldl_le.mp (le_refl (more.foldl merged b).low) with hle | ⟨x, hx, hle⟩
    · exact hle
    · exact (h x hx).trans hle

theorem openPrice_foldl (rest : List (Candle P V)) (b : Candle P V) :
    (rest.foldl merged b).openPrice = b.openPrice := by
  induction rest generalizing b with
  | nil => rfl
  | cons c rest ih => exact ih (merged b c)

theorem close_foldl_concat : ((rest ++ [c]).foldl merged b).close = c.close := by
  rw [List.foldl_append]
  rfl

/-- The volume of some candles, added to another in their order. -/
def addVolumes (v : V) (cs : List (Candle P V)) : V := cs.foldl (fun v c => v + c.volume.getD 0) v

theorem volume_foldl (h : b.volume = some v) :
    (rest.foldl merged b).volume = some (addVolumes v rest) := by
  induction rest generalizing b v with
  | nil => exact h
  | cons c rest ih =>
    have hmerged : (merged b c).volume = some (v + c.volume.getD 0) := by simp [merged, h]
    exact ih hmerged

theorem closed_foldl (h : b.closed = some true) (hrest : ∀ c ∈ rest, c.closed = some true) :
    (rest.foldl merged b).closed = some true := by
  induction rest generalizing b with
  | nil => exact h
  | cons c rest ih =>
    refine ih ?_ fun c' hc' => hrest c' (List.mem_cons_of_mem c hc')
    simp [merged, h, hrest c (by simp)]

/-! ## 2. Later candles of the bucket -/

/-- Later candles of a bucket add nothing to those before. -/
structure AddsNothing (before more : List (Candle P V)) : Prop where
  high : ∀ x ∈ more, ∃ c ∈ before, x.high ≤ c.high
  low : ∀ x ∈ more, ∃ c ∈ before, c.low ≤ x.low
  close : ∀ x ∈ more.getLast?, ∀ c ∈ before.getLast?, x.close = c.close
  volume : ∀ first rest, before = first :: rest →
    addVolumes (addVolumes (first.volume.getD 0) rest) more =
      addVolumes (first.volume.getD 0) rest

theorem le_high_bucket :
    p ≤ (rest.foldl merged (opened seconds a)).high ↔ ∃ c ∈ a :: rest, p ≤ c.high := by
  rw [le_high_foldl, List.exists_mem_cons_iff]
  rfl

theorem low_bucket_le :
    (rest.foldl merged (opened seconds a)).low ≤ p ↔ ∃ c ∈ a :: rest, c.low ≤ p := by
  rw [low_foldl_le, List.exists_mem_cons_iff]
  rfl

/-- The last of the candles of a bucket closes it. -/
theorem close_of_getLast (h : c ∈ (a :: rest).getLast?) :
    (rest.foldl merged (opened seconds a)).close = c.close := by
  rcases List.eq_nil_or_concat' rest with rfl | ⟨rest, last, rfl⟩
  · obtain rfl : a = c := by simpa using h
    rfl
  · rw [← List.cons_append, List.getLast?_concat] at h
    obtain rfl : last = c := by simpa using h
    exact close_foldl_concat

/-- **A closed bucket is left as it is** by the candles that add nothing, and by no others. -/
theorem foldl_eq_self_iff (hclosed : ∀ c ∈ a :: rest, c.closed = some true)
    (hmore : ∀ c ∈ more, c.closed = some true) :
    more.foldl merged (rest.foldl merged (opened seconds a)) =
        rest.foldl merged (opened seconds a) ↔ AddsNothing (a :: rest) more := by
  have hopened : (opened seconds a).closed = some true := by
    simp [opened, hclosed a (by simp)]
  have hb : (rest.foldl merged (opened seconds a)).closed = some true :=
    closed_foldl hopened fun c hc => hclosed c (List.mem_cons_of_mem a hc)
  have hvolume : (rest.foldl merged (opened seconds a)).volume =
      some (addVolumes (a.volume.getD 0) rest) :=
    volume_foldl (v := a.volume.getD 0) rfl
  constructor
  · intro heq
    refine ⟨fun x hx => ?_, fun x hx => ?_, fun x hx c hc => ?_, ?_⟩
    · exact le_high_bucket.mp (high_foldl_eq_iff.mp (congrArg Candle.high heq) x hx)
    · exact low_bucket_le.mp (low_foldl_eq_iff.mp (congrArg Candle.low heq) x hx)
    · rcases List.eq_nil_or_concat' more with rfl | ⟨more, last, rfl⟩
      · simp at hx
      · obtain rfl : last = x := by simpa using hx
        have hbucket : (rest.foldl merged (opened seconds a)).close = c.close :=
          close_of_getLast hc
        rw [← hbucket, ← heq, close_foldl_concat]
    · rintro _ _ ⟨⟩
      have hsum := congrArg Candle.volume heq
      rwa [volume_foldl hvolume, hvolume, Option.some.injEq] at hsum
  · intro hadds
    obtain ⟨hopenTime, hcloseTime⟩ := times_foldl_merged more (rest.foldl merged (opened seconds a))
    refine Candle.ext hopenTime hcloseTime (openPrice_foldl _ _) ?_ ?_ ?_ ?_ ?_
    · exact high_foldl_eq_iff.mpr fun x hx => le_high_bucket.mpr (hadds.high x hx)
    · exact low_foldl_eq_iff.mpr fun x hx => low_bucket_le.mpr (hadds.low x hx)
    · rcases List.eq_nil_or_concat' more with rfl | ⟨more, last, rfl⟩
      · rfl
      · obtain ⟨c, hc⟩ : ∃ c, c ∈ (a :: rest).getLast? :=
          ⟨_, List.getLast?_eq_some_getLast (List.cons_ne_nil a rest)⟩
        rw [close_foldl_concat, close_of_getLast hc]
        exact hadds.close last (by simp) c hc
    · rw [volume_foldl hvolume, hadds.volume a rest rfl, hvolume]
    · rw [closed_foldl hb hmore, hb]

/-- The candles of the bucket of `c`. -/
def bucketOf (seconds : ℤ) (c : Candle P V) (cs : List (Candle P V)) : List (Candle P V) :=
  cs.filter fun x => startEpoch seconds x.openTime = startEpoch seconds c.openTime

theorem under_eq_bucketOf {cs : List (Candle P V)}
    (h : (ohlcv seconds).key c = (ohlcv seconds).label b) :
    (ohlcv seconds).under ((ohlcv seconds).label b) cs = bucketOf seconds c cs := by
  refine List.filter_congr fun x _ => ?_
  rw [← h]
  have hkey : (ohlcv seconds).key x = (ohlcv seconds).key c ↔
      startEpoch seconds x.openTime = startEpoch seconds c.openTime :=
    ⟨startEpoch_eq_of_key, fun heq => congrArg (· * 1000000) heq⟩
  simp only [hkey]

/-- The bucket of a candle is in the longer list just when nothing is added to it. -/
theorem mem_longer_iff {cs : List (Candle P V)} (hclosed : ∀ c ∈ cs ++ more, c.closed = some true)
    (hb : b ∈ Buckets.sorted ((ohlcv seconds).collect cs))
    (hkey : (ohlcv seconds).key c = (ohlcv seconds).label b) :
    b.closed = some true ∧ (b ∈ Buckets.sorted ((ohlcv seconds).collect (cs ++ more)) ↔
      AddsNothing (bucketOf seconds c cs) (bucketOf seconds c more)) := by
  have hgroup := Buckets.mem_sorted_collect.mp hb
  rw [Buckets.mem_sorted_collect_append hb, under_eq_bucketOf hkey]
  rw [under_eq_bucketOf hkey] at hgroup
  have hmore : ∀ x ∈ bucketOf seconds c more, x.closed = some true := fun x hx =>
    hclosed x (List.mem_append_right cs (List.mem_filter.mp hx).1)
  have hcs : ∀ x ∈ bucketOf seconds c cs, x.closed = some true := fun x hx =>
    hclosed x (List.mem_append_left more (List.mem_filter.mp hx).1)
  cases hbucket : bucketOf seconds c cs with
  | nil => rw [hbucket] at hgroup; cases hgroup
  | cons a rest =>
    rw [hbucket] at hgroup hcs
    have hfold : rest.foldl merged (opened seconds a) = b := Option.some.inj hgroup
    rw [← hfold]
    refine ⟨closed_foldl ?_ fun x hx => hcs x (by simp [hx]), foldl_eq_self_iff hcs hmore⟩
    simp [opened, hcs a (by simp)]

end

/-! ## 3. What a longer list does to closed buckets -/

/-- **Closed buckets stay** exactly if the later candles of each of them add nothing to it. -/
theorem no_repaint_iff {P V : Type} [LinearOrder P] [Zero V] [Add V]
    (candles more out whole : List (Candle P V)) (timeframe : String) (seconds : ℤ)
    (hseconds : intervalSeconds.lookup timeframe = some seconds)
    (hclosed : ∀ c ∈ candles ++ more, c.closed = some true)
    (hout : aggregateOhlcv candles timeframe = .ok out)
    (hwhole : aggregateOhlcv (candles ++ more) timeframe = .ok whole) :
    (∀ b ∈ out, b.closed = some true → b ∈ whole) ↔
      ∀ c ∈ candles, AddsNothing (bucketOf seconds c candles) (bucketOf seconds c more) := by
  obtain ⟨s, hs, rfl, -⟩ := aggregateOhlcv_eq_ok hout
  obtain rfl : s = seconds := Option.some.inj (hs.symm.trans hseconds)
  obtain ⟨s', hs', rfl, -⟩ := aggregateOhlcv_eq_ok hwhole
  obtain rfl : s' = s := Option.some.inj (hs'.symm.trans hs)
  constructor
  · intro h c hc
    obtain ⟨b, hb, hlabel⟩ := Buckets.exists_mem_sorted (B := ohlcv s') hc
    obtain ⟨hflag, hmem⟩ := mem_longer_iff hclosed hb hlabel.symm
    exact hmem.mp (h b hb hflag)
  · intro h b hb _
    obtain ⟨c, hc, hkey⟩ := Buckets.exists_of_mem_sorted hb
    exact (mem_longer_iff hclosed hb hkey).2.mpr (h c hc)

/-- The first minute closes a bucket of five, -/
theorem aggregate_first : aggregateOhlcv (minutes.take 1) "5m" =
    .ok [⟨utc 0, utc 300, 10, 12, 9, 11, some 5, some true⟩] := by
  decide +kernel

/-- and the second one makes another of it. -/
theorem aggregate_both : aggregateOhlcv minutes "5m" =
    .ok [⟨utc 0, utc 300, 10, 15, 9, 14, some 12, some true⟩,
      ⟨utc 300, utc 600, 14, 14, 8, 9, some 0, some true⟩] := by
  decide +kernel

theorem no_repaint_iff_minutes :
    (∀ b ∈ [(⟨utc 0, utc 300, 10, 12, 9, 11, some 5, some true⟩ : Candle ℤ ℤ)],
        b.closed = some true →
          b ∈ [(⟨utc 0, utc 300, 10, 15, 9, 14, some 12, some true⟩ : Candle ℤ ℤ),
            ⟨utc 300, utc 600, 14, 14, 8, 9, some 0, some true⟩]) ↔
      ∀ c ∈ minutes.take 1,
        AddsNothing (bucketOf 300 c (minutes.take 1)) (bucketOf 300 c (minutes.drop 1)) := by
  refine no_repaint_iff (minutes.take 1) (minutes.drop 1) _ _ "5m" 300 rfl ?_ aggregate_first ?_
  · simp [minutes]
  · rw [List.take_append_drop]
    exact aggregate_both

/-- **A closed bucket repaints.** -/
theorem repaints : ¬ ∀ candles more out whole : List (Candle ℤ ℤ),
    TimeOrdered (candles ++ more) → (∀ c ∈ candles ++ more, c.closed = some true) →
      aggregateOhlcv candles "5m" = .ok out → aggregateOhlcv (candles ++ more) "5m" = .ok whole →
        ∀ b ∈ out, b.closed = some true → b ∈ whole := by
  intro h
  have hmem := h (minutes.take 1) (minutes.drop 1) _ _
    (by rw [List.take_append_drop]; exact timeOrdered_minutes) (by simp [minutes])
    aggregate_first (by rw [List.take_append_drop]; exact aggregate_both)
  exact absurd hmem (by decide)

end Kripto.Data
