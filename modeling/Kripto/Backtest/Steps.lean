/-
# The single steps of a backtest

What is read at a bar is the list of candles up to it (`moment?_eq_some_iff`), and what is due at a
time are the bars of that time (`mem_due`).  The nested loops of `run_multi_asset` are one loop over
exits, entries and marks (`loop_eq`), each of which does one of few things (`exitOne_cases`,
`enterOne_cases`; `act_cases` for `run`).
-/
import Kripto.Backtest.Engine
import Kripto.Effect.Horizon

namespace Kripto.Backtest

open Effect

variable {T X : Type}

/-! ## 1. Moments -/

section Moments

variable {rows pre post : List (Candle T X)} {m : Moment T X} {i : ℕ}

theorem moment?_eq_some_iff : moment? rows i = some m ↔
    i ≠ 0 ∧ rows[i - 1]? = some m.prev ∧ rows[i]? = some m.bar ∧ m.history = rows.take i := by
  unfold moment?
  by_cases hi : i = 0
  · simp [hi]
  · simp only [hi, if_false, ne_eq, not_false_eq_true, true_and]
    cases hprev : rows[i - 1]? with
    | none => simp
    | some prev =>
      cases hbar : rows[i]? with
      | none => simp
      | some bar =>
        obtain ⟨history, prev', bar'⟩ := m
        simp only [Option.some.injEq, Moment.mk.injEq]
        constructor
        · rintro ⟨rfl, rfl, rfl⟩
          exact ⟨rfl, rfl, rfl⟩
        · rintro ⟨rfl, rfl, rfl⟩
          exact ⟨rfl, rfl, rfl⟩

theorem bar_of_moment? (h : moment? rows i = some m) : rows[i]? = some m.bar :=
  (moment?_eq_some_iff.mp h).2.2.1

theorem lt_of_moment? (h : moment? rows i = some m) : i < rows.length :=
  (List.getElem?_eq_some_iff.mp (bar_of_moment? h)).1

/-- What is read at a bar does not depend on later ones. -/
theorem moment?_append (hi : i < pre.length) : moment? (pre ++ post) i = moment? pre i := by
  unfold moment?
  rw [List.getElem?_append_left hi, List.getElem?_append_left (by omega),
    List.take_append_of_le_length hi.le]

theorem mem_moments : m ∈ moments rows ↔ ∃ i, moment? rows i = some m := by
  rw [moments, List.mem_filterMap]
  constructor
  · rintro ⟨i, -, h⟩
    exact ⟨i, h⟩
  · rintro ⟨i, h⟩
    exact ⟨i, List.mem_range.mpr (lt_of_moment? h), h⟩

theorem bar_mem_of_moments (h : m ∈ moments rows) : m.bar ∈ rows := by
  obtain ⟨i, hi⟩ := mem_moments.mp h
  exact List.mem_of_getElem? (bar_of_moment? hi)

/-- More candles, more moments. -/
theorem exists_moments_append (pre post : List (Candle T X)) :
    ∃ rest, moments (pre ++ post) = moments pre ++ rest ∧ ∀ m ∈ rest, m.bar ∈ post := by
  refine ⟨((List.range post.length).map (pre.length + ·)).filterMap (moment? (pre ++ post)), ?_, ?_⟩
  · rw [moments, List.length_append, List.range_add, List.filterMap_append, moments]
    congr 1
    exact List.filterMap_congr fun i hi => moment?_append (List.mem_range.mp hi)
  · intro m hm
    obtain ⟨j, hj, h⟩ := List.mem_filterMap.mp hm
    obtain ⟨i, -, rfl⟩ := List.mem_map.mp hj
    have hbar := bar_of_moment? h
    rw [List.getElem?_append_right (by omega)] at hbar
    exact List.mem_of_getElem? hbar

end Moments

/-! ## 2. What is due at a time -/

section ByTime

variable [LinearOrder T] {candles : CandlesBySymbol T X} {symbol : String} {i : ℕ} {ts : T}

theorem perm_sorted {A : Type} [LinearOrder A] (xs : List A) : (sorted xs).Perm xs :=
  List.perm_insertionSort _ xs

@[simp] theorem mem_sorted {A : Type} [LinearOrder A] {xs : List A} {x : A} :
    x ∈ sorted xs ↔ x ∈ xs := (perm_sorted xs).mem_iff

theorem pairwise_sorted {A : Type} [LinearOrder A] (xs : List A) :
    (sorted xs).Pairwise (· ≤ ·) := List.pairwise_insertionSort _ xs

/-- Lists in order, without repetition and with the same members, are the same. -/
theorem eq_of_sorted {A : Type} [LinearOrder A] {xs ys : List A} (hxs : xs.Pairwise (· ≤ ·))
    (hys : ys.Pairwise (· ≤ ·)) (hnodup : xs.Nodup) (hnodup' : ys.Nodup)
    (h : ∀ x, x ∈ xs ↔ x ∈ ys) : xs = ys :=
  ((List.perm_ext_iff_of_nodup hnodup hnodup').mpr h).eq_of_pairwise' hxs hys

omit [LinearOrder T] in
/-- The bars of a symbol, at its moments. -/
theorem mem_entries {p : String ×ₗ ℕ} : (ts, p) ∈ entries candles ↔
    ∃ m, moment? (rowsOf candles (ofLex p).1) (ofLex p).2 = some m ∧ m.bar.openTime = ts := by
  simp only [entries, List.mem_flatMap, List.mem_filterMap, List.mem_range, Option.map_eq_some_iff,
    Prod.mk.injEq]
  constructor
  · rintro ⟨e, he, i, -, m, hm, htime, rfl⟩
    have hlookup : candles.lookup e.1 = some e.2 := AList.mem_lookup_iff.mpr he
    exact ⟨m, by simpa [rowsOf, hlookup] using hm, htime⟩
  · rintro ⟨m, hm, htime⟩
    cases hlookup : candles.lookup (ofLex p).1 with
    | none =>
      rw [rowsOf, hlookup] at hm
      simp [moment?_eq_some_iff] at hm
    | some rows =>
      rw [rowsOf, hlookup] at hm
      exact ⟨⟨(ofLex p).1, rows⟩, AList.mem_lookup_iff.mp hlookup, (ofLex p).2, lt_of_moment? hm,
        m, hm, htime, rfl⟩

omit [LinearOrder T] in
theorem nodup_entries (candles : CandlesBySymbol T X) :
    ((entries candles).map (·.2)).Nodup := by
  rw [entries, List.map_flatMap, List.nodup_flatMap]
  constructor
  · intro e _
    rw [List.map_filterMap]
    refine List.Nodup.filterMap ?_ List.nodup_range
    intro i j p hi hj
    simp only [Option.map_map, Option.mem_def, Option.map_eq_some_iff, Function.comp_apply] at hi hj
    obtain ⟨_, -, rfl⟩ := hi
    obtain ⟨_, -, hp⟩ := hj
    exact (congrArg (fun p => (ofLex p).2) hp).symm
  · refine (List.pairwise_map.mp candles.nodupKeys).imp fun {e e'} hne => ?_
    rw [Function.onFun, List.disjoint_left]
    simp only [List.mem_map, List.mem_filterMap, Option.map_eq_some_iff]
    rintro _ ⟨_, ⟨i, -, m, -, rfl⟩, rfl⟩ ⟨_, ⟨j, -, m', -, rfl⟩, hp⟩
    exact hne (congrArg (fun p => (ofLex p).1) hp).symm

theorem mem_due {p : String ×ₗ ℕ} : p ∈ due candles ts ↔
    ∃ m, moment? (rowsOf candles (ofLex p).1) (ofLex p).2 = some m ∧ m.bar.openTime = ts := by
  rw [← mem_entries, due, mem_sorted, List.mem_map]
  constructor
  · rintro ⟨⟨ts', p'⟩, he, rfl⟩
    obtain ⟨hmem, htime⟩ := List.mem_filter.mp he
    rwa [← of_decide_eq_true htime]
  · exact fun h => ⟨(ts, p), List.mem_filter.mpr ⟨h, by simp⟩, rfl⟩

theorem openTime_of_due {p : String ×ₗ ℕ} {m : Moment T X} (h : p ∈ due candles ts)
    (hm : moment? (rowsOf candles (ofLex p).1) (ofLex p).2 = some m) : m.bar.openTime = ts := by
  obtain ⟨m', hm', htime⟩ := mem_due.mp h
  rw [hm] at hm'
  cases hm'
  exact htime

theorem nodup_due : (due candles ts).Nodup :=
  (perm_sorted _).nodup_iff.mpr ((nodup_entries candles).sublist (List.filter_sublist.map _))

theorem mem_times : ts ∈ times candles ↔ ∃ p, p ∈ due candles ts := by
  simp only [times, mem_sorted, List.mem_dedup, List.mem_map, mem_due, ← mem_entries]
  constructor
  · rintro ⟨⟨ts', p⟩, he, rfl⟩
    exact ⟨p, he⟩
  · rintro ⟨p, hp⟩
    exact ⟨(ts, p), hp, rfl⟩

theorem nodup_times : (times candles).Nodup :=
  (perm_sorted _).nodup_iff.mpr (List.nodup_dedup _)

theorem inOrder_times : InOrder id (times candles) := pairwise_sorted _

/-- A symbol with something due is one of the collection. -/
theorem mem_keys_of_due {p : String ×ₗ ℕ} (h : p ∈ due candles ts) :
    (ofLex p).1 ∈ candles.keys.toFinset := by
  obtain ⟨m, hm, -⟩ := mem_due.mp h
  rw [List.mem_toFinset, ← AList.mem_keys]
  by_contra hnone
  rw [rowsOf, AList.lookup_eq_none.mpr hnone] at hm
  simp [moment?_eq_some_iff] at hm

end ByTime

/-! ## 3. One loop -/

inductive Step (T : Type) : Type
  | exit (ts : T) (p : String ×ₗ ℕ)
  | enter (ts : T) (p : String ×ₗ ℕ)
  | mark (ts : T)

section Loop

variable [LinearOrder T] (signalFn : String → List (Candle T X) → Signal)
  (universeFn : Option (T → Finset String)) (costs : Costs) (maxPositions : ℤ)
  (candles : CandlesBySymbol T X)

def stepsAt (ts : T) : List (Step T) :=
  (due candles ts).map (.exit ts) ++ (due candles ts).map (.enter ts) ++ [.mark ts]

def steps : List (Step T) := (times candles).flatMap (stepsAt candles)

def perform (s : Portfolio T) : Step T → Except String (Portfolio T)
  | .exit ts p => .ok (exitOne signalFn universeFn costs candles ts s p)
  | .enter ts p => enterOne signalFn universeFn costs maxPositions candles ts s p
  | .mark ts => .ok (markAt ts s)

theorem turnAt_eq (s : Portfolio T) (ts : T) :
    turnAt signalFn universeFn costs maxPositions candles s ts =
      (stepsAt candles ts).foldlM (perform signalFn universeFn costs maxPositions candles) s := by
  have hexits : (due candles ts).foldlM (fun s p =>
      perform signalFn universeFn costs maxPositions candles s (.exit ts p)) s =
      .ok ((due candles ts).foldl (exitOne signalFn universeFn costs candles ts) s) :=
    List.foldlM_pure
  simp only [turnAt, stepsAt, List.foldlM_append, List.foldlM_map, hexits, ok_bind,
    List.foldlM_cons, List.foldlM_nil, bind_pure]
  rfl

/-- **The nested loops are one.** -/
theorem loop_eq (s : Portfolio T) :
    (times candles).foldlM (turnAt signalFn universeFn costs maxPositions candles) s =
      (steps candles).foldlM (perform signalFn universeFn costs maxPositions candles) s := by
  rw [steps, foldlM_flatMap]
  exact foldlM_congr fun s ts _ => turnAt_eq signalFn universeFn costs maxPositions candles s ts

end Loop

/-! ## 4. What a step does -/

section Cases

variable {signalFn : List (Candle T X) → Signal} {costs : Costs} {s s' : RunState T}
  {m : Moment T X}

/-- A turn of `run` does nothing, enters or exits. -/
theorem act_cases (h : act signalFn costs s m = .ok s') :
    s' = s ∨
    (∃ pos, s.pos = none ∧ signalFn m.history = .BUY ∧
      enter costs s.account.equity m.prev m.bar = .ok pos ∧ s' = { s with pos := some pos }) ∨
    ∃ pos exit, s.pos = some pos ∧ exitOf costs pos m.bar (signalFn m.history) = some exit ∧
      exit.1 ≠ 0 ∧ s' = ⟨s.account.book (closedTrade costs pos m.bar exit ""), none⟩ := by
  unfold act at h
  cases hpos : s.pos with
  | none =>
    rw [hpos] at h
    by_cases hbuy : signalFn m.history = .BUY
    · simp only [hbuy, if_true] at h
      cases henter : enter costs s.account.equity m.prev m.bar with
      | error e =>
        rw [henter] at h
        cases h
      | ok pos =>
        rw [henter] at h
        exact .inr (.inl ⟨pos, rfl, hbuy, rfl, (Except.ok.inj h).symm⟩)
    · simp only [hbuy, if_false] at h
      exact .inl (Except.ok.inj h).symm
  | some pos =>
    rw [hpos] at h
    cases hexit : exitOf costs pos m.bar (signalFn m.history) with
    | none =>
      simp only [hexit] at h
      exact .inl (Except.ok.inj h).symm
    | some exit =>
      simp only [hexit] at h
      by_cases hzero : exit.1 = 0
      · rw [if_pos hzero] at h
        exact .inl (Except.ok.inj h).symm
      · rw [if_neg hzero] at h
        exact .inr (.inr ⟨pos, exit, rfl, hexit, hzero, (Except.ok.inj h).symm⟩)

theorem turn_eq_ok_iff : turn signalFn costs s m = .ok s' ↔
    ∃ mid, act signalFn costs s m = .ok mid ∧ s' = ⟨mid.account.mark, mid.pos⟩ := by
  unfold turn
  cases act signalFn costs s m with
  | error e => simp [Except.map]
  | ok mid => simp [Except.map, eq_comm]

end Cases

section PortfolioCases

variable {signalFn : String → List (Candle T X) → Signal}
  {universeFn : Option (T → Finset String)} {costs : Costs} {maxPositions : ℤ}
  {candles : CandlesBySymbol T X} {s s' : Portfolio T} {ts : T} {p : String ×ₗ ℕ}

/-- The exit of a position at a bar, if there is one. -/
def portfolioExit (signalFn : String → List (Candle T X) → Signal)
    (universeFn : Option (T → Finset String)) (costs : Costs) (candles : CandlesBySymbol T X)
    (ts : T) (symbol : String) (pos : Position T) (m : Moment T X) : Option (ℚ × ExitReason) :=
  if symbol ∉ active universeFn candles ts then some (saleAtOpen costs m.bar, .UNIVERSE_EXIT)
  else exitOf costs pos m.bar (signalFn symbol m.history)

/-- The portfolio after an exit. -/
def Portfolio.closed (s : Portfolio T) (costs : Costs) (symbol : String) (pos : Position T)
    (m : Moment T X) (exit : ℚ × ExitReason) : Portfolio T :=
  { s with
    account := s.account.book (closedTrade costs pos m.bar exit symbol)
    positions := s.positions.erase symbol }

theorem exitOne_eq {pos : Position T} {m : Moment T X}
    (hpos : s.positions.lookup (ofLex p).1 = some pos)
    (hm : moment? (rowsOf candles (ofLex p).1) (ofLex p).2 = some m) :
    exitOne signalFn universeFn costs candles ts s p =
      (portfolioExit signalFn universeFn costs candles ts (ofLex p).1 pos m).elim s
        (s.closed costs (ofLex p).1 pos m) := by
  unfold exitOne portfolioExit
  simp only [hpos, hm]
  generalize (if (ofLex p).1 ∉ active universeFn candles ts then
    some (saleAtOpen costs m.bar, ExitReason.UNIVERSE_EXIT)
    else exitOf costs pos m.bar (signalFn (ofLex p).1 m.history)) = exit
  cases exit <;> rfl

/-- The first loop does nothing with a bar or closes the position of its symbol. -/
theorem exitOne_cases (h : exitOne signalFn universeFn costs candles ts s p = s') :
    s' = s ∨ ∃ pos m exit, s.positions.lookup (ofLex p).1 = some pos ∧
      moment? (rowsOf candles (ofLex p).1) (ofLex p).2 = some m ∧
      portfolioExit signalFn universeFn costs candles ts (ofLex p).1 pos m = some exit ∧
      s' = s.closed costs (ofLex p).1 pos m exit := by
  cases hpos : s.positions.lookup (ofLex p).1 with
  | none =>
    left
    rw [← h, exitOne]
    simp only [hpos]
  | some pos =>
    cases hm : moment? (rowsOf candles (ofLex p).1) (ofLex p).2 with
    | none =>
      left
      rw [← h, exitOne]
      simp only [hpos, hm]
    | some m =>
      rw [exitOne_eq hpos hm] at h
      cases hexit : portfolioExit signalFn universeFn costs candles ts (ofLex p).1 pos m with
      | none =>
        rw [hexit] at h
        exact .inl h.symm
      | some exit =>
        rw [hexit] at h
        exact .inr ⟨pos, m, exit, rfl, rfl, hexit, h.symm⟩

/-- The second loop does nothing with a bar or opens a position of its symbol. -/
theorem enterOne_cases
    (h : enterOne signalFn universeFn costs maxPositions candles ts s p = .ok s') :
    s' = s ∨ ∃ pos m, (ofLex p).1 ∉ s.positions ∧ (ofLex p).1 ∈ active universeFn candles ts ∧
      (s.positions.entries.length : ℤ) < maxPositions ∧
      moment? (rowsOf candles (ofLex p).1) (ofLex p).2 = some m ∧
      signalFn (ofLex p).1 m.history = .BUY ∧
      enter costs s.account.equity m.prev m.bar = .ok pos ∧
      s' = { s with positions := s.positions.insert (ofLex p).1 pos } := by
  unfold enterOne at h
  simp only at h
  split at h
  · exact .inl (Except.ok.inj h).symm
  rename_i hguard
  rw [not_or, not_or, not_not, not_le] at hguard
  cases hm : moment? (rowsOf candles (ofLex p).1) (ofLex p).2 with
  | none =>
    simp only [hm] at h
    exact .inl (Except.ok.inj h).symm
  | some m =>
    simp only [hm] at h
    by_cases hbuy : signalFn (ofLex p).1 m.history = .BUY
    · simp only [hbuy, ne_eq, not_true_eq_false, if_false] at h
      cases henter : enter costs s.account.equity m.prev m.bar with
      | error e =>
        rw [henter] at h
        cases h
      | ok pos =>
        rw [henter] at h
        exact .inr ⟨pos, m, hguard.1, hguard.2.1, hguard.2.2, rfl, hbuy, henter,
          (Except.ok.inj h).symm⟩
    · simp only [ne_eq, hbuy, not_false_eq_true, if_true] at h
      exact .inl (Except.ok.inj h).symm

end PortfolioCases

end Kripto.Backtest
