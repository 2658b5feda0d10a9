/-
# Splits in time

`backtest/validation.py`: windows that walk forward, and a training set from which what is next to
the test range is left out.  `research/time_validation.py`: training, validation and test windows
with gaps between them, windows that walk forward to a holdout, and the combinatorial splits, in
which every choice of test groups comes once.  A `range`, or a tuple of one, is the list of its
numbers.

* `mem_train_iff`: what is left for training;
* `separated_of_accepted`: a purged split has its gaps, and its check for leakage never raises;
* `combinatorial_cpcvSplits`: each choice of test groups, and the groups left for training;
* `splits_do_not_leak`: these, and the split of `backtest/validation.py`.

`nested_walk_forward` and `walk_forward_splits` check none of their arguments, as the splits next to
them do.  A loop that does not move on never ends, and a window of a negative length reaches out of
the data.

* `walk_forward_iff`: the arguments for which both end, and keep to the data;
* `nested_never_returns`: a walk that does not end.
-/
import Kripto.Python.Range
import Mathlib.Algebra.Order.Group.Abs

namespace Kripto.Backtest.Validation

open Python

/-! ## 1. `backtest/validation.py` -/

def walkForwardSplits (fuel : ℕ) (n train test : ℤ) : Option (List (List ℤ × List ℤ)) :=
  (advance (fun start => start + train + test ≤ n) test fuel 0).map fun starts =>
    starts.map fun start =>
      (Int.range start (start + train), Int.range (start + train) (start + train + test))

/-- The set of the test range, sorted, is the range. -/
def purgedEmbargoSplit (n testStart testEnd : ℤ) (purge : ℤ := 1) (embargo : ℤ := 1) :
    List ℤ × List ℤ :=
  let test := Int.range testStart testEnd
  let train := (Int.range 0 n).filter fun i =>
    i ∉ test ∧ ¬ (testStart - purge ≤ i ∧ i < testStart) ∧ ¬ (testEnd ≤ i ∧ i < testEnd + embargo)
  (train, test)

/-! ## 2. What is left for training -/

/-- **Nothing of the test range, of the purge zone or of the embargo zone.** -/
theorem mem_train_iff {n testStart testEnd purge embargo i : ℤ} :
    i ∈ (purgedEmbargoSplit n testStart testEnd purge embargo).1 ↔
      (0 ≤ i ∧ i < n) ∧ ¬ (testStart ≤ i ∧ i < testEnd) ∧
        ¬ (testStart - purge ≤ i ∧ i < testStart) ∧ ¬ (testEnd ≤ i ∧ i < testEnd + embargo) := by
  rw [purgedEmbargoSplit, List.mem_filter, Int.mem_range_iff, decide_eq_true_eq, Int.mem_range_iff]

theorem mem_test_iff {n testStart testEnd purge embargo i : ℤ} :
    i ∈ (purgedEmbargoSplit n testStart testEnd purge embargo).2 ↔ testStart ≤ i ∧ i < testEnd :=
  Int.mem_range_iff

/-! ## 3. The walk -/

/-- **The walk ends** if it does not begin, or has a test window to move on by. -/
theorem walkForwardSplits_forall_iff {n train test : ℤ} {Q : List ℤ × List ℤ → Prop} :
    (∃ fuel splits, walkForwardSplits fuel n train test = some splits ∧ ∀ s ∈ splits, Q s) ↔
      n < train + test ∨ 0 < test ∧ ∀ k : ℕ, k * test + train + test ≤ n →
        Q (Int.range (k * test) (k * test + train),
          Int.range (k * test + train) (k * test + train + test)) := by
  have hcond : ∀ start, start + train + test ≤ n ↔ start ≤ n - train - test := fun start => by omega
  have hbegins : n - train - test < 0 ↔ n < train + test := by omega
  have hle : ∀ k : ℕ, (k : ℤ) * test ≤ n - train - test ↔ k * test + train + test ≤ n := fun k => by
    omega
  refine (exists_map_advance_forall_iff _ hcond).trans ?_
  simp only [zero_add, hbegins, hle]

end Kripto.Backtest.Validation

namespace Kripto.Research.TimeValidation

open Python

/-! ## 4. `research/time_validation.py` -/

structure Split where
  train : List ℤ
  validation : List ℤ
  test : List ℤ := []
  deriving DecidableEq

inductive Exc
  | valueError (msg : String)
  | assertionError (msg : String)
  deriving DecidableEq

def purgedEmbargoSplit (n trainEnd validationStart validationEnd : ℤ) (purge : ℤ := 0)
    (embargo : ℤ := 0) : Except Exc Split :=
  if ¬ (0 < trainEnd ∧ trainEnd ≤ validationStart ∧ validationStart < validationEnd ∧
      validationEnd ≤ n) then
    .error (.valueError "invalid temporal boundaries")
  else
    let train := Int.range 0 (max 0 (trainEnd - purge))
    let validation := Int.range (min n (validationStart + purge)) validationEnd
    let test := Int.range (min n (validationEnd + embargo)) n
    if (∃ i ∈ train, i ∈ validation) ∨ ∃ i ∈ validation, i ∈ test then
      .error (.assertionError "split leakage")
    else .ok { train, validation, test }

def nestedWalkForward (fuel : ℕ) (n initialTrain validation step finalHoldout : ℤ) :
    Option (List Split) :=
  let holdoutStart := n - finalHoldout
  (advance (fun finish => finish + validation ≤ holdoutStart) step fuel initialTrain).map
    fun ends => ends.map fun finish =>
      { train := Int.range 0 finish, validation := Int.range finish (finish + validation) }

/-- The test groups and what is next to them. -/
def blocked (nGroups embargoGroups : ℤ) (test : List ℤ) : List ℤ :=
  test ++ test.flatMap fun g =>
    Int.range (max 0 (g - embargoGroups)) (min nGroups (g + embargoGroups + 1))

def cpcvSplits (nGroups testGroups : ℤ) (embargoGroups : ℤ := 0) : Except Exc (List Split) :=
  if ¬ (1 ≤ testGroups ∧ testGroups < nGroups) then
    .error (.valueError "invalid CPCV dimensions")
  else
    let groups := Int.range 0 nGroups
    .ok ((combinations groups testGroups.toNat).map fun test =>
      { train := groups.filter (· ∉ blocked nGroups embargoGroups test), validation := [], test })

/-! ## 5. A purged split -/

/-- **The windows and their gaps.** -/
structure Separated (n trainEnd validationStart validationEnd purge embargo : ℤ) (s : Split) :
    Prop where
  train : ∀ i, i ∈ s.train ↔ 0 ≤ i ∧ i + purge < trainEnd
  validation : ∀ i, i ∈ s.validation ↔ validationStart + purge ≤ i ∧ i < validationEnd
  test : ∀ i, i ∈ s.test ↔ validationEnd + embargo ≤ i ∧ i < n
  purged : ∀ i, trainEnd - purge ≤ i → i < trainEnd → i ∉ s.train
  embargoed : ∀ i ∈ s.validation, ∀ j ∈ s.test, i + embargo < j
  disjoint : ∀ i, ¬ (i ∈ s.train ∧ i ∈ s.validation) ∧ ¬ (i ∈ s.validation ∧ i ∈ s.test)

theorem separated_of_accepted {n trainEnd validationStart validationEnd purge embargo : ℤ}
    (hpurge : 0 ≤ purge) (hembargo : 0 ≤ embargo)
    (h : 0 < trainEnd ∧ trainEnd ≤ validationStart ∧ validationStart < validationEnd ∧
      validationEnd ≤ n) :
    ∃ s, purgedEmbargoSplit n trainEnd validationStart validationEnd purge embargo = .ok s ∧
      Separated n trainEnd validationStart validationEnd purge embargo s := by
  have htrain : ∀ i, i ∈ Int.range 0 (max 0 (trainEnd - purge)) ↔ 0 ≤ i ∧ i + purge < trainEnd := by
    intro i
    rw [Int.mem_range_iff]
    omega
  have hvalidation : ∀ i, i ∈ Int.range (min n (validationStart + purge)) validationEnd ↔
      validationStart + purge ≤ i ∧ i < validationEnd := by
    intro i
    rw [Int.mem_range_iff]
    omega
  have htest : ∀ i, i ∈ Int.range (min n (validationEnd + embargo)) n ↔
      validationEnd + embargo ≤ i ∧ i < n := by
    intro i
    rw [Int.mem_range_iff]
    omega
  have hleak : ¬ ((∃ i ∈ Int.range 0 (max 0 (trainEnd - purge)),
        i ∈ Int.range (min n (validationStart + purge)) validationEnd) ∨
      ∃ i ∈ Int.range (min n (validationStart + purge)) validationEnd,
        i ∈ Int.range (min n (validationEnd + embargo)) n) := by
    rintro (⟨i, hi, hi'⟩ | ⟨i, hi, hi'⟩)
    · rw [htrain] at hi
      rw [hvalidation] at hi'
      omega
    · rw [hvalidation] at hi
      rw [htest] at hi'
      omega
  refine ⟨_, by rw [purgedEmbargoSplit, if_neg (not_not.mpr h)]; exact if_neg hleak,
    htrain, hvalidation, htest, ?_, ?_, ?_⟩
  · intro i hi _ hmem
    rw [htrain] at hmem
    omega
  · intro i hi j hj
    rw [hvalidation] at hi
    rw [htest] at hj
    omega
  · exact fun i => ⟨fun hi => hleak (.inl ⟨i, hi⟩), fun hi => hleak (.inr ⟨i, hi⟩)⟩

/-! ## 6. Combinatorial splits -/

/-- **Each choice of test groups once**, and for training what is far enough from all of them. -/
structure Combinatorial (nGroups testGroups embargoGroups : ℤ) (splits : List Split) : Prop where
  once : (splits.map fun s => s.test.toFinset).Nodup
  every : ∀ g : Finset ℤ, g ∈ splits.map (fun s => s.test.toFinset) ↔
    (∀ i ∈ g, 0 ≤ i ∧ i < nGroups) ∧ (g.card : ℤ) = testGroups
  train : ∀ s ∈ splits, ∀ i, i ∈ s.train ↔
    (0 ≤ i ∧ i < nGroups) ∧ ∀ t ∈ s.test, i ≠ t ∧ embargoGroups < |i - t|

theorem mem_blocked_iff {nGroups embargoGroups i : ℤ} {test : List ℤ} (hi : 0 ≤ i ∧ i < nGroups) :
    i ∈ blocked nGroups embargoGroups test ↔ ∃ t ∈ test, i = t ∨ |i - t| ≤ embargoGroups := by
  rw [blocked, List.mem_append, List.mem_flatMap]
  constructor
  · rintro (ht | ⟨t, ht, hnear⟩)
    · exact ⟨i, ht, .inl rfl⟩
    · rw [Int.mem_range_iff] at hnear
      refine ⟨t, ht, .inr ?_⟩
      rw [abs_le]
      omega
  · rintro ⟨t, ht, rfl | hnear⟩
    · exact .inl ht
    · refine .inr ⟨t, ht, ?_⟩
      rw [Int.mem_range_iff]
      rw [abs_le] at hnear
      omega

theorem nodup_range (m n : ℤ) : (Int.range m n).Nodup :=
  List.nodup_range.map fun _ _ h => by simpa using h

theorem combinatorial_cpcvSplits {nGroups testGroups embargoGroups : ℤ}
    (h : 1 ≤ testGroups ∧ testGroups < nGroups) :
    ∃ splits, cpcvSplits nGroups testGroups embargoGroups = .ok splits ∧
      Combinatorial nGroups testGroups embargoGroups splits := by
  refine ⟨_, by rw [cpcvSplits, if_neg (not_not.mpr h)], ?_, ?_, ?_⟩
  · rw [List.map_map]
    exact (combinations_toFinset (nodup_range 0 nGroups) _).1
  · intro g
    rw [List.map_map]
    refine ((combinations_toFinset (nodup_range 0 nGroups) testGroups.toNat).2 g).trans ?_
    refine and_congr ?_ ?_
    · refine forall_congr' fun i => imp_congr_right fun _ => ?_
      rw [List.mem_toFinset, Int.mem_range_iff]
    · omega
  · intro s hs i
    obtain ⟨test, -, rfl⟩ := List.mem_map.mp hs
    rw [List.mem_filter, Int.mem_range_iff, decide_eq_true_eq]
    refine and_congr_right fun hi => ?_
    rw [mem_blocked_iff hi, not_exists]
    refine forall_congr' fun t => ?_
    rw [not_and, not_or, not_le]

/-! ## 7. No leakage -/

/-- What is left for training is outside the test range and both zones next to it. -/
structure Outside (n testStart testEnd purge embargo : ℤ) (split : List ℤ × List ℤ) : Prop where
  test : ∀ i, i ∈ split.2 ↔ testStart ≤ i ∧ i < testEnd
  disjoint : ∀ i ∈ split.1, (0 ≤ i ∧ i < n) ∧ i ∉ split.2
  purged : ∀ i ∈ split.1, ¬ (testStart - purge ≤ i ∧ i < testStart)
  embargoed : ∀ i ∈ split.1, ¬ (testEnd ≤ i ∧ i < testEnd + embargo)

/-- **Validation splits do not leak.** -/
theorem splits_do_not_leak :
    (∀ n trainEnd validationStart validationEnd purge embargo : ℤ, 0 ≤ purge → 0 ≤ embargo →
        0 < trainEnd ∧ trainEnd ≤ validationStart ∧ validationStart < validationEnd ∧
          validationEnd ≤ n →
        ∃ s, purgedEmbargoSplit n trainEnd validationStart validationEnd purge embargo = .ok s ∧
          Separated n trainEnd validationStart validationEnd purge embargo s) ∧
      (∀ nGroups testGroups embargoGroups : ℤ, 1 ≤ testGroups ∧ testGroups < nGroups →
        ∃ splits, cpcvSplits nGroups testGroups embargoGroups = .ok splits ∧
          Combinatorial nGroups testGroups embargoGroups splits) ∧
      ∀ n testStart testEnd purge embargo : ℤ, Outside n testStart testEnd purge embargo
        (Backtest.Validation.purgedEmbargoSplit n testStart testEnd purge embargo) := by
  refine ⟨fun _ _ _ _ _ _ => separated_of_accepted, fun _ _ _ => combinatorial_cpcvSplits, ?_⟩
  intro n testStart testEnd purge embargo
  refine ⟨fun i => Backtest.Validation.mem_test_iff, fun i hi => ?_, fun i hi => ?_, fun i hi => ?_⟩
  · rw [Backtest.Validation.mem_train_iff] at hi
    rw [Backtest.Validation.mem_test_iff]
    exact ⟨hi.1, hi.2.1⟩
  · exact (Backtest.Validation.mem_train_iff.mp hi).2.2.1
  · exact (Backtest.Validation.mem_train_iff.mp hi).2.2.2

/-- Six groups, of which two are tested. -/
example : ((cpcvSplits 6 2 1).toOption.map fun splits => (splits.length, splits.head?)) =
    some (15, some { train := [3, 4, 5], validation := [], test := [0, 1] }) := by
  decide

end Kripto.Research.TimeValidation

namespace Kripto.Research.WalkForward

open Python TimeValidation Backtest.Validation

/-! ## 8. What a walk should be -/

/-- A training window and the window that it ends at, in the data. -/
structure InData (n : ℤ) (train next : List ℤ) : Prop where
  trained : ∀ i ∈ train, 0 ≤ i ∧ i < n
  reached : ∀ i ∈ next, 0 ≤ i ∧ i < n
  follows : ∃ first boundary last, train = Int.range first boundary ∧ next = Int.range boundary last

/-- **The walk ends and keeps to the data.** -/
def Walks (n train test : ℤ) : Prop :=
  ∃ fuel splits, walkForwardSplits fuel n train test = some splits ∧
    ∀ s ∈ splits, InData n s.1 s.2

/-- **The nested walk ends and keeps to the data** before the holdout. -/
def NestedWalks (n initialTrain validation step finalHoldout : ℤ) : Prop :=
  ∃ fuel splits, nestedWalkForward fuel n initialTrain validation step finalHoldout = some splits ∧
    ∀ s ∈ splits, InData n s.train s.validation ∧
      ∀ i ∈ s.train ++ s.validation ++ s.test, ¬ (n - finalHoldout ≤ i ∧ i < n)

/-! ## 9. The walk -/

theorem walks_iff {n train test : ℤ} :
    Walks n train test ↔ n < train + test ∨ 0 < test ∧ 0 ≤ train := by
  rw [Walks, walkForwardSplits_forall_iff]
  refine or_congr_right' fun hbegins => and_congr_right fun htest => ?_
  constructor
  · intro h
    have hfirst := (h 0 (by omega)).reached train (by rw [Int.mem_range_iff]; omega)
    exact hfirst.1
  · intro htrain k hk
    have hstart : 0 ≤ (k : ℤ) * test := Int.mul_nonneg (by omega) htest.le
    refine ⟨fun i hi => ?_, fun i hi => ?_, _, _, _, rfl, rfl⟩
    all_goals
      rw [Int.mem_range_iff] at hi
      omega

/-! ## 10. The nested walk -/

section Nested

variable {n initialTrain validation step finalHoldout : ℤ}

theorem nestedWalkForward_forall_iff {Q : Split → Prop} :
    (∃ fuel splits,
        nestedWalkForward fuel n initialTrain validation step finalHoldout = some splits ∧
          ∀ s ∈ splits, Q s) ↔
      n - finalHoldout < initialTrain + validation ∨ 0 < step ∧ ∀ k : ℕ,
        initialTrain + k * step + validation ≤ n - finalHoldout →
          Q { train := Int.range 0 (initialTrain + k * step)
              validation := Int.range (initialTrain + k * step)
                (initialTrain + k * step + validation) } := by
  have hcond : ∀ finish, finish + validation ≤ n - finalHoldout ↔
      finish ≤ n - finalHoldout - validation := fun finish => by omega
  have hbegins : n - finalHoldout - validation < initialTrain ↔
      n - finalHoldout < initialTrain + validation := by omega
  refine (exists_map_advance_forall_iff _ hcond).trans ?_
  simp only [hbegins, hcond]

/-- What a fold that ends its training at `finish` needs. -/
def Fits (n validation finalHoldout finish : ℤ) : Prop :=
  (0 < validation → 0 ≤ finish ∧ finish + validation ≤ n) ∧
    (validation ≤ 0 → 0 < finish → finish ≤ n ∧ finish ≤ n - finalHoldout)

/-- **A fold keeps to the data** before the holdout. -/
theorem fits_iff {finish : ℤ} (hfinish : finish + validation ≤ n - finalHoldout) :
    (InData n (Int.range 0 finish) (Int.range finish (finish + validation)) ∧
      ∀ i ∈ Int.range 0 finish ++ Int.range finish (finish + validation) ++ [],
        ¬ (n - finalHoldout ≤ i ∧ i < n)) ↔ Fits n validation finalHoldout finish := by
  simp only [List.append_nil, List.mem_append, Int.mem_range_iff]
  constructor
  · rintro ⟨hdata, hholdout⟩
    refine ⟨fun hvalidation => ?_, fun hvalidation hpos => ?_⟩
    · have hfirst := hdata.reached finish (by rw [Int.mem_range_iff]; omega)
      have hlast := hdata.reached (finish + validation - 1) (by rw [Int.mem_range_iff]; omega)
      omega
    · have hlast := hdata.trained (finish - 1) (by rw [Int.mem_range_iff]; omega)
      have hbefore := hholdout (finish - 1) (by omega)
      omega
  · rintro ⟨hlong, hshort⟩
    refine ⟨⟨fun i hi => ?_, fun i hi => ?_, _, _, _, rfl, rfl⟩, fun i hi => ?_⟩
    · rw [Int.mem_range_iff] at hi
      omega
    · rw [Int.mem_range_iff] at hi
      omega
    · omega

/-- Where the last fold ends its training. -/
def lastEnd (n initialTrain validation step finalHoldout : ℤ) : ℤ :=
  initialTrain + (n - finalHoldout - validation - initialTrain) / step * step

/-- All folds fit if the first and the last do. -/
theorem forall_fits_iff (hstep : 0 < step)
    (hbegins : ¬ n - finalHoldout < initialTrain + validation) :
    (∀ k : ℕ, initialTrain + k * step + validation ≤ n - finalHoldout →
        Fits n validation finalHoldout (initialTrain + k * step)) ↔
      (0 < validation → 0 ≤ initialTrain) ∧
        Fits n validation finalHoldout
          (lastEnd n initialTrain validation step finalHoldout) := by
  have hroom : 0 ≤ n - finalHoldout - validation - initialTrain := by omega
  have hturns : 0 ≤ (n - finalHoldout - validation - initialTrain) / step :=
    Int.ediv_nonneg hroom hstep.le
  have hlast : lastEnd n initialTrain validation step finalHoldout + validation ≤
      n - finalHoldout := by
    have hle := Int.ediv_mul_le (n - finalHoldout - validation - initialTrain) hstep.ne'
    rw [lastEnd]
    omega
  have hreach : lastEnd n initialTrain validation step finalHoldout = initialTrain +
      ((n - finalHoldout - validation - initialTrain) / step).toNat * step := by
    rw [lastEnd, Int.toNat_of_nonneg hturns]
  have hbefore : ∀ k : ℕ, initialTrain + k * step + validation ≤ n - finalHoldout →
      initialTrain ≤ initialTrain + k * step ∧
        initialTrain + k * step ≤ lastEnd n initialTrain validation step finalHoldout := by
    intro k hk
    have hstart : 0 ≤ (k : ℤ) * step := Int.mul_nonneg (by omega) hstep.le
    have hturn : (k : ℤ) ≤ (n - finalHoldout - validation - initialTrain) / step :=
      (Int.le_ediv_iff_mul_le hstep).mpr (by omega)
    have hmono := Int.mul_le_mul_of_nonneg_right hturn hstep.le
    rw [lastEnd]
    omega
  constructor
  · intro h
    refine ⟨fun hvalidation => ?_, hreach ▸ h _ (hreach ▸ hlast)⟩
    have hfirst := h 0 (by simpa using not_lt.mp hbegins)
    simpa using (hfirst.1 hvalidation).1
  · rintro ⟨hfirst, hlong, hshort⟩ k hk
    obtain ⟨hafter, hupto⟩ := hbefore k hk
    exact ⟨fun hvalidation => by have := hlong hvalidation; have := hfirst hvalidation; omega,
      fun hvalidation hpos => by have := hshort hvalidation (by omega); omega⟩

theorem nestedWalks_iff : NestedWalks n initialTrain validation step finalHoldout ↔
    n - finalHoldout < initialTrain + validation ∨ 0 < step ∧
      (0 < validation → 0 ≤ initialTrain) ∧
        Fits n validation finalHoldout
          (lastEnd n initialTrain validation step finalHoldout) := by
  rw [NestedWalks, nestedWalkForward_forall_iff]
  refine or_congr_right' fun hbegins => and_congr_right fun hstep => ?_
  rw [← forall_fits_iff hstep hbegins]
  exact forall_congr' fun k => forall_congr' fun hk => fits_iff hk

end Nested

/-! ## 11. Both -/

/-- **The walks end and keep to the data** for exactly these arguments. -/
theorem walk_forward_iff (n train test initialTrain validation step finalHoldout : ℤ) :
    (Walks n train test ↔ n < train + test ∨ 0 < test ∧ 0 ≤ train) ∧
      (NestedWalks n initialTrain validation step finalHoldout ↔
        n - finalHoldout < initialTrain + validation ∨ 0 < step ∧
          (0 < validation → 0 ≤ initialTrain) ∧
            Fits n validation finalHoldout
              (lastEnd n initialTrain validation step finalHoldout)) :=
  ⟨walks_iff, nestedWalks_iff⟩

/-- A step of zero adds the same fold for ever. -/
theorem nested_never_returns :
    ¬ ∃ fuel splits, nestedWalkForward fuel 120 40 10 0 20 = some splits := by
  rintro ⟨fuel, splits, h⟩
  rcases (nestedWalkForward_forall_iff (Q := fun _ => True)).mp
    ⟨fuel, splits, h, fun _ _ => trivial⟩ with hbegins | ⟨hstep, -⟩
  · omega
  · exact absurd hstep (lt_irrefl 0)

end Kripto.Research.WalkForward
