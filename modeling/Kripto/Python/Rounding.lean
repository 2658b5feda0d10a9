/-
# Rounding to so many digits

A `float` of the source is a binary64 number, and the result of an arithmetic operation on
`Decimal`s has the digits of the context, 28 if nothing else is said.  Either is the number of this
kind that is nearest to the exact result, and the even one of two that are equally near.  The numbers are
rationals here and their range has no upper end.

* `Precision.round_mono`: rounding keeps the order;
* `Precision.round_intCast`: whole numbers with no more digits are kept;
* `DecimalContext`: what arithmetic on `Decimal`s does to an exact result;
* `Times`: when what lasts so many seconds is over, for `float`s and for `datetime`s.
-/
import Mathlib.Data.Int.Log
import Mathlib.Data.List.Induction
import Mathlib.Data.Rat.Floor
import Mathlib.Tactic.Linarith
import Mathlib.Tactic.Ring

namespace Python

/-! ## 1. To the nearest whole number -/

/-- The nearest whole number, and of two the even one. -/
def roundEven (q : ℚ) : ℤ :=
  if q - ⌊q⌋ < 1 / 2 then ⌊q⌋
  else if 1 / 2 < q - ⌊q⌋ then ⌊q⌋ + 1
  else if Even ⌊q⌋ then ⌊q⌋ else ⌊q⌋ + 1

variable {q q' : ℚ}

@[simp] theorem roundEven_intCast (n : ℤ) : roundEven n = n := by
  simp [roundEven]

theorem floor_le_roundEven (q : ℚ) : ⌊q⌋ ≤ roundEven q := by
  unfold roundEven
  split_ifs <;> omega

theorem roundEven_le_floor_add_one (q : ℚ) : roundEven q ≤ ⌊q⌋ + 1 := by
  unfold roundEven
  split_ifs <;> omega

theorem roundEven_mono (h : q ≤ q') : roundEven q ≤ roundEven q' := by
  rcases (Int.floor_le_floor h).lt_or_eq with hlt | heq
  · calc roundEven q ≤ ⌊q⌋ + 1 := roundEven_le_floor_add_one q
      _ ≤ ⌊q'⌋ := by omega
      _ ≤ roundEven q' := floor_le_roundEven q'
  · -- with one floor, only what is left above it decides
    have hrest : q - ⌊q'⌋ ≤ q' - ⌊q'⌋ := by linarith
    unfold roundEven
    rw [heq]
    split_ifs <;> first | omega | (exfalso; linarith)

theorem roundEven_neg (q : ℚ) : roundEven (-q) = -roundEven q := by
  by_cases hq : q = ⌊q⌋
  · rw [hq, ← Int.cast_neg, roundEven_intCast, roundEven_intCast]
  · have hpos : (⌊q⌋ : ℚ) < q := lt_of_le_of_ne (Int.floor_le q) (Ne.symm hq)
    have hlt : q < ⌊q⌋ + 1 := Int.lt_floor_add_one q
    have hfloor : ⌊-q⌋ = -⌊q⌋ - 1 := by
      rw [Int.floor_eq_iff]
      push_cast
      constructor <;> linarith
    have heven : Even (-⌊q⌋ - 1) ↔ ¬ Even ⌊q⌋ := by
      rw [Int.even_sub_one, even_neg]
    unfold roundEven
    rw [hfloor]
    simp only [heven]
    push_cast
    split_ifs <;> first | omega | (exfalso; linarith)

/-! ## 2. To so many digits -/

/-- So many digits to a base, none of which stands below the place `least`. -/
structure Precision where
  base : ℕ
  digits : ℕ
  least : ℤ
  one_lt : 1 < base
  pos : 0 < digits

namespace Precision

variable (P : Precision)

/-- The place of the last digit of the numbers around `q`. -/
def lastPlace (q : ℚ) : ℤ := max (Int.log P.base |q| + 1 - P.digits) P.least

def round (q : ℚ) : ℚ :=
  roundEven (q / (P.base : ℚ) ^ P.lastPlace q) * (P.base : ℚ) ^ P.lastPlace q

theorem basePow_pos (e : ℤ) : (0 : ℚ) < (P.base : ℚ) ^ e :=
  zpow_pos (Nat.cast_pos.mpr (zero_lt_one.trans P.one_lt)) e

variable {P}

/-- A number with these places is kept. -/
theorem round_of_places {m : ℤ} (h : q = m * (P.base : ℚ) ^ P.lastPlace q) : P.round q = q := by
  have hquot : q / (P.base : ℚ) ^ P.lastPlace q = m := by
    rw [div_eq_iff (P.basePow_pos _).ne']
    exact h
  rw [round, hquot, roundEven_intCast]
  exact h.symm

@[simp] theorem round_zero : P.round 0 = 0 := by
  simp [round, roundEven]

theorem round_neg (q : ℚ) : P.round (-q) = -P.round q := by
  rw [round, round, lastPlace, abs_neg, ← lastPlace, neg_div, roundEven_neg]
  push_cast
  ring

/-- **Whole numbers** with no more digits are kept. -/
theorem round_intCast {n : ℤ} (hleast : P.least ≤ 0) (h : |n| < (P.base : ℤ) ^ P.digits) :
    P.round n = n := by
  rcases eq_or_ne n 0 with rfl | hn
  · simp
  · have hpos : (0 : ℚ) < |(n : ℚ)| := abs_pos.mpr (Int.cast_ne_zero.mpr hn)
    have hlog : Int.log P.base |(n : ℚ)| < P.digits := by
      rw [← Int.lt_zpow_iff_log_lt P.one_lt hpos]
      exact_mod_cast h
    have hplace : P.lastPlace n ≤ 0 := by
      unfold lastPlace
      omega
    obtain ⟨k, hk⟩ := Int.eq_ofNat_of_zero_le (neg_nonneg.mpr hplace)
    refine round_of_places (m := n * P.base ^ k) ?_
    have hbase : (P.base : ℚ) ≠ 0 := Nat.cast_ne_zero.mpr (zero_lt_one.trans P.one_lt).ne'
    have hneg : P.lastPlace n = -(k : ℤ) := by omega
    rw [hneg, zpow_neg, zpow_natCast]
    push_cast
    field_simp

/-- Powers of the base have a digit in every place that is not above them. -/
theorem zpow_div_zpow {e l : ℤ} (h : e ≤ l) :
    ∃ m : ℤ, (P.base : ℚ) ^ l / (P.base : ℚ) ^ e = m := by
  have hbase : (P.base : ℚ) ≠ 0 := Nat.cast_ne_zero.mpr (zero_lt_one.trans P.one_lt).ne'
  obtain ⟨k, hk⟩ := Int.eq_ofNat_of_zero_le (sub_nonneg.mpr h)
  refine ⟨P.base ^ k, ?_⟩
  rw [← zpow_sub₀ hbase, hk]
  push_cast
  rw [zpow_natCast]

theorem roundEven_mul_le {e l : ℤ} (h : e ≤ l) (hq : q ≤ (P.base : ℚ) ^ l) :
    roundEven (q / (P.base : ℚ) ^ e) * (P.base : ℚ) ^ e ≤ (P.base : ℚ) ^ l := by
  obtain ⟨m, hm⟩ := P.zpow_div_zpow h
  have hround : roundEven (q / (P.base : ℚ) ^ e) ≤ m := by
    rw [← roundEven_intCast m, ← hm]
    exact roundEven_mono (div_le_div_of_nonneg_right hq (P.basePow_pos e).le)
  rw [← le_div_iff₀ (P.basePow_pos e), hm]
  exact_mod_cast hround

theorem le_roundEven_mul {e l : ℤ} (h : e ≤ l) (hq : (P.base : ℚ) ^ l ≤ q) :
    (P.base : ℚ) ^ l ≤ roundEven (q / (P.base : ℚ) ^ e) * (P.base : ℚ) ^ e := by
  obtain ⟨m, hm⟩ := P.zpow_div_zpow h
  have hround : m ≤ roundEven (q / (P.base : ℚ) ^ e) := by
    rw [← roundEven_intCast m, ← hm]
    exact roundEven_mono (div_le_div_of_nonneg_right hq (P.basePow_pos e).le)
  rw [← div_le_iff₀ (P.basePow_pos e), hm]
  exact_mod_cast hround

theorem round_nonneg (h : 0 ≤ q) : 0 ≤ P.round q := by
  have hround : 0 ≤ roundEven (q / (P.base : ℚ) ^ P.lastPlace q) := by
    rw [← roundEven_intCast 0, Int.cast_zero]
    exact roundEven_mono (div_nonneg h (P.basePow_pos _).le)
  have hcast : (0 : ℚ) ≤ roundEven (q / (P.base : ℚ) ^ P.lastPlace q) := by exact_mod_cast hround
  exact mul_nonneg hcast (P.basePow_pos _).le

/-- With one last place the order is that of the whole numbers; otherwise a power of the base lies
between. -/
theorem round_mono_of_pos (hq : 0 < q) (h : q ≤ q') : P.round q ≤ P.round q' := by
  have hq' : 0 < q' := hq.trans_le h
  have hlog : Int.log P.base |q| ≤ Int.log P.base |q'| := by
    rw [abs_of_pos hq, abs_of_pos hq']
    exact Int.log_mono_right hq h
  have hplace : P.lastPlace q ≤ P.lastPlace q' := by
    unfold lastPlace
    omega
  rcases hplace.eq_or_lt with heq | hlt
  · unfold round
    rw [heq]
    have hround :=
      roundEven_mono (div_le_div_of_nonneg_right h (P.basePow_pos (P.lastPlace q')).le)
    have hcast : (roundEven (q / (P.base : ℚ) ^ P.lastPlace q') : ℚ) ≤
        roundEven (q' / (P.base : ℚ) ^ P.lastPlace q') := by
      exact_mod_cast hround
    exact mul_le_mul_of_nonneg_right hcast (P.basePow_pos _).le
  · rw [abs_of_pos hq, abs_of_pos hq'] at hlog
    have hdigits := P.pos
    have hbetween : Int.log P.base q + 1 ≤ Int.log P.base q' ∧
        P.lastPlace q' ≤ Int.log P.base q' := by
      unfold lastPlace at hlt ⊢
      rw [abs_of_pos hq, abs_of_pos hq'] at hlt
      rw [abs_of_pos hq']
      omega
    have hbase : (1 : ℚ) ≤ P.base := Nat.one_le_cast.mpr P.one_lt.le
    have hupper : q ≤ (P.base : ℚ) ^ Int.log P.base q' := by
      calc q ≤ (P.base : ℚ) ^ (Int.log P.base q + 1) := (Int.lt_zpow_succ_log_self P.one_lt q).le
        _ ≤ (P.base : ℚ) ^ Int.log P.base q' := zpow_le_zpow_right₀ hbase hbetween.1
    have hlower : (P.base : ℚ) ^ Int.log P.base q' ≤ q' := Int.zpow_log_le_self P.one_lt hq'
    exact (roundEven_mul_le (hlt.le.trans hbetween.2) hupper).trans
      (le_roundEven_mul hbetween.2 hlower)

/-- **Rounding keeps the order.** -/
theorem round_mono : Monotone P.round := by
  intro q q' h
  rcases lt_or_ge 0 q with hq | hq
  · exact round_mono_of_pos hq h
  · have hneg : P.round q ≤ 0 := by
      have := round_nonneg (P := P) (neg_nonneg.mpr hq)
      rw [round_neg] at this
      linarith
    rcases le_or_gt 0 q' with hq' | hq'
    · exact hneg.trans (round_nonneg hq')
    · have := round_mono_of_pos (P := P) (neg_pos.mpr hq') (neg_le_neg h)
      rw [round_neg, round_neg] at this
      linarith

/-- A power of the base above the last place of a number that is not above it. -/
theorem round_zpow {l : ℤ} (h : P.least ≤ l) : P.round ((P.base : ℚ) ^ l) = (P.base : ℚ) ^ l := by
  have hpos := P.basePow_pos l
  have hplace : P.lastPlace ((P.base : ℚ) ^ l) ≤ l := by
    have hdigits := P.pos
    unfold lastPlace
    rw [abs_of_pos hpos, Int.log_zpow P.one_lt]
    omega
  obtain ⟨m, hm⟩ := P.zpow_div_zpow hplace
  exact round_of_places (m := m) ((div_eq_iff (P.basePow_pos _).ne').mp hm)

theorem round_round_of_pos (hq : 0 < q) : P.round (P.round q) = P.round q := by
  -- what is rounded ends where it did, unless it has reached the next power of the base
  set l := max (Int.log P.base q + 1) (P.lastPlace q) with hl
  have hbase : (1 : ℚ) ≤ P.base := Nat.one_le_cast.mpr P.one_lt.le
  have hupper : P.round q ≤ (P.base : ℚ) ^ l := by
    refine roundEven_mul_le (le_max_right _ _) ?_
    calc q ≤ (P.base : ℚ) ^ (Int.log P.base q + 1) := (Int.lt_zpow_succ_log_self P.one_lt q).le
      _ ≤ (P.base : ℚ) ^ l := zpow_le_zpow_right₀ hbase (le_max_left _ _)
  have hplace : P.lastPlace q = max (Int.log P.base q + 1 - P.digits) P.least := by
    rw [lastPlace, abs_of_pos hq]
  rcases hupper.eq_or_lt with heq | hlt
  · rw [heq]
    exact round_zpow (by omega)
  rcases (P.round_nonneg hq.le).eq_or_lt with hzero | hpos
  · rw [← hzero, round_zero]
  have hlog : Int.log P.base (P.round q) < l := (Int.lt_zpow_iff_log_lt P.one_lt hpos).mp hlt
  have hends : P.lastPlace (P.round q) ≤ P.lastPlace q := by
    have hdigits := P.pos
    conv_lhs => rw [lastPlace, abs_of_pos hpos]
    omega
  obtain ⟨m, hm⟩ := P.zpow_div_zpow hends
  refine round_of_places (m := roundEven (q / (P.base : ℚ) ^ P.lastPlace q) * m) ?_
  rw [Int.cast_mul, mul_assoc, ← hm, div_mul_cancel₀ _ (P.basePow_pos _).ne']
  rfl

/-- **What is rounded stays as it is.** -/
theorem round_round (q : ℚ) : P.round (P.round q) = P.round q := by
  rcases lt_trichotomy 0 q with hq | rfl | hq
  · exact round_round_of_pos hq
  · simp
  · have hneg := round_round_of_pos (P := P) (neg_pos.mpr hq)
    rwa [round_neg, round_neg, neg_inj] at hneg

end Precision

/-! ## 3. `float` -/

def double : Precision := ⟨2, 53, -1074, by decide, by decide⟩

/-- To the nearest binary64 number. -/
def binary64 : ℚ → ℚ := double.round

@[simp] theorem binary64_zero : binary64 0 = 0 := Precision.round_zero

theorem binary64_mono (h : q ≤ q') : binary64 q ≤ binary64 q' := Precision.round_mono h

/-- Whole numbers below `2 ^ 53` are kept. -/
theorem binary64_intCast {n : ℤ} (h : |n| < 2 ^ 53) : binary64 n = n :=
  Precision.round_intCast (by decide) h

/-- `timedelta.total_seconds()` of so many microseconds. -/
def totalSeconds (micros : ℤ) : ℚ := binary64 (micros / 1000000)

theorem totalSeconds_mono {micros micros' : ℤ} (h : micros ≤ micros') :
    totalSeconds micros ≤ totalSeconds micros' := by
  have hcast : (micros : ℚ) ≤ micros' := by exact_mod_cast h
  exact binary64_mono (by linarith)

/-- Whole seconds are exact. -/
theorem totalSeconds_of_seconds {n : ℤ} (h : |n| < 2 ^ 53) : totalSeconds (n * 1000000) = n := by
  have hquot : ((n * 1000000 : ℤ) : ℚ) / 1000000 = n := by
    push_cast
    field_simp
  rw [totalSeconds, hquot, binary64_intCast h]

/-! ## 4. `int(x)` -/

/-- `int(x)` of a number: what is left without its fraction. -/
def toInt (q : ℚ) : ℤ := if 0 ≤ q then ⌊q⌋ else ⌈q⌉

@[simp] theorem toInt_intCast (n : ℤ) : toInt n = n := by
  simp [toInt]

theorem toInt_mono (h : q ≤ q') : toInt q ≤ toInt q' := by
  unfold toInt
  split_ifs with hq hq' hq'
  · exact Int.floor_le_floor h
  · exact absurd (hq.trans h) hq'
  · calc ⌈q⌉ ≤ 0 := Int.ceil_le.mpr (by push_cast; linarith)
      _ ≤ ⌊q'⌋ := Int.floor_nonneg.mpr hq'
  · exact Int.ceil_le_ceil h

/-! ## 5. `Decimal` -/

/-- What the context of `decimal` makes of the exact result of an operation. -/
class DecimalContext where
  fix : ℚ → ℚ
  fix_mono : Monotone fix
  fix_neg : ∀ q, fix (-q) = -fix q
  fix_fix : ∀ q, fix (fix q) = fix q

/-- Nothing, where `Decimal`s are taken as exact. -/
abbrev exactDecimals : DecimalContext := ⟨id, monotone_id, fun _ => rfl, fun _ => rfl⟩

def decimal28 : Precision := ⟨10, 28, -1000026, by decide, by decide⟩

/-- The context that is there if no other is set. -/
abbrev defaultContext : DecimalContext :=
  ⟨decimal28.round, Precision.round_mono, Precision.round_neg, Precision.round_round⟩

namespace DecimalContext

variable [DecimalContext]

@[simp] theorem fix_zero : fix 0 = 0 := by
  have hneg := fix_neg 0
  rw [neg_zero] at hneg
  linarith

theorem fix_nonneg (h : 0 ≤ q) : 0 ≤ fix q := fix_zero.symm.trans_le (fix_mono h)

theorem fix_nonpos (h : q ≤ 0) : fix q ≤ 0 := (fix_mono h).trans_eq fix_zero

/-- Nothing is rounded. -/
def Exact : Prop := ∀ q, fix q = q

/-- `sum(..)` of `Decimal`s. -/
def sum (values : List ℚ) : ℚ := values.foldl (fun total value => fix (total + value)) 0

theorem sum_concat (values : List ℚ) (value : ℚ) :
    sum (values ++ [value]) = fix (sum values + value) := List.foldl_append

theorem fix_sum (values : List ℚ) : fix (sum values) = sum values := by
  rcases List.eq_nil_or_concat values with rfl | ⟨values, value, rfl⟩
  · exact fix_zero
  · rw [List.concat_eq_append, sum_concat, fix_fix]

/-- **Less to add is less**, of what is not negative. -/
theorem sum_sublist {part values : List ℚ} (h : part.Sublist values)
    (hnonneg : ∀ value ∈ values, 0 ≤ value) : sum part ≤ sum values := by
  induction values using List.reverseRecOn generalizing part with
  | nil => rw [List.sublist_nil.mp h]
  | append_singleton values value ih =>
    have hvalues : ∀ value ∈ values, 0 ≤ value := fun value hmem =>
      hnonneg value (List.mem_append_left _ hmem)
    have hvalue : 0 ≤ value := hnonneg value (by simp)
    obtain ⟨part, last, rfl, hpart, hlast⟩ := List.sublist_append_iff.mp h
    have hle := ih hpart hvalues
    rw [sum_concat]
    rcases List.sublist_singleton.mp hlast with rfl | rfl
    · calc sum (part ++ []) = fix (sum part) := by rw [List.append_nil, fix_sum]
        _ ≤ fix (sum values + value) := fix_mono (by linarith)
    · rw [sum_concat]
      exact fix_mono (by linarith)

end DecimalContext

/-! ## 6. What lasts so many seconds -/

/-- When what lasts so many seconds from a time on is over. -/
class Times (τ : Type) where
  later : τ → ℚ → τ

/-- `now + ttl` of two `float`s. -/
abbrev floatTimes : Times ℚ := ⟨fun now ttl => binary64 (now + ttl)⟩

/-- `timedelta(seconds=ttl)`, in microseconds; the seconds' fraction is multiplied as a `float`. -/
def timedelta (seconds : ℚ) : ℤ :=
  roundEven (toInt seconds * 1000000 + binary64 ((seconds - toInt seconds) * 1000000))

/-- `now + timedelta(seconds=ttl)` of a `datetime`, which is a number of microseconds. -/
instance datetimes : Times ℤ := ⟨fun now ttl => now + timedelta ttl⟩

end Python
