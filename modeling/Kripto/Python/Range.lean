/-
# `combinations`, and loops that advance

`itertools.combinations` gives the sublists of one length, in the order of their positions.  A loop
`while cond(pos): ...; pos += step` takes a position after the other; the fuel counts its turns.

* `combinations_toFinset`: of a list without repetitions, each subset of that size is given once;
* `mem_advance_iff`, `exists_advance_iff`: what the loop takes, and when it ends;
* `exists_advance_forall_iff`: both, of a loop up to a limit.
-/
import Mathlib.Data.Finset.Card
import Mathlib.Data.Int.Range
import Mathlib.Data.List.Sublists
import Mathlib.Tactic.Ring

namespace Python

/-! ## 1. `itertools.combinations` -/

section Combinations

variable {α : Type}

def combinations : List α → ℕ → List (List α)
  | _, 0 => [[]]
  | [], _ + 1 => []
  | x :: xs, k + 1 => (combinations xs k).map (x :: ·) ++ combinations xs (k + 1)

theorem combinations_perm (xs : List α) (k : ℕ) : (combinations xs k).Perm (xs.sublistsLen k) := by
  induction xs generalizing k with
  | nil =>
    cases k with
    | zero => rw [combinations, List.sublistsLen_zero]
    | succ k => rw [combinations, List.sublistsLen_succ_nil]
  | cons x xs ih =>
    cases k with
    | zero => rw [combinations, List.sublistsLen_zero]
    | succ k =>
      rw [combinations, List.sublistsLen_succ_cons]
      exact ((ih k).map _ |>.append (ih (k + 1))).trans List.perm_append_comm

theorem mem_combinations_iff {xs s : List α} {k : ℕ} :
    s ∈ combinations xs k ↔ s.Sublist xs ∧ s.length = k := by
  rw [(combinations_perm xs k).mem_iff, List.mem_sublistsLen]

variable [DecidableEq α]

/-- A sublist of a list without repetitions is known from its members. -/
theorem filter_mem_of_sublist {s xs : List α} (h : s.Sublist xs) (hxs : xs.Nodup) :
    xs.filter (· ∈ s) = s := by
  induction h with
  | slnil => rfl
  | @cons s xs x h ih =>
    obtain ⟨hx, hxs⟩ := List.nodup_cons.mp hxs
    rw [List.filter_cons_of_neg (by simpa using fun hs => hx (h.subset hs)), ih hxs]
  | @cons_cons s xs x h ih =>
    obtain ⟨hx, hxs⟩ := List.nodup_cons.mp hxs
    have hrest : xs.filter (· ∈ x :: s) = xs.filter (· ∈ s) := by
      refine List.filter_congr fun y hy => ?_
      have hne : y ≠ x := fun heq => hx (heq ▸ hy)
      simp [hne]
    rw [List.filter_cons_of_pos (by simp), hrest, ih hxs]

/-- **Each subset of the size is given once.** -/
theorem combinations_toFinset {xs : List α} (hxs : xs.Nodup) (k : ℕ) :
    ((combinations xs k).map List.toFinset).Nodup ∧
      ∀ g : Finset α, g ∈ (combinations xs k).map List.toFinset ↔ g ⊆ xs.toFinset ∧ g.card = k := by
  constructor
  · refine List.Nodup.map_on (fun s hs t ht heq => ?_)
      ((combinations_perm xs k).nodup_iff.mpr (List.nodup_sublistsLen k hxs))
    rw [← filter_mem_of_sublist (mem_combinations_iff.mp hs).1 hxs,
      ← filter_mem_of_sublist (mem_combinations_iff.mp ht).1 hxs]
    refine List.filter_congr fun x _ => decide_eq_decide.mpr ?_
    rw [← List.mem_toFinset, heq, List.mem_toFinset]
  · intro g
    rw [List.mem_map]
    constructor
    · rintro ⟨s, hs, rfl⟩
      obtain ⟨hsub, hlength⟩ := mem_combinations_iff.mp hs
      refine ⟨fun x hx => ?_, ?_⟩
      · exact List.mem_toFinset.mpr (hsub.subset (List.mem_toFinset.mp hx))
      · rw [List.toFinset_card_of_nodup (hsub.nodup hxs), hlength]
    · rintro ⟨hsub, hcard⟩
      have hg : (xs.filter (· ∈ g)).toFinset = g := by
        ext x
        rw [List.mem_toFinset, List.mem_filter, decide_eq_true_eq]
        exact ⟨And.right, fun hx => ⟨List.mem_toFinset.mp (hsub hx), hx⟩⟩
      refine ⟨xs.filter (· ∈ g), mem_combinations_iff.mpr ⟨List.filter_sublist, ?_⟩, hg⟩
      rw [← List.toFinset_card_of_nodup (hxs.filter _), hg, hcard]

end Combinations

/-! ## 2. Loops that advance -/

section Advance

variable (cond : ℤ → Prop) [DecidablePred cond] (step : ℤ)

/-- The positions that the loop takes, if it ends within so many turns. -/
def advance : ℕ → ℤ → Option (List ℤ)
  | 0, _ => none
  | fuel + 1, pos =>
    if cond pos then (advance fuel (pos + step)).map (pos :: ·) else some []

variable {cond step} {fuel : ℕ} {pos : ℤ} {ps : List ℤ}

/-- **What the loop takes**: all positions up to the first that it does not. -/
theorem mem_advance_iff (h : advance cond step fuel pos = some ps) {p : ℤ} :
    p ∈ ps ↔ ∃ k : ℕ, p = pos + k * step ∧ ∀ j : ℕ, j ≤ k → cond (pos + j * step) := by
  induction fuel generalizing pos ps with
  | zero => exact nomatch h
  | succ fuel ih =>
    rw [advance] at h
    split_ifs at h with hcond
    · obtain ⟨rest, hrest, rfl⟩ := Option.map_eq_some_iff.mp h
      have hshift : ∀ k : ℕ, pos + step + k * step = pos + ((k + 1 : ℕ) : ℤ) * step := fun k => by
        push_cast
        ring
      rw [List.mem_cons, ih hrest]
      constructor
      · rintro (rfl | ⟨k, rfl, hall⟩)
        · refine ⟨0, by simp, fun j hj => ?_⟩
          obtain rfl : j = 0 := by omega
          simpa using hcond
        · refine ⟨k + 1, hshift k, fun j hj => ?_⟩
          cases j with
          | zero => simpa using hcond
          | succ j => exact hshift j ▸ hall j (by omega)
      · rintro ⟨k, rfl, hall⟩
        cases k with
        | zero => exact .inl (by simp)
        | succ k =>
          refine .inr ⟨k, (hshift k).symm, fun j hj => ?_⟩
          rw [hshift j]
          exact hall (j + 1) (by omega)
    · obtain rfl := Option.some.inj h
      refine iff_of_false (fun hp => nomatch hp) ?_
      rintro ⟨k, -, hall⟩
      exact hcond (by simpa using hall 0 (by omega))

/-- **When it ends**: if one of the positions fails the condition. -/
theorem exists_advance_iff : (∃ fuel ps, advance cond step fuel pos = some ps) ↔
    ∃ k : ℕ, ¬ cond (pos + k * step) := by
  constructor
  · rintro ⟨fuel, ps, h⟩
    by_contra hall
    rw [not_exists] at hall
    induction fuel generalizing pos ps with
    | zero => exact nomatch h
    | succ fuel ih =>
      rw [advance, if_pos (by simpa using not_not.mp (hall 0))] at h
      obtain ⟨rest, hrest, -⟩ := Option.map_eq_some_iff.mp h
      refine ih rest hrest fun k => ?_
      have hnext := hall (k + 1)
      push_cast at hnext
      rwa [add_mul, one_mul, add_comm (k * step), ← add_assoc] at hnext
  · rintro ⟨k, hk⟩
    induction k generalizing pos with
    | zero => exact ⟨1, [], by rw [advance, if_neg (by simpa using hk)]⟩
    | succ k ih =>
      push_cast at hk
      rw [add_mul, one_mul, add_comm (k * step), ← add_assoc] at hk
      obtain ⟨fuel, ps, hps⟩ := ih hk
      by_cases hcond : cond pos
      · exact ⟨fuel + 1, pos :: ps, by rw [advance, if_pos hcond, hps]; rfl⟩
      · exact ⟨1, [], by rw [advance, if_neg hcond]⟩

/-- **A loop up to a limit** ends if it does not begin, or moves on to the limit, and then it takes
all steps up to the limit. -/
theorem exists_advance_forall_iff {limit : ℤ} (hcond : ∀ p, cond p ↔ p ≤ limit) {Q : ℤ → Prop} :
    (∃ fuel ps, advance cond step fuel pos = some ps ∧ ∀ p ∈ ps, Q p) ↔
      limit < pos ∨ 0 < step ∧ ∀ k : ℕ, pos + k * step ≤ limit → Q (pos + k * step) := by
  constructor
  · rintro ⟨fuel, ps, hps, hQ⟩
    refine or_iff_not_imp_left.mpr fun hbegins => ?_
    obtain ⟨k, hk⟩ := exists_advance_iff.mp ⟨fuel, ps, hps⟩
    rw [hcond] at hk
    have hstep : 0 < step := by
      by_contra hstep
      have hback : (k : ℤ) * step ≤ 0 := Int.mul_nonpos_of_nonneg_of_nonpos (by omega) (by omega)
      omega
    refine ⟨hstep, fun k hle => hQ _ ((mem_advance_iff hps).mpr ⟨k, rfl, fun j hj => ?_⟩)⟩
    have hmono : (j : ℤ) * step ≤ k * step := Int.mul_le_mul_of_nonneg_right (by omega) hstep.le
    rw [hcond]
    omega
  · rintro (hbegins | ⟨hstep, hQ⟩)
    · refine ⟨1, [], ?_, fun p hp => nomatch hp⟩
      rw [advance, if_neg (by rw [hcond]; omega)]
    · have hends : ∃ k : ℕ, ¬ cond (pos + k * step) := by
        refine ⟨(limit - pos + 1).toNat, ?_⟩
        rw [hcond]
        have hfar : ((limit - pos + 1).toNat : ℤ) * 1 ≤ (limit - pos + 1).toNat * step :=
          Int.mul_le_mul_of_nonneg_left (by omega) (by omega)
        omega
      obtain ⟨fuel, ps, hps⟩ := exists_advance_iff.mpr hends
      refine ⟨fuel, ps, hps, fun p hp => ?_⟩
      obtain ⟨k, rfl, hall⟩ := (mem_advance_iff hps).mp hp
      exact hQ k ((hcond _).mp (hall k le_rfl))

/-- The same, of what is made of each position. -/
theorem exists_map_advance_forall_iff {β : Type} {limit : ℤ} (f : ℤ → β)
    (hcond : ∀ p, cond p ↔ p ≤ limit) {Q : β → Prop} :
    (∃ fuel rs, (advance cond step fuel pos).map (List.map f) = some rs ∧ ∀ r ∈ rs, Q r) ↔
      limit < pos ∨ 0 < step ∧ ∀ k : ℕ, pos + k * step ≤ limit → Q (f (pos + k * step)) := by
  rw [← exists_advance_forall_iff hcond (Q := fun p => Q (f p))]
  refine exists_congr fun fuel => ?_
  constructor
  · rintro ⟨rs, hrs, hQ⟩
    obtain ⟨ps, hps, rfl⟩ := Option.map_eq_some_iff.mp hrs
    exact ⟨ps, hps, fun p hp => hQ _ (List.mem_map_of_mem hp)⟩
  · rintro ⟨ps, hps, hQ⟩
    refine ⟨ps.map f, by rw [hps]; rfl, fun r hr => ?_⟩
    obtain ⟨p, hp, rfl⟩ := List.mem_map.mp hr
    exact hQ p hp

end Advance

end Python
