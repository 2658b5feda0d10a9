/-
# High marks

Something comes in one after the other, and of what has come only the highest value is kept, for
each key (`Marks`).  What comes is late if it lies below the mark of its key; the mark then stays.
How often something happens along a list, given what is before it, is `countAlong`.

* `Marks.below_iff`, `Marks.above_iff`: the mark of a key says of a value whether a higher one has
  come already, and whether none as high has;
* `countAlong_eq_zero_iff`: nothing of the kind has happened at any place;
* `countAlong_keyed_eq_zero_iff`: or under any key;
* `countAlong_lt_eq_zero_iff`: no value comes late just when the values never decrease.
-/
import Kripto.Effect.Totals
import Mathlib.Data.List.MinMax
import Mathlib.Data.List.Pairwise
import Mathlib.Order.Lattice

namespace Effect

variable {α κ : Type}

/-! ## 1. Counting along a list -/

section Count

variable {p q : List α → α → Prop} [∀ before x, Decidable (p before x)]
  [∀ before x, Decidable (q before x)]

/-- How many elements have `p` of what is before them. -/
def countFrom (p : List α → α → Prop) [∀ before x, Decidable (p before x)] :
    List α → List α → ℕ
  | _, [] => 0
  | before, x :: xs => (if p before x then 1 else 0) + countFrom p (before ++ [x]) xs

def countAlong (p : List α → α → Prop) [∀ before x, Decidable (p before x)] (xs : List α) : ℕ :=
  countFrom p [] xs

@[simp] theorem countAlong_nil : countAlong p [] = 0 := rfl

theorem countFrom_append (before xs ys : List α) :
    countFrom p before (xs ++ ys) = countFrom p before xs + countFrom p (before ++ xs) ys := by
  induction xs generalizing before with
  | nil => simp [countFrom]
  | cons x xs ih => simp [countFrom, ih, Nat.add_assoc]

/-- One more element. -/
theorem countAlong_concat (xs : List α) (x : α) :
    countAlong p (xs ++ [x]) = countAlong p xs + if p xs x then 1 else 0 := by
  simp [countAlong, countFrom_append, countFrom]

theorem countAlong_congr {xs : List α}
    (h : ∀ before x after, xs = before ++ x :: after → (p before x ↔ q before x)) :
    countAlong p xs = countAlong q xs := by
  induction xs using List.reverseRecOn with
  | nil => rfl
  | append_singleton xs x ih =>
    have hbefore : countAlong p xs = countAlong q xs := by
      refine ih fun before y after hxs => h before y (after ++ [x]) ?_
      simp [hxs]
    rw [countAlong_concat, countAlong_concat, hbefore]
    simp only [h xs x [] rfl]

theorem countAlong_eq_zero_iff {xs : List α} :
    countAlong p xs = 0 ↔ ∀ before x after, xs = before ++ x :: after → ¬ p before x := by
  induction xs using List.reverseRecOn with
  | nil => simp
  | append_singleton xs x ih =>
    rw [countAlong_concat, Nat.add_eq_zero_iff, ih]
    constructor
    · rintro ⟨hxs, hx⟩ before y after heq
      rcases List.eq_nil_or_concat' after with rfl | ⟨after, z, rfl⟩
      · obtain ⟨rfl, hy⟩ := List.append_inj' heq rfl
        obtain rfl := List.singleton_inj.mp hy
        intro hp
        simp [hp] at hx
      · rw [← List.cons_append, ← List.append_assoc] at heq
        exact hxs before y after (List.append_inj' heq rfl).1
    · intro h
      refine ⟨fun before y after heq => h before y (after ++ [x]) (by simp [heq]), ?_⟩
      simp [h xs x [] rfl]

/-- What happens to the images of the elements, where there are some. -/
theorem countAlong_filterMap {β : Type} {r : List β → β → Prop}
    [∀ before y, Decidable (r before y)] (f : α → Option β) (xs : List α) :
    countAlong (fun before x => ∃ y ∈ f x, r (before.filterMap f) y) xs =
      countAlong r (xs.filterMap f) := by
  classical
  induction xs using List.reverseRecOn with
  | nil => rfl
  | append_singleton xs x ih =>
    rw [countAlong_concat, List.filterMap_append, ih]
    cases hx : f x with
    | none => simp [hx]
    | some y => simp [hx, countAlong_concat]

/-- **Under many keys**: nothing of the kind has happened just if nothing has under any key. -/
theorem countAlong_keyed_eq_zero_iff {β : Type} {r : List β → β → Prop}
    [∀ before y, Decidable (r before y)] {f : κ → α → Option β} {xs : List α}
    (h : ∀ before x, p before x ↔ ∃ k, ∃ y ∈ f k x, r (before.filterMap (f k)) y) :
    countAlong p xs = 0 ↔ ∀ k, countAlong r (xs.filterMap (f k)) = 0 := by
  classical
  simp only [← countAlong_filterMap (r := r)]
  simp only [countAlong_eq_zero_iff]
  constructor
  · intro hxs k before x after heq hx
    exact hxs before x after heq ((h before x).mpr ⟨k, hx⟩)
  · intro hxs before x after heq hp
    obtain ⟨k, hx⟩ := (h before x).mp hp
    exact hxs k before x after heq hx

/-- Nothing comes that is not related to all before it. -/
theorem countAlong_not_eq_zero_iff {R : α → α → Prop} [DecidableRel R] {xs : List α} :
    countAlong (fun before x => ∃ y ∈ before, ¬ R y x) xs = 0 ↔ xs.Pairwise R := by
  induction xs using List.reverseRecOn with
  | nil => simp
  | append_singleton xs x ih =>
    rw [countAlong_concat, Nat.add_eq_zero_iff, ih, List.pairwise_append]
    simp

end Count

/-! ## 2. Marks -/

variable [LinearOrder α] [DecidableEq κ] {xs ys : List α} {x m : α}

theorem max?_concat (xs : List α) (x : α) :
    (xs ++ [x]).max? = some (xs.max?.elim x fun m => max m x) := by
  cases h : xs.max? with
  | none =>
    rw [List.max?_eq_none_iff.mp h]
    rfl
  | some m =>
    obtain ⟨hmem, hle⟩ := List.max?_eq_some_iff.mp h
    rw [List.max?_eq_some_iff]
    refine ⟨?_, fun y hy => ?_⟩
    · rcases le_total m x with hmx | hxm
      · simp [max_eq_right hmx]
      · simp [max_eq_left hxm, hmem]
    · rcases List.mem_append.mp hy with hy | hy
      · exact le_max_of_le_left (hle y hy)
      · rw [List.mem_singleton.mp hy]
        exact le_max_right m x

/-- The table holds, for each key, the highest of its values. -/
def Marks (t : Table κ α) (values : κ → List α) : Prop := ∀ k, t.lookup k = (values k).max?

namespace Marks

variable {t : Table κ α} {values : κ → List α} {k : κ}

theorem empty : Marks (∅ : Table κ α) fun _ => [] := fun k => by
  rw [AList.lookup_empty]
  rfl

theorem congr {values' : κ → List α} (h : Marks t values) (heq : ∀ k, values' k = values k) :
    Marks t values' := fun k => by rw [h k, heq k]

/-- No mark: nothing has come yet. -/
theorem lookup_eq_none (h : Marks t values) : t.lookup k = none ↔ values k = [] := by
  rw [h k, List.max?_eq_none_iff]

/-- **Something higher has come already.** -/
theorem below_iff (h : Marks t values) (hm : t.lookup k = some m) :
    x < m ↔ ∃ y ∈ values k, x < y := by
  obtain ⟨hmem, hle⟩ := List.max?_eq_some_iff.mp ((h k).symm.trans hm)
  constructor
  · exact fun hx => ⟨m, hmem, hx⟩
  · rintro ⟨y, hy, hx⟩
    exact lt_of_lt_of_le hx (hle y hy)

/-- **Nothing as high has come yet.** -/
theorem above_iff (h : Marks t values) (hm : t.lookup k = some m) :
    m < x ↔ ∀ y ∈ values k, y < x := by
  obtain ⟨hmem, hle⟩ := List.max?_eq_some_iff.mp ((h k).symm.trans hm)
  constructor
  · exact fun hx y hy => lt_of_le_of_lt (hle y hy) hx
  · exact fun hall => hall m hmem

/-- A value is kept if it is the highest. -/
theorem insert {values' : κ → List α} (h : Marks t values) (hx : ∀ m ∈ t.lookup k, m ≤ x)
    (hk : values' k = values k ++ [x]) (hother : ∀ k', k' ≠ k → values' k' = values k') :
    Marks (t.insert k x) values' := by
  intro k'
  by_cases hkk : k' = k
  · subst hkk
    rw [AList.lookup_insert, hk, max?_concat, ← h k']
    cases hm : t.lookup k' with
    | none => rfl
    | some m => simp [max_eq_right (hx m hm)]
  · rw [AList.lookup_insert_ne hkk, h k', hother k' hkk]

/-- A value that is not higher than the mark leaves it. -/
theorem skip {values' : κ → List α} (h : Marks t values) (hm : t.lookup k = some m) (hx : x ≤ m)
    (hk : values' k = values k ++ [x]) (hother : ∀ k', k' ≠ k → values' k' = values k') :
    Marks t values' := by
  intro k'
  by_cases hkk : k' = k
  · subst hkk
    rw [hk, max?_concat, ← h k', hm]
    simp [max_eq_left hx]
  · rw [h k', hother k' hkk]

end Marks

omit [DecidableEq κ] in
/-- **No value comes late** just when the values never decrease. -/
theorem countAlong_lt_eq_zero_iff :
    countAlong (fun before x => ∃ y ∈ before, x < y) xs = 0 ↔ xs.Pairwise (· ≤ ·) := by
  have hlate : countAlong (fun before x => ∃ y ∈ before, x < y) xs =
      countAlong (fun before x => ∃ y ∈ before, ¬ y ≤ x) xs := countAlong_congr fun _ _ _ _ => by
    simp
  rw [hlate, countAlong_not_eq_zero_iff]

end Effect
