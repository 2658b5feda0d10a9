/-
# An amount taken from items in their order

An amount is taken from a list of items: from each that is open as much as it holds and is still
wanted, from the first on.

* `sum_shares`: if they hold enough, just the amount is taken.
* `shares_fifo`: an item is only taken from when the open ones before it have been used up.
-/
import Mathlib.Algebra.Order.BigOperators.Group.List
import Mathlib.Algebra.Order.Group.Defs
import Mathlib.Algebra.Order.Sub.Defs

namespace Effect

variable {α A : Type} [AddCommGroup A] [LinearOrder A]

/-- What is taken from each item. -/
def shares (isOpen : α → Bool) (size : α → A) : List α → A → List A
  | [], _ => []
  | x :: xs, a =>
    if isOpen x then min (size x) a :: shares isOpen size xs (a - min (size x) a)
    else 0 :: shares isOpen size xs a

variable {isOpen : α → Bool} {size : α → A} {xs : List α} {a : A}

@[simp] theorem length_shares (xs : List α) (a : A) :
    (shares isOpen size xs a).length = xs.length := by
  induction xs generalizing a with
  | nil => rfl
  | cons x xs ih =>
    rw [shares]
    split <;> simp [ih]

variable [IsOrderedAddMonoid A]

/-- Of an open item no more is taken than it holds, and nothing of another. -/
theorem shares_bounds (hsize : ∀ x ∈ xs, isOpen x → 0 ≤ size x) (ha : 0 ≤ a) {p : α × A}
    (h : p ∈ xs.zip (shares isOpen size xs a)) :
    0 ≤ p.2 ∧ if isOpen p.1 then p.2 ≤ size p.1 else p.2 = 0 := by
  induction xs generalizing a with
  | nil => cases h
  | cons y ys ih =>
    have hys : ∀ x ∈ ys, isOpen x → 0 ≤ size x := fun x hx => hsize x (List.mem_cons_of_mem y hx)
    rw [shares] at h
    split at h
    · rename_i hopen
      rcases List.mem_cons.mp h with rfl | hrest
      · rw [if_pos hopen]
        exact ⟨le_min (hsize y List.mem_cons_self hopen) ha, min_le_left _ _⟩
      · exact ih hys (sub_nonneg.mpr (min_le_right _ _)) hrest
    · rename_i hopen
      rcases List.mem_cons.mp h with rfl | hrest
      · rw [if_neg hopen]
        exact ⟨le_rfl, rfl⟩
      · exact ih hys ha hrest

omit [IsOrderedAddMonoid A] in
/-- Nothing is taken of nothing. -/
theorem shares_zero (hsize : ∀ x ∈ xs, isOpen x → 0 ≤ size x) :
    ∀ c ∈ shares isOpen size xs 0, c = 0 := by
  induction xs with
  | nil => intro c hc; cases hc
  | cons y ys ih =>
    have hys : ∀ x ∈ ys, isOpen x → 0 ≤ size x := fun x hx => hsize x (List.mem_cons_of_mem y hx)
    intro c hc
    rw [shares] at hc
    split at hc
    · rename_i hopen
      have hmin : min (size y) 0 = 0 := min_eq_right (hsize y List.mem_cons_self hopen)
      rw [hmin, sub_zero] at hc
      rcases List.mem_cons.mp hc with rfl | hrest
      · rfl
      · exact ih hys c hrest
    · rcases List.mem_cons.mp hc with rfl | hrest
      · rfl
      · exact ih hys c hrest

/-- **The amount is taken**, if the open items hold enough. -/
theorem sum_shares (hsize : ∀ x ∈ xs, isOpen x → 0 ≤ size x) (ha : 0 ≤ a)
    (hle : a ≤ ((xs.filter isOpen).map size).sum) : (shares isOpen size xs a).sum = a := by
  induction xs generalizing a with
  | nil =>
    have hzero : a ≤ 0 := by simpa using hle
    simp [shares, le_antisymm ha hzero]
  | cons y ys ih =>
    have hys : ∀ x ∈ ys, isOpen x → 0 ≤ size x := fun x hx => hsize x (List.mem_cons_of_mem y hx)
    rw [shares]
    by_cases hopen : isOpen y = true
    · have hrest : a - min (size y) a ≤ ((ys.filter isOpen).map size).sum := by
        rw [List.filter_cons_of_pos hopen, List.map_cons, List.sum_cons] at hle
        have hnonneg : 0 ≤ ((ys.filter isOpen).map size).sum :=
          List.sum_nonneg fun s hs => by
            obtain ⟨x, hx, rfl⟩ := List.mem_map.mp hs
            obtain ⟨hmem, hx⟩ := List.mem_filter.mp hx
            exact hys x hmem hx
        rcases le_total (size y) a with hsmall | hlarge
        · rw [min_eq_left hsmall]
          exact sub_le_iff_le_add'.mpr hle
        · rw [min_eq_right hlarge, sub_self]
          exact hnonneg
      rw [if_pos hopen, List.sum_cons, ih hys (sub_nonneg.mpr (min_le_right _ _)) hrest]
      exact add_sub_cancel _ _
    · rw [List.filter_cons_of_neg hopen] at hle
      rw [if_neg hopen, List.sum_cons, ih hys ha hle, zero_add]

omit [IsOrderedAddMonoid A] in
/-- **First in, first out.** -/
theorem shares_fifo (hsize : ∀ x ∈ xs, isOpen x → 0 ≤ size x) :
    (xs.zip (shares isOpen size xs a)).Pairwise
      fun p q => isOpen p.1 → 0 < q.2 → p.2 = size p.1 := by
  induction xs generalizing a with
  | nil => exact List.Pairwise.nil
  | cons y ys ih =>
    have hys : ∀ x ∈ ys, isOpen x → 0 ≤ size x := fun x hx => hsize x (List.mem_cons_of_mem y hx)
    rw [shares]
    split
    · refine List.pairwise_cons.mpr ⟨fun q hq _ hpositive => ?_, ih hys⟩
      rcases le_total (size y) a with hsmall | hlarge
      · exact min_eq_left hsmall
      · -- The first item has covered the amount.
        have hzero : a - min (size y) a = 0 := by rw [min_eq_right hlarge, sub_self]
        rw [hzero] at hq
        have hq := shares_zero hys q.2 (List.of_mem_zip hq).2
        exact absurd hpositive (by rw [hq]; exact lt_irrefl 0)
    · rename_i hopen
      exact List.pairwise_cons.mpr ⟨fun q _ hy => absurd hy hopen, ih hys⟩

end Effect
