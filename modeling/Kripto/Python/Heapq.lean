/-
# `heapq`

A heap is a list in which no item is smaller than its parent, the item at `(i - 1) / 2`.  An item is
compared by its key.  `_siftdown` and `_siftup` move a hole through the list and fill it in the end:
towards the root, and along the smaller children to a leaf.

* `heappush_heap`, `heappop_heap` and `heapify_heap`: the results are heaps;
* `heappush_perm`, `heappop_perm` and `heapify_perm`: what they hold;
* `heappop_min`: the item that is popped has the least key.
-/
import Mathlib.Data.List.Basic
import Mathlib.Order.Lattice

namespace Python

/-! ## 1. Holes -/

/-- A list and the position that is to be filled. -/
structure Hole (α : Type) where
  heap : List α
  pos : ℕ
  pos_lt : pos < heap.length

variable {α β : Type} [LinearOrder β]

namespace Hole

/-- `heap[pos] = x`. -/
def fill (h : Hole α) (x : α) : List α := h.heap.set h.pos x

/-- `heap[pos] = heap[i]; pos = i`. -/
def moveTo (h : Hole α) (i : ℕ) (hi : i < h.heap.length) : Hole α :=
  ⟨h.heap.set h.pos h.heap[i], i, by rwa [List.length_set]⟩

@[simp] theorem length_fill (h : Hole α) (x : α) : (h.fill x).length = h.heap.length :=
  List.length_set

@[simp] theorem length_moveTo (h : Hole α) (i : ℕ) (hi : i < h.heap.length) :
    (h.moveTo i hi).heap.length = h.heap.length :=
  List.length_set

@[simp] theorem pos_moveTo (h : Hole α) (i : ℕ) (hi : i < h.heap.length) :
    (h.moveTo i hi).pos = i := rfl

/-- The hole can be moved before it is filled. -/
theorem fill_moveTo_perm (h : Hole α) (i : ℕ) (hi : i < h.heap.length) (x : α) :
    ((h.moveTo i hi).fill x).Perm (h.fill x) := by
  by_cases hpos : h.pos = i
  · subst hpos
    simp [fill, moveTo]
  · have hswap := @List.set_set_perm α (h.fill x) h.pos i (by rw [length_fill]; exact h.pos_lt)
      (by rwa [length_fill])
    simpa [fill, moveTo, List.getElem_set_ne hpos] using hswap

end Hole

/-! ## 2. The algorithms -/

variable (key : α → β)

/-- The loop of `_siftdown`. -/
def siftdown (startpos : ℕ) (newitem : α) (h : Hole α) : List α :=
  if hstart : startpos < h.pos then
    have hparent : (h.pos - 1) / 2 < h.heap.length := by have := h.pos_lt; omega
    if key newitem < key h.heap[(h.pos - 1) / 2] then
      siftdown startpos newitem (h.moveTo ((h.pos - 1) / 2) hparent)
    else h.fill newitem
  else h.fill newitem
termination_by h.pos
decreasing_by rw [Hole.pos_moveTo]; omega

/-- The position of the smaller child; there is a left one. -/
def smallerChild (h : Hole α) (hleft : 2 * h.pos + 1 < h.heap.length) : ℕ :=
  if hright : 2 * h.pos + 2 < h.heap.length then
    if key h.heap[2 * h.pos + 1] < key h.heap[2 * h.pos + 2] then 2 * h.pos + 1
    else 2 * h.pos + 2
  else 2 * h.pos + 1

/-- `j` is a child of `i`. -/
def Child (i j : ℕ) : Prop := j = 2 * i + 1 ∨ j = 2 * i + 2

theorem child_smallerChild (h : Hole α) (hleft : 2 * h.pos + 1 < h.heap.length) :
    Child h.pos (smallerChild key h hleft) := by
  unfold smallerChild Child
  split_ifs <;> simp

theorem smallerChild_lt (h : Hole α) (hleft : 2 * h.pos + 1 < h.heap.length) :
    smallerChild key h hleft < h.heap.length := by
  unfold smallerChild
  split_ifs <;> assumption

/-- The loop of `_siftup`. -/
def siftupLoop (h : Hole α) : Hole α :=
  if hleft : 2 * h.pos + 1 < h.heap.length then
    siftupLoop (h.moveTo (smallerChild key h hleft) (smallerChild_lt key h hleft))
  else h
termination_by h.heap.length - h.pos
decreasing_by
  have hchild := child_smallerChild key h hleft
  rw [Hole.length_moveTo, Hole.pos_moveTo]
  unfold Child at hchild
  omega

/-- `_siftup(heap, pos)`. -/
def siftup (h : Hole α) : List α :=
  have := h.pos_lt
  siftdown key h.pos h.heap[h.pos] (siftupLoop key h)

def heappush (heap : List α) (item : α) : List α :=
  siftdown key 0 item ⟨heap ++ [item], heap.length, by simp⟩

/-- The smallest item and the rest. -/
def heappop (heap : List α) : Option (α × List α) :=
  match heap.getLast? with
  | none => none
  | some lastelt =>
    match heap.dropLast with
    | [] => some (lastelt, [])
    | returnitem :: rest => some (returnitem, siftup key ⟨lastelt :: rest, 0, by simp⟩)

/-- `_siftup(x, i)`, for an `i` of the loop of `heapify`. -/
def heapifyTurn (x : List α) (i : ℕ) : List α :=
  if hi : i < x.length then siftup key ⟨x, i, hi⟩ else x

def heapify (x : List α) : List α :=
  (List.range (x.length / 2)).reverse.foldl (heapifyTurn key) x

/-! ## 3. What the results hold -/

variable {key}

theorem siftdown_perm (startpos : ℕ) (newitem : α) (h : Hole α) :
    (siftdown key startpos newitem h).Perm (h.fill newitem) := by
  fun_induction siftdown key startpos newitem h with
  | case1 h hstart hparent hlt ih => exact ih.trans (h.fill_moveTo_perm _ hparent newitem)
  | case2 h hstart hparent hlt => exact List.Perm.refl _
  | case3 h hstart => exact List.Perm.refl _

theorem siftupLoop_perm (x : α) (h : Hole α) :
    ((siftupLoop key h).fill x).Perm (h.fill x) := by
  fun_induction siftupLoop key h with
  | case1 h hleft ih => exact ih.trans (h.fill_moveTo_perm _ (smallerChild_lt key h hleft) x)
  | case2 h hleft => exact List.Perm.refl _

theorem siftup_perm (h : Hole α) : (siftup key h).Perm h.heap := by
  have hlt := h.pos_lt
  have hfill : h.fill h.heap[h.pos] = h.heap := List.set_getElem_self hlt
  exact (siftdown_perm _ _ _).trans ((siftupLoop_perm _ h).trans (List.Perm.of_eq hfill))

theorem heappush_perm (heap : List α) (item : α) :
    (heappush key heap item).Perm (item :: heap) := by
  have hfill : Hole.fill ⟨heap ++ [item], heap.length, by simp⟩ item = heap ++ [item] := by
    simp [Hole.fill]
  exact (siftdown_perm 0 item _).trans
    ((List.Perm.of_eq hfill).trans (List.perm_append_singleton item heap))

/-- **An item is popped** off every list but the empty one. -/
theorem heappop_perm {heap : List α} (hne : heap ≠ []) :
    ∃ x rest, heappop key heap = some (x, rest) ∧ (x :: rest).Perm heap := by
  rcases List.eq_nil_or_concat' heap with rfl | ⟨init, lastelt, rfl⟩
  · exact absurd rfl hne
  · rw [heappop, List.getLast?_concat, List.dropLast_concat]
    cases init with
    | nil => exact ⟨lastelt, [], rfl, List.Perm.refl _⟩
    | cons returnitem rest =>
      have hperm : (siftup key ⟨lastelt :: rest, 0, by simp⟩).Perm (rest ++ [lastelt]) :=
        (siftup_perm _).trans (List.perm_append_singleton lastelt rest).symm
      exact ⟨returnitem, _, rfl, hperm.cons returnitem⟩

theorem heapifyTurn_perm (x : List α) (i : ℕ) : (heapifyTurn key x i).Perm x := by
  unfold heapifyTurn
  split
  · exact siftup_perm _
  · exact List.Perm.refl _

theorem foldl_heapifyTurn_perm (x : List α) (is : List ℕ) :
    (is.foldl (heapifyTurn key) x).Perm x := by
  induction is generalizing x with
  | nil => exact List.Perm.refl _
  | cons i is ih => exact (ih _).trans (heapifyTurn_perm x i)

theorem heapify_perm (x : List α) : (heapify key x).Perm x := foldl_heapifyTurn_perm x _

/-! ## 4. Heaps -/

/-- From `s` on, no item is smaller than its parent. -/
def HeapFrom (key : α → β) (s : ℕ) (heap : List α) : Prop :=
  ∀ i j, s ≤ i → Child i j → ∀ (hi : i < heap.length) (hj : j < heap.length),
    key heap[i] ≤ key heap[j]

def IsHeap (key : α → β) (heap : List α) : Prop := HeapFrom key 0 heap

/-- The positions below `s`, and `s`. -/
inductive Under (s : ℕ) : ℕ → Prop
  | root : Under s s
  | child {i j : ℕ} (h : Under s i) (hchild : Child i j) : Under s j

theorem Under.le {s i : ℕ} (h : Under s i) : s ≤ i := by
  induction h with
  | root => exact le_rfl
  | child h hchild ih =>
    unfold Child at hchild
    omega

theorem Under.zero (i : ℕ) : Under 0 i := by
  induction i using Nat.strongRecOn with
  | ind i ih =>
    rcases Nat.eq_zero_or_pos i with rfl | hpos
    · exact .root
    · exact .child (ih ((i - 1) / 2) (by omega)) (by unfold Child; omega)

/-- The parent of a position below `s` is one too. -/
theorem Under.parent {s i : ℕ} (h : Under s i) (hs : s < i) : Under s ((i - 1) / 2) := by
  cases h with
  | root => exact absurd hs (lt_irrefl s)
  | @child i' _ h hchild =>
    have hparent : (i - 1) / 2 = i' := by
      unfold Child at hchild
      omega
    rwa [hparent]

/-- A heap from `s` on, but for the hole: the items around it are in order without it. -/
structure Apart (key : α → β) (s : ℕ) (h : Hole α) : Prop where
  under : Under s h.pos
  off : ∀ i j, s ≤ i → Child i j → i ≠ h.pos → j ≠ h.pos →
    ∀ (hi : i < h.heap.length) (hj : j < h.heap.length), key h.heap[i] ≤ key h.heap[j]
  across : ∀ i j, s ≤ i → Child i h.pos → Child h.pos j →
    ∀ (hi : i < h.heap.length) (hj : j < h.heap.length), key h.heap[i] ≤ key h.heap[j]

/-- What is to be filled in is not greater than the children of the hole. -/
def Below (key : α → β) (x : α) (h : Hole α) : Prop :=
  ∀ j, Child h.pos j → ∀ hj : j < h.heap.length, key x ≤ key h.heap[j]

section Sift

variable {s : ℕ} {x : α} {h : Hole α}

/-- **A hole that rises** leaves a heap behind it. -/
theorem Apart.rise (ha : Apart key s h) (hs : s < h.pos)
    (hparent : (h.pos - 1) / 2 < h.heap.length) :
    Apart key s (h.moveTo ((h.pos - 1) / 2) hparent) := by
  have hup : Child ((h.pos - 1) / 2) h.pos := by unfold Child; omega
  have hunder := ha.under.parent hs
  refine ⟨hunder, fun i j hi hchild hip hjp hil hjl => ?_, fun i j hi hip hpj hil hjl => ?_⟩
  · simp only [Hole.moveTo, List.length_set, List.getElem_set] at hil hjl hip hjp ⊢
    have hij : j ≠ i := by unfold Child at hchild; omega
    by_cases hpi : h.pos = i
    · subst hpi
      rw [if_pos rfl, if_neg hij.symm]
      exact ha.across _ j hunder.le hup hchild hparent hjl
    · have hpj : h.pos ≠ j := by
        rintro rfl
        exact hip (by unfold Child at hchild; omega)
      rw [if_neg hpi, if_neg hpj]
      exact ha.off i j hi hchild (Ne.symm hpi) (Ne.symm hpj) hil hjl
  · simp only [Hole.moveTo, List.length_set, List.getElem_set] at hil hjl hip hpj ⊢
    have hpi : h.pos ≠ i := by unfold Child at hip; omega
    have hq : (h.pos - 1) / 2 ≠ h.pos := by omega
    have habove := ha.off i _ hi hip (Ne.symm hpi) hq hil hparent
    rw [if_neg hpi]
    split_ifs with hj
    · exact habove
    · exact habove.trans (ha.off _ j hunder.le hpj hq (Ne.symm hj) hparent hjl)

theorem Apart.below_rise (ha : Apart key s h) (hs : s < h.pos)
    (hparent : (h.pos - 1) / 2 < h.heap.length) (hlt : key x < key h.heap[(h.pos - 1) / 2]) :
    Below key x (h.moveTo ((h.pos - 1) / 2) hparent) := by
  intro j hchild hjl
  simp only [Hole.moveTo, List.length_set, List.getElem_set] at hjl hchild ⊢
  split_ifs with hj
  · exact hlt.le
  · exact hlt.le.trans
      (ha.off _ j (ha.under.parent hs).le hchild (by omega) (Ne.symm hj) hparent hjl)

/-- **The hole is filled** where its parent is not greater. -/
theorem Apart.fill (ha : Apart key s h) (hbelow : Below key x h)
    (hstop : ∀ hparent : (h.pos - 1) / 2 < h.heap.length, s < h.pos →
      key h.heap[(h.pos - 1) / 2] ≤ key x) : HeapFrom key s (h.fill x) := by
  intro i j hi hchild hil hjl
  simp only [Hole.fill, List.length_set, List.getElem_set] at hil hjl ⊢
  have hij : i ≠ j := by unfold Child at hchild; omega
  by_cases hpi : h.pos = i
  · subst hpi
    rw [if_pos rfl, if_neg hij]
    exact hbelow j hchild hjl
  · rw [if_neg hpi]
    split_ifs with hpj
    · subst hpj
      obtain rfl : (h.pos - 1) / 2 = i := by unfold Child at hchild; omega
      exact hstop hil (by omega)
    · exact ha.off i j hi hchild (Ne.symm hpi) (Ne.symm hpj) hil hjl

theorem siftdown_heap (ha : Apart key s h) (hbelow : Below key x h) :
    HeapFrom key s (siftdown key s x h) := by
  fun_induction siftdown key s x h with
  | case1 h hs hparent hlt ih => exact ih (ha.rise hs hparent) (ha.below_rise hs hparent hlt)
  | case2 h hs hparent hlt => exact ha.fill hbelow fun _ _ => not_lt.mp hlt
  | case3 h hs => exact ha.fill hbelow fun _ hs' => absurd hs' hs

/-- A hole on its way to a leaf.  What stands in it has been copied to its parent. -/
structure Sinking (key : α → β) (s : ℕ) (h : Hole α) : Prop where
  under : Under s h.pos
  off : ∀ i j, s ≤ i → Child i j → i ≠ h.pos →
    ∀ (hi : i < h.heap.length) (hj : j < h.heap.length), key h.heap[i] ≤ key h.heap[j]
  across : ∀ i j, s ≤ i → Child i h.pos → Child h.pos j →
    ∀ (hi : i < h.heap.length) (hj : j < h.heap.length), key h.heap[i] ≤ key h.heap[j]

theorem Sinking.apart (hk : Sinking key s h) : Apart key s h :=
  ⟨hk.under, fun i j hi hchild hip _ => hk.off i j hi hchild hip, hk.across⟩

theorem smallerChild_le (hleft : 2 * h.pos + 1 < h.heap.length) {j : ℕ} (hchild : Child h.pos j)
    (hj : j < h.heap.length) (hlt : smallerChild key h hleft < h.heap.length) :
    key h.heap[smallerChild key h hleft] ≤ key h.heap[j] := by
  unfold smallerChild
  rcases hchild with rfl | rfl
  · split_ifs with hright hlt
    · exact le_rfl
    · exact not_lt.mp hlt
    · exact le_rfl
  · split_ifs with hlt
    · exact hlt.le
    · exact le_rfl

/-- **A hole that sinks** to the least of its children. -/
theorem Sinking.sink (hk : Sinking key s h) {c : ℕ} (hdown : Child h.pos c)
    (hbound : c < h.heap.length)
    (hmin : ∀ j, Child h.pos j → ∀ hj : j < h.heap.length, key h.heap[c] ≤ key h.heap[j]) :
    Sinking key s (h.moveTo c hbound) := by
  have hsc : s ≤ c := hk.under.le.trans (by unfold Child at hdown; omega)
  have hpc : h.pos ≠ c := by unfold Child at hdown; omega
  refine ⟨hk.under.child hdown, fun i j hi hchild hic hil hjl => ?_,
    fun i j hi hip hcj hil hjl => ?_⟩
  · simp only [Hole.moveTo, List.length_set, List.getElem_set] at hil hjl hic ⊢
    have hij : i ≠ j := by unfold Child at hchild; omega
    by_cases hpi : h.pos = i
    · subst hpi
      rw [if_pos rfl, if_neg hij]
      exact hmin j hchild hjl
    · rw [if_neg hpi]
      split_ifs with hpj
      · subst hpj
        exact hk.across i c hi hchild hdown hil hbound
      · exact hk.off i j hi hchild (Ne.symm hpi) hil hjl
  · simp only [Hole.moveTo, List.length_set, List.getElem_set] at hil hjl hip hcj ⊢
    obtain rfl : h.pos = i := by unfold Child at hip hdown; omega
    have hpj : h.pos ≠ j := by unfold Child at hcj hdown; omega
    rw [if_pos rfl, if_neg hpj]
    exact hk.off c j hsc hcj hpc.symm hbound hjl

theorem siftupLoop_sinking (hk : Sinking key s h) : Sinking key s (siftupLoop key h) := by
  fun_induction siftupLoop key h with
  | case1 h hleft ih =>
    exact ih (hk.sink (child_smallerChild key h hleft) (smallerChild_lt key h hleft)
      fun j hchild hj => smallerChild_le hleft hchild hj _)
  | case2 h hleft => exact hk

/-- The hole ends at a leaf. -/
theorem siftupLoop_below : Below key x (siftupLoop key h) := by
  fun_induction siftupLoop key h with
  | case1 h hleft ih => exact ih
  | case2 h hleft =>
    intro j hchild hj
    unfold Child at hchild
    omega

/-- **Sifting up** joins two heaps under an item. -/
theorem siftup_heap (hh : HeapFrom key (h.pos + 1) h.heap) : HeapFrom key h.pos (siftup key h) := by
  refine siftdown_heap (siftupLoop_sinking ⟨.root, fun i j hi hchild hip => ?_, ?_⟩).apart
    siftupLoop_below
  · exact hh i j (by omega) hchild
  · intro i j hi hip
    unfold Child at hip
    omega

end Sift

variable {heap : List α}

theorem heappush_heap (hh : IsHeap key heap) (item : α) : IsHeap key (heappush key heap item) := by
  refine siftdown_heap ⟨Under.zero _, fun i j hi hchild hip hjp hil hjl => ?_, ?_⟩ ?_
  · simp only [List.length_append, List.length_singleton] at hil hjl hip hjp ⊢
    have hi' : i < heap.length := by omega
    have hj' : j < heap.length := by omega
    rw [List.getElem_append_left hi', List.getElem_append_left hj']
    exact hh i j hi hchild hi' hj'
  · intro i j hi hip hpj hil hjl
    simp only [List.length_append, List.length_singleton] at hjl hpj
    unfold Child at hpj
    omega
  · intro j hpj hjl
    simp only [List.length_append, List.length_singleton] at hjl hpj
    unfold Child at hpj
    omega

/-- The first item of a heap is a least one. -/
theorem IsHeap.head_le {x : α} (hh : IsHeap key (x :: heap)) {y : α} (hy : y ∈ x :: heap) :
    key x ≤ key y := by
  obtain ⟨i, hi, rfl⟩ := List.getElem_of_mem hy
  clear hy
  induction i using Nat.strongRecOn with
  | ind i ih =>
    rcases Nat.eq_zero_or_pos i with rfl | hpos
    · exact le_rfl
    · have hchild : Child ((i - 1) / 2) i := by unfold Child; omega
      have hparent : (i - 1) / 2 < (x :: heap).length := by omega
      exact (ih _ (by omega) hparent).trans (hh _ i (Nat.zero_le _) hchild hparent hi)

theorem heappop_heap (hh : IsHeap key heap) {x : α} {rest : List α}
    (h : heappop key heap = some (x, rest)) : IsHeap key rest := by
  rcases List.eq_nil_or_concat' heap with rfl | ⟨init, lastelt, rfl⟩
  · cases h
  · rw [heappop, List.getLast?_concat, List.dropLast_concat] at h
    cases init with
    | nil =>
      cases h
      intro i j hi hchild hil
      exact absurd hil (Nat.not_lt_zero i)
    | cons returnitem init =>
      cases h
      refine @siftup_heap _ _ _ key ⟨lastelt :: init, 0, by simp⟩ fun i j hi hchild hil hjl => ?_
      have hold := hh i j (Nat.zero_le i) hchild (by simp at hil ⊢; omega) (by simp at hjl ⊢; omega)
      -- Below the root nothing has changed.
      obtain ⟨i, rfl⟩ := Nat.exists_eq_add_of_lt hi
      obtain ⟨j, rfl⟩ : ∃ j', j = j' + 1 := ⟨j - 1, by unfold Child at hchild; omega⟩
      simp only [List.length_cons] at hil hjl
      simp only [Nat.zero_add, List.cons_append, List.getElem_cons_succ] at hold ⊢
      rwa [List.getElem_append_left (by omega), List.getElem_append_left (by omega)] at hold

/-- **What is popped is a least item.** -/
theorem heappop_min (hh : IsHeap key heap) {x : α} {rest : List α}
    (h : heappop key heap = some (x, rest)) {y : α} (hy : y ∈ heap) : key x ≤ key y := by
  rcases List.eq_nil_or_concat' heap with rfl | ⟨init, lastelt, rfl⟩
  · cases hy
  · rw [heappop, List.getLast?_concat, List.dropLast_concat] at h
    cases init with
    | nil =>
      cases h
      rw [List.nil_append, List.mem_singleton] at hy
      rw [hy]
    | cons returnitem init =>
      cases h
      exact hh.head_le hy

theorem heapifyTurn_heap {i : ℕ} (hh : HeapFrom key (i + 1) heap) :
    HeapFrom key i (heapifyTurn key heap i) := by
  unfold heapifyTurn
  split
  · rename_i hi
    exact @siftup_heap _ _ _ key ⟨heap, i, hi⟩ hh
  · intro i' j hi' hchild hil
    omega

theorem heapify_heap (x : List α) : IsHeap key (heapify key x) := by
  have hturns : ∀ n, ∀ x : List α, HeapFrom key n x →
      IsHeap key ((List.range n).reverse.foldl (heapifyTurn key) x) := by
    intro n
    induction n with
    | zero => exact fun x hx => hx
    | succ n ih =>
      intro x hx
      rw [List.range_succ, List.reverse_append, List.reverse_singleton, List.singleton_append,
        List.foldl_cons]
      exact ih _ (heapifyTurn_heap hx)
  refine hturns _ x fun i j hi hchild hil hjl => ?_
  unfold Child at hchild
  omega

end Python
