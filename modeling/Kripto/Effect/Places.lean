/-
# Entries that keep their places

A list of places, some of which hold an entry.  A copy of it may have lost entries, but holds
what it holds where the original does (`Keeps`).  Read without the places:

* `Keeps.prefix_of`: they are its first ones if none is lost before one that is kept (`Gapless`);
* `Keeps.gapless_of`: and only then, if the original's entries are distinct.
-/
import Mathlib.Data.List.Nodup

namespace Effect

variable {α β : Type} {f : α → Option β} {xs ys : List α} {x y : α}

/-! ## 1. Keeping places -/

/-- The entry at a place. -/
def entryAt (f : α → Option β) (xs : List α) (n : ℕ) : Option β := xs[n]?.bind f

@[simp] theorem entryAt_nil (n : ℕ) : entryAt f [] n = none := rfl

@[simp] theorem entryAt_cons_zero : entryAt f (x :: xs) 0 = f x := rfl

@[simp] theorem entryAt_cons_succ (n : ℕ) : entryAt f (x :: xs) (n + 1) = entryAt f xs n := rfl

/-- What the copy holds, the original holds at the same place. -/
def Keeps (f : α → Option β) (xs ys : List α) : Prop :=
  ∀ n b, entryAt f xs n = some b → entryAt f ys n = some b

/-- No entry of the original is lost before one that is kept. -/
def Gapless (f : α → Option β) (xs ys : List α) : Prop :=
  ∀ n m b, n ≤ m → (entryAt f ys n).isSome → entryAt f xs m = some b → (entryAt f xs n).isSome

theorem Keeps.tail (h : Keeps f (x :: xs) (y :: ys)) : Keeps f xs ys := fun n b hn => h (n + 1) b hn

theorem Gapless.tail (h : Gapless f (x :: xs) (y :: ys)) : Gapless f xs ys :=
  fun n m b hle hy hx => h (n + 1) (m + 1) b (Nat.succ_le_succ hle) hy hx

theorem Gapless.cons (h : Gapless f xs ys) (hfirst : (f y).isSome → (f x).isSome) :
    Gapless f (x :: xs) (y :: ys) := by
  intro n m b hle hy hx
  cases n with
  | zero => exact hfirst hy
  | succ n =>
    cases m with
    | zero => exact absurd hle (Nat.not_succ_le_zero n)
    | succ m => exact h n m b (Nat.le_of_succ_le_succ hle) hy hx

theorem mem_filterMap_iff_entryAt {b : β} :
    b ∈ xs.filterMap f ↔ ∃ n, entryAt f xs n = some b := by
  induction xs with
  | nil => simp
  | cons x xs ih =>
    rw [List.filterMap_cons]
    constructor
    · intro h
      cases hx : f x with
      | none =>
        rw [hx] at h
        obtain ⟨n, hn⟩ := ih.mp h
        exact ⟨n + 1, hn⟩
      | some c =>
        rw [hx] at h
        rcases List.mem_cons.mp h with rfl | h
        · exact ⟨0, hx⟩
        · obtain ⟨n, hn⟩ := ih.mp h
          exact ⟨n + 1, hn⟩
    · rintro ⟨n, hn⟩
      cases n with
      | zero =>
        rw [entryAt_cons_zero] at hn
        simp [hn]
      | succ n =>
        have hmem := ih.mpr ⟨n, hn⟩
        cases f x with
        | none => exact hmem
        | some c => exact List.mem_cons_of_mem _ hmem

/-- A copy of nothing holds nothing. -/
theorem Keeps.filterMap_eq_nil (h : Keeps f xs []) : xs.filterMap f = [] := by
  rw [List.eq_nil_iff_forall_not_mem]
  intro b hb
  obtain ⟨n, hn⟩ := mem_filterMap_iff_entryAt.mp hb
  simpa using h n b hn

/-! ## 2. Without the places -/

/-- **Nothing is lost** before an entry that is kept: the copy has the first entries. -/
theorem Keeps.prefix_of (h : Keeps f xs ys) (hgap : Gapless f xs ys) :
    xs.filterMap f <+: ys.filterMap f := by
  induction xs generalizing ys with
  | nil => exact List.nil_prefix
  | cons x xs ih =>
    cases ys with
    | nil => rw [h.filterMap_eq_nil]; exact List.nil_prefix
    | cons y ys =>
      have htail := ih h.tail hgap.tail
      rw [List.filterMap_cons, List.filterMap_cons]
      cases hx : f x with
      | some b =>
        have hy : f y = some b := h 0 b hx
        rw [hy]
        exact (List.prefix_cons_inj b).mpr htail
      | none =>
        cases hy : f y with
        | none => exact htail
        | some c =>
          -- the entry of `y` is lost, so no later one is kept
          have hnone : xs.filterMap f = [] := by
            rw [List.eq_nil_iff_forall_not_mem]
            intro b hb
            obtain ⟨n, hn⟩ := mem_filterMap_iff_entryAt.mp hb
            have hlost := hgap 0 (n + 1) b (Nat.zero_le _) (by simp [hy]) hn
            simp [hx] at hlost
          rw [hnone]
          exact List.nil_prefix

/-- **The copy has the first entries**: nothing is lost before one that is kept. -/
theorem Keeps.gapless_of (h : Keeps f xs ys) (hnodup : (ys.filterMap f).Nodup)
    (hinitial : xs.filterMap f <+: ys.filterMap f) : Gapless f xs ys := by
  induction xs generalizing ys with
  | nil => intro n m b _ _ hx; simp at hx
  | cons x xs ih =>
    cases ys with
    | nil => intro n m b _ hy _; simp at hy
    | cons y ys =>
      simp only [List.filterMap_cons] at hnodup hinitial
      cases hx : f x with
      | some b =>
        have hy : f y = some b := h 0 b hx
        rw [hy] at hnodup
        rw [hx, hy] at hinitial
        have htail := (List.prefix_cons_inj b).mp hinitial
        exact (ih h.tail hnodup.of_cons htail).cons fun _ => by simp [hx]
      | none =>
        rw [hx] at hinitial
        cases hy : f y with
        | none =>
          rw [hy] at hnodup hinitial
          exact (ih h.tail hnodup hinitial).cons fun hsome => by simp [hy] at hsome
        | some c =>
          -- a kept entry would be the lost one, which is not there again
          rw [hy] at hnodup hinitial
          have hnone : xs.filterMap f = [] := by
            by_contra hne
            obtain ⟨b, rest, hcons⟩ := List.exists_cons_of_ne_nil hne
            rw [hcons] at hinitial
            obtain ⟨rfl, -⟩ := List.cons_prefix_cons.mp hinitial
            obtain ⟨n, hn⟩ := mem_filterMap_iff_entryAt.mp (hcons ▸ List.mem_cons_self)
            exact (List.nodup_cons.mp hnodup).1
              (mem_filterMap_iff_entryAt.mpr ⟨n, h.tail n b hn⟩)
          intro n m b _ _ hm
          cases m with
          | zero =>
            rw [entryAt_cons_zero, hx] at hm
            cases hm
          | succ m =>
            have hmem := mem_filterMap_iff_entryAt.mpr ⟨m, hm⟩
            rw [hnone] at hmem
            exact absurd hmem List.not_mem_nil

end Effect
