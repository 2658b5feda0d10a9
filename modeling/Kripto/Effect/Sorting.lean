/-
# What sorting forgets

If no two different elements of a list are in order both ways, sorting forgets in which order they
were given (`insertionSort_congr`).  A list without repetitions is then known by its elements
(`insertionSort_eq_of_mem_iff`), and so is a list whose elements have increasing keys
(`eq_of_increasing`).
-/
import Mathlib.Data.List.Sort
import Mathlib.Order.Lattice

namespace Effect

variable {α : Type} {r : α → α → Prop} [DecidableRel r] [Std.Total r] [IsTrans α r] {l l' : List α}

/-- No two different elements are in order both ways. -/
def AntisymmOn (r : α → α → Prop) (l : List α) : Prop :=
  ∀ a ∈ l, ∀ b ∈ l, r a b → r b a → a = b

omit [DecidableRel r] [Std.Total r] [IsTrans α r] in
theorem AntisymmOn.subset (h : AntisymmOn r l) (hsub : l' ⊆ l) : AntisymmOn r l' :=
  fun a ha b hb => h a (hsub ha) b (hsub hb)

/-- **Sorting forgets the order.** -/
theorem insertionSort_congr (h : l.Perm l') (hanti : AntisymmOn r l) :
    l.insertionSort r = l'.insertionSort r := by
  have hperm : (l.insertionSort r).Perm (l'.insertionSort r) :=
    (List.perm_insertionSort r l).trans (h.trans (List.perm_insertionSort r l').symm)
  refine hperm.eq_of_pairwise (fun a b ha hb => ?_) (List.pairwise_insertionSort r l)
    (List.pairwise_insertionSort r l')
  rw [List.mem_insertionSort] at ha hb
  exact hanti a ha b (h.mem_iff.mpr hb)

/-- Sorted, lists without repetitions are known by their elements. -/
theorem insertionSort_eq_of_mem_iff (hl : l.Nodup) (hl' : l'.Nodup) (h : ∀ a, a ∈ l ↔ a ∈ l')
    (hanti : AntisymmOn r l) : l.insertionSort r = l'.insertionSort r :=
  insertionSort_congr ((List.perm_ext_iff_of_nodup hl hl').mpr h) hanti

/-! ## 2. Increasing keys -/

section Keys

variable {β : Type} [LinearOrder β]

/-- `key=..`: elements are compared by their keys. -/
def ByKey (key : α → β) (a b : α) : Prop := key a ≤ key b

variable {key : α → β}

instance ByKey.decidable : DecidableRel (ByKey key) := fun a b =>
  inferInstanceAs (Decidable (key a ≤ key b))

instance ByKey.total : Std.Total (ByKey key) := ⟨fun a b => le_total (key a) (key b)⟩

instance ByKey.isTrans : IsTrans α (ByKey key) := ⟨fun _ _ _ h h' => le_trans h h'⟩

/-- The keys increase. -/
def Increasing (key : α → β) (l : List α) : Prop := l.Pairwise fun a b => key a < key b

theorem Increasing.filter (h : Increasing key l) (p : α → Bool) : Increasing key (l.filter p) :=
  h.sublist List.filter_sublist

theorem Increasing.nodup (h : Increasing key l) : l.Nodup :=
  h.imp fun hlt heq => hlt.ne (congrArg key heq)

/-- Elements with the same key are the same. -/
theorem Increasing.eq_of_key {a b : α} (h : Increasing key l) (ha : a ∈ l) (hb : b ∈ l)
    (hkey : key a = key b) : a = b := by
  induction l with
  | nil => cases ha
  | cons c l ih =>
    obtain ⟨hc, hl⟩ := List.pairwise_cons.mp h
    rcases List.mem_cons.mp ha with hac | ha <;> rcases List.mem_cons.mp hb with hbc | hb
    · rw [hac, hbc]
    · exact absurd hkey (hac ▸ (hc b hb).ne)
    · exact absurd hkey (hbc ▸ (hc a ha).ne')
    · exact ih hl ha hb

/-- **Lists with increasing keys** are known by their elements. -/
theorem eq_of_increasing (hl : Increasing key l) (hl' : Increasing key l')
    (h : ∀ a, a ∈ l ↔ a ∈ l') : l = l' := by
  have hperm : l.Perm l' := (List.perm_ext_iff_of_nodup hl.nodup hl'.nodup).mpr h
  exact hperm.eq_of_pairwise (fun a b _ _ hab hba => absurd hab hba.asymm) hl hl'

/-- Sorting by keys that are all different. -/
theorem increasing_insertionSort (h : (l.map key).Nodup) :
    Increasing key (l.insertionSort (ByKey key)) := by
  have hsorted : (l.insertionSort (ByKey key)).Pairwise (ByKey key) :=
    List.pairwise_insertionSort _ l
  have hnodup : ((l.insertionSort (ByKey key)).map key).Nodup :=
    ((List.perm_insertionSort _ l).map key).nodup_iff.mpr h
  exact hsorted.imp₂ (fun _ _ hle hne => lt_of_le_of_ne hle hne) (List.pairwise_map.mp hnodup)

/-- The last of them has the greatest key. -/
theorem Increasing.getLast?_eq_some_iff {a : α} (h : Increasing key l) :
    l.getLast? = some a ↔ a ∈ l ∧ ∀ b ∈ l, key b ≤ key a := by
  rcases List.eq_nil_or_concat' l with rfl | ⟨older, last, rfl⟩
  · simp
  · have hlast : ∀ b ∈ older, key b < key last := by
      intro b hb
      exact (List.pairwise_append.mp h).2.2 b hb last (List.mem_singleton_self _)
    rw [List.getLast?_concat, Option.some.injEq]
    constructor
    · rintro rfl
      refine ⟨by simp, fun b hb => ?_⟩
      rcases List.mem_append.mp hb with hb | hb
      · exact (hlast b hb).le
      · rw [List.mem_singleton.mp hb]
    · rintro ⟨ha, hgreatest⟩
      rcases List.mem_append.mp ha with ha | ha
      · exact absurd (hlast a ha) (hgreatest last (by simp)).not_gt
      · exact (List.mem_singleton.mp ha).symm

end Keys

end Effect
