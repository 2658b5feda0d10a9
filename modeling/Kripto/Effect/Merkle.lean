/-
# Merkle trees

Neighbours are combined into the row above, after the last of an odd row has been repeated, until
one node is left (`climb`).  The leaves that are hashed in the end are those of the list with all
the repetitions (`filled`), and their number is a power of two.

* `climb_map`: the loop commutes with every map that respects the nodes, so it can be run on trees
  instead of digests, and the tree says what is hashed;
* `root_eq_iff`: two perfect trees have the same root just when the leaves of the lower one are a
  row of the higher one, if no two nodes collide;
* `climb_eq_iff`: two lists have the same root just when one of them, filled up, is a row over the
  other.

Nothing tells a leaf from an inner node, and nothing tells a repetition from an entry: that is all
there is between equal roots and equal lists.
-/
import Mathlib.Data.List.Basic
import Mathlib.Data.Set.Function
import Mathlib.Logic.Function.Iterate
import Mathlib.Tactic.Ring

namespace Effect

variable {α β : Type}

/-! ## 1. The loop -/

/-- The last one once more, if they are odd. -/
def evened (row : List α) : List α :=
  if row.length % 2 = 1 then row ++ row.getLast?.toList else row

/-- Neighbours combined. -/
def paired (node : α → α → α) : List α → List α
  | [] => []
  | [_] => []
  | x :: y :: row => node x y :: paired node row

theorem length_evened (row : List α) : (evened row).length = row.length + row.length % 2 := by
  unfold evened
  split_ifs with hodd
  · have hne : row ≠ [] := by
      rintro rfl
      simp at hodd
    simp [List.getLast?_eq_some_getLast hne, hodd]
  · omega

theorem length_paired (node : α → α → α) (row : List α) :
    (paired node row).length = row.length / 2 := by
  fun_induction paired node row with
  | case1 => simp
  | case2 x => simp
  | case3 x y row ih =>
    simp only [List.length_cons, ih]
    omega

/-- Row after row, until one node is left. -/
def climb (node : α → α → α) (row : List α) : List α :=
  if 1 < row.length then climb node (paired node (evened row)) else row
termination_by row.length
decreasing_by
  rw [length_paired, length_evened]
  omega

theorem mem_evened {x : α} {row : List α} : x ∈ evened row ↔ x ∈ row := by
  unfold evened
  split_ifs
  · rw [List.mem_append, Option.mem_toList]
    exact ⟨fun h => h.elim id List.mem_of_getLast?, .inl⟩
  · rfl

theorem evened_map (f : α → β) (row : List α) : evened (row.map f) = (evened row).map f := by
  unfold evened
  rw [List.length_map]
  split_ifs
  · rw [List.map_append, List.getLast?_map]
    cases row.getLast? <;> rfl
  · rfl

section Maps

variable {node : α → α → α} {node' : β → β → β} {f : α → β}

theorem paired_map (hf : ∀ x y, f (node x y) = node' (f x) (f y)) (row : List α) :
    paired node' (row.map f) = (paired node row).map f := by
  fun_induction paired node row with
  | case1 => rfl
  | case2 x => rfl
  | case3 x y row ih => simp [paired, hf, ih]

/-- **The loop** commutes with what respects the nodes. -/
theorem climb_map (hf : ∀ x y, f (node x y) = node' (f x) (f y)) (row : List α) :
    climb node' (row.map f) = (climb node row).map f := by
  fun_induction climb node row with
  | case1 row hlong ih =>
    rw [climb, if_pos (by simpa using hlong), evened_map, paired_map hf, ih]
  | case2 row hshort =>
    rw [climb, if_neg (by simpa using hshort)]

end Maps

theorem length_climb (node : α → α → α) {row : List α} (hne : row ≠ []) :
    (climb node row).length = 1 := by
  fun_induction climb node row with
  | case1 row hlong ih =>
    refine ih fun hnil => ?_
    have hlength := congrArg List.length hnil
    rw [length_paired, length_evened, List.length_nil] at hlength
    omega
  | case2 row hshort =>
    have hpos := List.length_pos_iff.mpr hne
    omega

theorem evened_evened (row : List α) : evened (evened row) = evened row := by
  have heven : ¬ (evened row).length % 2 = 1 := by
    rw [length_evened]
    omega
  rw [evened, if_neg heven]

/-- A repetition that the loop makes can as well have been made before. -/
theorem climb_evened (node : α → α → α) {row : List α} (hlong : 1 < row.length) :
    climb node (evened row) = climb node row := by
  have hlong' : 1 < (evened row).length := by
    rw [length_evened]
    omega
  rw [climb, if_pos hlong', evened_evened, climb.eq_def node row, if_pos hlong]

/-- The list with all the repetitions. -/
def filled (row : List α) : List α := (climb (· ++ ·) (row.map fun x => [x])).flatten

/-- What is combined on the way. -/
inductive Hashed (node : α → α → α) : List α → α × α → Prop
  | here {row before after : List α} {x y : α} (hlong : 1 < row.length)
      (heven : before.length % 2 = 0) (hrow : evened row = before ++ x :: y :: after) :
      Hashed node row (x, y)
  | above {row : List α} {p : α × α} (hlong : 1 < row.length)
      (hp : Hashed node (paired node (evened row)) p) : Hashed node row p

/-! ## 2. Trees -/

/-- What is built when the loop is run on leaves. -/
inductive HashTree (α : Type)
  | leaf (x : α)
  | node (l r : HashTree α)

namespace HashTree

def root (node : α → α → α) : HashTree α → α
  | leaf x => x
  | .node l r => node (l.root node) (r.root node)

def leaves : HashTree α → List α
  | leaf x => [x]
  | .node l r => l.leaves ++ r.leaves

/-- The row that lies so many nodes below the root. -/
def row (node : α → α → α) : ℕ → HashTree α → List α
  | 0, t => [t.root node]
  | _ + 1, leaf _ => []
  | j + 1, .node l r => l.row node j ++ r.row node j

/-- All leaves lie so many nodes below the root. -/
def Perfect : ℕ → HashTree α → Prop
  | 0, leaf _ => True
  | h + 1, .node l r => Perfect h l ∧ Perfect h r
  | _, _ => False

/-- What is combined in it. -/
def pairs (node : α → α → α) : HashTree α → Set (α × α)
  | leaf _ => ∅
  | .node l r => {(l.root node, r.root node)} ∪ (l.pairs node ∪ r.pairs node)

variable {node : α → α → α} {t t' : HashTree α} {h j k : ℕ}

theorem row_perfect (ht : t.Perfect h) : t.row node h = t.leaves := by
  induction t generalizing h with
  | leaf x =>
    cases h with
    | zero => rfl
    | succ h => exact ht.elim
  | node l r ihl ihr =>
    cases h with
    | zero => exact ht.elim
    | succ h => rw [row, leaves, ihl ht.1, ihr ht.2]

theorem length_leaves (ht : t.Perfect h) : t.leaves.length = 2 ^ h := by
  induction t generalizing h with
  | leaf x =>
    cases h with
    | zero => rfl
    | succ h => exact ht.elim
  | node l r ihl ihr =>
    cases h with
    | zero => exact ht.elim
    | succ h =>
      rw [leaves, List.length_append, ihl ht.1, ihr ht.2]
      ring

theorem length_row (ht : t.Perfect (j + k)) : (t.row node j).length = 2 ^ j := by
  induction j generalizing t with
  | zero => rfl
  | succ j ih =>
    rw [Nat.add_right_comm] at ht
    cases t with
    | leaf x => exact ht.elim
    | node l r =>
      rw [row, List.length_append, ih ht.1, ih ht.2]
      ring

theorem paired_append {xs : List α} (ys : List α) (heven : xs.length % 2 = 0) :
    paired node (xs ++ ys) = paired node xs ++ paired node ys := by
  fun_induction paired node xs with
  | case1 => rfl
  | case2 x => simp at heven
  | case3 x y xs ih =>
    have hrest : xs.length % 2 = 0 := by
      simp only [List.length_cons] at heven
      omega
    simp [paired, ih hrest]

/-- The rows lie one over the other. -/
theorem paired_row (ht : t.Perfect (j + 1 + k)) :
    paired node (t.row node (j + 1)) = t.row node j := by
  induction j generalizing t with
  | zero =>
    rw [Nat.add_right_comm] at ht
    cases t with
    | leaf x => exact ht.elim
    | node l r => rfl
  | succ j ih =>
    rw [Nat.add_right_comm] at ht
    cases t with
    | leaf x => exact ht.elim
    | node l r =>
      have heven : (l.row node (j + 1)).length % 2 = 0 := by
        rw [length_row ht.1, pow_succ]
        omega
      rw [row, paired_append _ heven, ih ht.1, ih ht.2, row]

theorem iterate_paired (ht : t.Perfect (j + k)) :
    (paired node)^[k] t.leaves = t.row node j := by
  induction k generalizing j with
  | zero => exact (row_perfect ht).symm
  | succ k ih =>
    have hstep : t.Perfect (j + 1 + k) := by rwa [Nat.add_right_comm, Nat.add_assoc]
    rw [Function.iterate_succ_apply', ih hstep, paired_row hstep]

/-- Two trees have the same root if the leaves of one are a row of the other. -/
theorem root_eq_of_row (ht : t.Perfect h) (ht' : t'.Perfect (h + k))
    (hrow : t'.row node h = t.leaves) : t.root node = t'.root node := by
  induction t generalizing h t' with
  | leaf x =>
    cases h with
    | zero => exact (List.singleton_inj.mp hrow).symm
    | succ h => exact ht.elim
  | node l r ihl ihr =>
    cases h with
    | zero => exact ht.elim
    | succ h =>
      rw [Nat.add_right_comm] at ht'
      cases t' with
      | leaf x => exact ht'.elim
      | node l' r' =>
        have hlength : (l'.row node h).length = l.leaves.length := by
          rw [length_row ht'.1, length_leaves ht.1]
        obtain ⟨hl, hr⟩ := List.append_inj hrow hlength
        rw [root, root, ihl ht.1 ht'.1 hl, ihr ht.2 ht'.2 hr]

/-- **The leaves** of the lower of two trees with the same root are a row of the higher one. -/
theorem row_of_root_eq (ht : t.Perfect h) (ht' : t'.Perfect (h + k))
    (hinjective : Set.InjOn node.uncurry (t.pairs node ∪ t'.pairs node))
    (hroot : t.root node = t'.root node) : t'.row node h = t.leaves := by
  induction t generalizing h t' with
  | leaf x =>
    cases h with
    | zero => rw [row, leaves, ← hroot, root]
    | succ h => exact ht.elim
  | node l r ihl ihr =>
    cases h with
    | zero => exact ht.elim
    | succ h =>
      rw [Nat.add_right_comm] at ht'
      cases t' with
      | leaf x => exact ht'.elim
      | node l' r' =>
        have hpair := hinjective (.inl (.inl rfl)) (.inr (.inl rfl)) hroot
        obtain ⟨hl, hr⟩ := Prod.mk.inj hpair
        have hleft : l.pairs node ∪ l'.pairs node ⊆
            (HashTree.node l r).pairs node ∪ (HashTree.node l' r').pairs node :=
          Set.union_subset_union (fun _ hp => .inr (.inl hp)) fun _ hp => .inr (.inl hp)
        have hright : r.pairs node ∪ r'.pairs node ⊆
            (HashTree.node l r).pairs node ∪ (HashTree.node l' r').pairs node :=
          Set.union_subset_union (fun _ hp => .inr (.inr hp)) fun _ hp => .inr (.inr hp)
        rw [row, leaves, ihl ht.1 ht'.1 (hinjective.mono hleft) hl,
          ihr ht.2 ht'.2 (hinjective.mono hright) hr]

/-- **Equal roots.** -/
theorem root_eq_iff (ht : t.Perfect h) (ht' : t'.Perfect (h + k))
    (hinjective : Set.InjOn node.uncurry (t.pairs node ∪ t'.pairs node)) :
    t.root node = t'.root node ↔ (paired node)^[k] t'.leaves = t.leaves := by
  rw [iterate_paired ht']
  exact ⟨row_of_root_eq ht ht' hinjective, root_eq_of_row ht ht'⟩

end HashTree

/-! ## 3. The tree over a list -/

section Lists

variable {node : α → α → α} {row row' : List α}

theorem paired_root (ts : List (HashTree α)) :
    paired node (ts.map (HashTree.root node)) =
      (paired HashTree.node ts).map (HashTree.root node) :=
  paired_map (fun _ _ => rfl) ts

theorem climb_root (ts : List (HashTree α)) :
    climb node (ts.map (HashTree.root node)) = (climb HashTree.node ts).map (HashTree.root node) :=
  climb_map (fun _ _ => rfl) ts

theorem climb_leaves (ts : List (HashTree α)) :
    climb (· ++ ·) (ts.map HashTree.leaves) = (climb HashTree.node ts).map HashTree.leaves :=
  climb_map (fun _ _ => rfl) ts

/-- What stands in a row was combined from neighbours. -/
theorem exists_of_mem_paired {x : α} (hx : x ∈ paired node row) :
    ∃ before y z after, row = before ++ y :: z :: after ∧ before.length % 2 = 0 ∧ x = node y z := by
  fun_induction paired node row with
  | case1 => simp at hx
  | case2 y => simp at hx
  | case3 y z row ih =>
    rcases List.mem_cons.mp hx with rfl | hx
    · exact ⟨[], y, z, row, rfl, rfl, rfl⟩
    · obtain ⟨before, y', z', after, rfl, heven, rfl⟩ := ih hx
      refine ⟨y :: z :: before, y', z', after, rfl, ?_, rfl⟩
      simp only [List.length_cons]
      omega

theorem perfect_climb {ts : List (HashTree α)} {h : ℕ} (hts : ∀ t ∈ ts, t.Perfect h) :
    ∃ h, ∀ t ∈ climb HashTree.node ts, t.Perfect h := by
  fun_induction climb HashTree.node ts generalizing h with
  | case1 ts hlong ih =>
    refine @ih (h + 1) fun t ht => ?_
    obtain ⟨before, l, r, after, hrow, -, rfl⟩ := exists_of_mem_paired ht
    have hmem : ∀ t ∈ [l, r], t.Perfect h := by
      intro t ht
      refine hts t (mem_evened.mp ?_)
      rw [hrow]
      simp only [List.mem_cons, List.not_mem_nil, or_false] at ht
      rcases ht with rfl | rfl <;> simp
    exact ⟨hmem l (by simp), hmem r (by simp)⟩
  | case2 ts hshort => exact ⟨h, hts⟩

/-- The nodes of the tree are combined on the way. -/
theorem hashed_of_mem_pairs {ts : List (HashTree α)} {t : HashTree α} {p : α × α}
    (ht : t ∈ climb HashTree.node ts) (hp : p ∈ t.pairs node) :
    Hashed node (ts.map (HashTree.root node)) p ∨ ∃ t ∈ ts, p ∈ t.pairs node := by
  fun_induction climb HashTree.node ts with
  | case1 ts hlong ih =>
    have hlong' : 1 < (ts.map (HashTree.root node)).length := by simpa using hlong
    rcases ih ht with habove | ⟨t, ht, hp⟩
    · refine .inl (.above hlong' ?_)
      rw [evened_map, paired_root]
      exact habove
    · obtain ⟨before, l, r, after, hrow, heven, rfl⟩ := exists_of_mem_paired ht
      rcases hp with rfl | hp | hp
      · have hroots : evened (ts.map (HashTree.root node)) = before.map (HashTree.root node) ++
            l.root node :: r.root node :: after.map (HashTree.root node) := by
          rw [evened_map, hrow]
          simp
        exact .inl (.here hlong' (by simpa using heven) hroots)
      · exact .inr ⟨l, mem_evened.mp (by simp [hrow]), hp⟩
      · exact .inr ⟨r, mem_evened.mp (by simp [hrow]), hp⟩
  | case2 ts hshort => exact .inr ⟨t, ht, hp⟩

/-- **The tree** over a list. -/
theorem exists_tree (node : α → α → α) (hne : row ≠ []) : ∃ t h, HashTree.Perfect h t ∧
    climb node row = [t.root node] ∧ filled row = t.leaves ∧
      ∀ p ∈ t.pairs node, Hashed node row p := by
  have hleaves : ∀ t ∈ row.map HashTree.leaf, t.Perfect 0 := by
    intro t ht
    obtain ⟨x, -, rfl⟩ := List.mem_map.mp ht
    trivial
  obtain ⟨h, hperfect⟩ := perfect_climb hleaves
  obtain ⟨t, ht⟩ : ∃ t, climb HashTree.node (row.map HashTree.leaf) = [t] :=
    List.length_eq_one_iff.mp (length_climb _ (by simpa using hne))
  have hroot : (row.map HashTree.leaf).map (HashTree.root node) = row := by
    simp [Function.comp_def, HashTree.root]
  refine ⟨t, h, hperfect t (by simp [ht]), ?_, ?_, fun p hp => ?_⟩
  · rw [← hroot, climb_root, ht, List.map_singleton]
  · have hmap := climb_leaves (row.map HashTree.leaf)
    rw [ht, List.map_map] at hmap
    exact (congrArg List.flatten hmap).trans (by simp)
  · have hmem : t ∈ climb HashTree.node (row.map HashTree.leaf) := by simp [ht]
    rcases hashed_of_mem_pairs hmem hp with hhashed | ⟨t', ht', hp'⟩
    · rwa [hroot] at hhashed
    · obtain ⟨x, -, rfl⟩ := List.mem_map.mp ht'
      exact hp'.elim

/-- The first, filled up, is a row over the second. -/
def RowOver (node : α → α → α) (row row' : List α) : Prop :=
  ∃ k, (paired node)^[k] (filled row') = filled row

theorem length_iterate_paired (k : ℕ) (row : List α) :
    ((paired node)^[k] row).length = row.length / 2 ^ k := by
  induction k with
  | zero => simp
  | succ k ih =>
    rw [Function.iterate_succ_apply', length_paired, ih, Nat.div_div_eq_div_mul, pow_succ]

/-- A row over a perfect tree that is as long as another one's leaves lies as high. -/
theorem exists_add_of_iterate {t t' : HashTree α} {h h' k : ℕ} (ht : t.Perfect h)
    (ht' : t'.Perfect h') (hrow : (paired node)^[k] t'.leaves = t.leaves) : h' = h + k := by
  have hlength := congrArg List.length hrow
  rw [length_iterate_paired, HashTree.length_leaves ht, HashTree.length_leaves ht'] at hlength
  have hle : k ≤ h' := by
    by_contra hgt
    have hzero : 2 ^ h' / 2 ^ k = 0 :=
      Nat.div_eq_of_lt (Nat.pow_lt_pow_right (by omega) (by omega))
    have hpos : 0 < 2 ^ h := Nat.two_pow_pos h
    omega
  rw [Nat.pow_div hle (by omega)] at hlength
  have hheight := Nat.pow_right_injective (le_refl 2) hlength
  omega

/-- **Equal roots.** -/
theorem climb_eq_iff (hne : row ≠ []) (hne' : row' ≠ [])
    (hinjective : Set.InjOn node.uncurry {p | Hashed node row p ∨ Hashed node row' p}) :
    climb node row = climb node row' ↔ RowOver node row row' ∨ RowOver node row' row := by
  obtain ⟨t, h, ht, hroot, hfilled, hpairs⟩ := exists_tree node hne
  obtain ⟨t', h', ht', hroot', hfilled', hpairs'⟩ := exists_tree node hne'
  rw [hroot, hroot', List.singleton_inj, RowOver, RowOver, hfilled, hfilled']
  have hpairs : t.pairs node ∪ t'.pairs node ⊆ {p | Hashed node row p ∨ Hashed node row' p} :=
    fun p hp => hp.imp (hpairs p) (hpairs' p)
  constructor
  · intro heq
    rcases Nat.le_total h h' with hle | hle
    · obtain ⟨k, rfl⟩ := Nat.exists_eq_add_of_le hle
      exact .inl ⟨k, (HashTree.root_eq_iff ht ht' (hinjective.mono hpairs)).mp heq⟩
    · obtain ⟨k, rfl⟩ := Nat.exists_eq_add_of_le hle
      rw [Set.union_comm] at hpairs
      exact .inr ⟨k, (HashTree.root_eq_iff ht' ht (hinjective.mono hpairs)).mp heq.symm⟩
  · rintro (⟨k, hrow⟩ | ⟨k, hrow⟩)
    · obtain rfl := exists_add_of_iterate ht ht' hrow
      exact (HashTree.root_eq_iff ht ht' (hinjective.mono hpairs)).mpr hrow
    · obtain rfl := exists_add_of_iterate ht' ht hrow
      rw [Set.union_comm] at hpairs
      exact ((HashTree.root_eq_iff ht' ht (hinjective.mono hpairs)).mpr hrow).symm

end Lists

end Effect
