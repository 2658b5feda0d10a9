/-
# Tables and sums over them

A table with a primary key is an `AList`: its rows, no two under one key.  Queries such as "the
sum of the amounts of all rows that ..." are totals of a function over the rows.  A total only
depends on what the look-ups say (`total_eq_sum`), and from that follows what an insert, a
deletion and a selection do to it.
-/
import Mathlib.Algebra.BigOperators.Group.Finset.Basic
import Mathlib.Algebra.Order.BigOperators.Group.Finset
import Mathlib.Data.List.AList
import Mathlib.Tactic.Abel

namespace Effect

variable {κ ν A : Type} [DecidableEq κ]

/-- A table with rows `ν` under keys `κ`. -/
abbrev Table (κ ν : Type) : Type := AList fun _ : κ => ν

namespace Table

/-- The rows, in the order of the table. -/
def values (t : Table κ ν) : List ν := t.entries.map (·.2)

/-- The rows that satisfy `p`. -/
def select (p : ν → Bool) (t : Table κ ν) : Table κ ν :=
  ⟨t.entries.filter fun e => p e.2, t.nodupKeys.sublist List.filter_sublist⟩

theorem lookup_select (p : ν → Bool) (t : Table κ ν) (k : κ) :
    (t.select p).lookup k = (t.lookup k).filter p := by
  ext v
  have hselect := AList.mem_lookup_iff (a := k) (b := v) (s := t.select p)
  have hlookup := AList.mem_lookup_iff (a := k) (b := v) (s := t)
  rw [Option.mem_def] at hselect hlookup
  rw [hselect, Option.filter_eq_some_iff, hlookup]
  simp [select]

/-- `UPDATE ... WHERE key = k`: the row is changed, if there is one. -/
def update (t : Table κ ν) (k : κ) (f : ν → ν) : Table κ ν :=
  match t.lookup k with
  | some v => t.insert k (f v)
  | none => t

theorem lookup_update (t : Table κ ν) (k k' : κ) (f : ν → ν) :
    (update t k f).lookup k' = if k' = k then (t.lookup k).map f else t.lookup k' := by
  unfold update
  split <;> rename_i hlookup
  · by_cases hk : k' = k
    · subst hk
      simp [hlookup]
    · simp [hk]
  · by_cases hk : k' = k
    · subst hk
      simp [hlookup]
    · simp [hk]

theorem lookup_update_self {t : Table κ ν} {k : κ} {v : ν} (h : t.lookup k = some v) (f : ν → ν) :
    (update t k f).lookup k = some (f v) := by
  simp [lookup_update, h]

/-- Two tables with the same rows, in any order. -/
def Same (t u : Table κ ν) : Prop := t.entries.Perm u.entries

section Same

variable {t u : Table κ ν}

omit [DecidableEq κ] in
theorem Same.refl (t : Table κ ν) : t.Same t := List.Perm.refl _

theorem Same.lookup (h : t.Same u) (k : κ) : t.lookup k = u.lookup k := AList.perm_lookup h

/-- Two tables with the same values at all keys. -/
theorem same_of_lookup (h : ∀ k, t.lookup k = u.lookup k) : t.Same u :=
  List.lookup_ext t.nodupKeys u.nodupKeys fun k v => by
    change v ∈ t.lookup k ↔ v ∈ u.lookup k
    rw [h k]

omit [DecidableEq κ] in
theorem Same.keys_eq_nil (h : t.Same u) : t.keys = [] ↔ u.keys = [] := by
  have hkeys : t.keys.Perm u.keys := h.map Sigma.fst
  constructor
  · intro hnil
    rw [hnil] at hkeys
    exact hkeys.nil_eq.symm
  · intro hnil
    rw [hnil] at hkeys
    exact hkeys.eq_nil

theorem same_insert {k : κ} {v : ν} (h : t.lookup k = some v) : t.Same (t.insert k v) := by
  refine same_of_lookup fun k' => ?_
  by_cases hk : k' = k
  · rw [hk, h, AList.lookup_insert]
  · rw [AList.lookup_insert_ne hk]

/-- A union adds nothing just when the right one has it all. -/
theorem same_union_iff : u.Same (t ∪ u) ↔ ∀ k v, t.lookup k = some v → u.lookup k = some v := by
  constructor
  · intro h k v hk
    rw [h.lookup k, AList.lookup_union_left (AList.lookup_isSome.mp (by simp [hk])), hk]
  · intro h
    refine same_of_lookup fun k => ?_
    cases hk : t.lookup k with
    | some v =>
      rw [h k v hk, AList.lookup_union_left (AList.lookup_isSome.mp (by simp [hk])), hk]
    | none =>
      rw [AList.lookup_union_right (AList.lookup_eq_none.mp hk)]

end Same

/-! ## 1. Totals -/

section Total

variable {μ : Type} [AddCommGroup A]

/-- `f` summed over the rows. -/
def total (f : ν → A) (t : Table κ ν) : A := (t.values.map f).sum

/-- What the row under `k`, if there is one, contributes to a total. -/
def part (f : ν → A) (t : Table κ ν) (k : κ) : A := (t.lookup k).elim 0 f

variable {f : ν → A} {g : μ → A} {t t' : Table κ ν} {u : Table κ μ} {k : κ} {v : ν}

theorem part_of_lookup (h : t.lookup k = some v) : t.part f k = f v := by
  simp [part, h]

theorem part_of_not_mem (h : t.lookup k = none) : t.part f k = 0 := by
  simp [part, h]

/-- **A total is a sum over keys**, over any set that has those of the table. -/
theorem total_eq_sum (f : ν → A) (t : Table κ ν) {K : Finset κ} (h : ∀ k ∈ t, k ∈ K) :
    t.total f = ∑ k ∈ K, t.part f k := by
  have hnodup : t.keys.Nodup := t.keys_nodup
  have hsub : t.keys.toFinset ⊆ K := by
    intro k hk
    exact h k (AList.mem_keys.mpr (List.mem_toFinset.mp hk))
  have hzero : ∀ k ∈ K, k ∉ t.keys.toFinset → t.part f k = 0 := by
    intro k _ hk
    refine part_of_not_mem (AList.lookup_eq_none.mpr fun hmem => hk ?_)
    exact List.mem_toFinset.mpr (AList.mem_keys.mp hmem)
  rw [← Finset.sum_subset hsub hzero, List.sum_toFinset _ hnodup]
  have hparts : t.keys.map (t.part f) = t.entries.map fun e => f e.2 := by
    simp only [AList.keys, List.keys, List.map_map]
    refine List.map_congr_left fun e he => ?_
    exact part_of_lookup (AList.mem_lookup_iff.mpr he)
  rw [hparts, total, values, List.map_map]
  rfl

/-- The keys of two tables. -/
def keysOf (t : Table κ ν) (u : Table κ μ) : Finset κ := t.keys.toFinset ∪ u.keys.toFinset

theorem mem_keysOf_left (h : k ∈ t) : k ∈ keysOf t u := by
  simp [keysOf, AList.mem_keys.mp h]

theorem mem_keysOf_right (h : k ∈ u) : k ∈ keysOf t u := by
  simp [keysOf, AList.mem_keys.mp h]

/-- Equal parts, equal totals. -/
theorem total_congr (h : ∀ k, t.part f k = u.part g k) : t.total f = u.total g := by
  rw [total_eq_sum f t fun _ => mem_keysOf_left, total_eq_sum g u fun _ => mem_keysOf_right]
  exact Finset.sum_congr rfl fun k _ => h k

/-- **A new row** adds itself to what the other keys contribute. -/
theorem total_insert : total f (t.insert k v) = total f (t.erase k) + f v := by
  have herase : part f (t.erase k) k = 0 := part_of_not_mem (AList.lookup_erase k t)
  have hinsert : part f (t.insert k v) k = f v := part_of_lookup (AList.lookup_insert t)
  have hsame : ∀ k' ∈ (insert k (keysOf (t.insert k v) (t.erase k))).erase k,
      part f (t.insert k v) k' = part f (t.erase k) k' := by
    intro k' hk'
    have hne := Finset.ne_of_mem_erase hk'
    simp [part, AList.lookup_insert_ne hne, AList.lookup_erase_ne hne]
  rw [total_eq_sum f (t.insert k v) fun k' hk' => Finset.mem_insert_of_mem (a := k')
      (b := k) (mem_keysOf_left (u := t.erase k) hk'),
    total_eq_sum f (t.erase k) fun k' hk' => Finset.mem_insert_of_mem (a := k')
      (b := k) (mem_keysOf_right (t := t.insert k v) hk'),
    ← Finset.add_sum_erase _ (part f (t.insert k v)) (Finset.mem_insert_self k _),
    ← Finset.add_sum_erase _ (part f (t.erase k)) (Finset.mem_insert_self k _),
    herase, hinsert, zero_add, add_comm, Finset.sum_congr rfl hsame]

end Total

/-! ## 2. Sums over the rows that satisfy a condition -/

section Where

variable {μ : Type} [AddCommGroup A] {p : ν → Prop} [DecidablePred p] {q : μ → Prop}
  [DecidablePred q] {f : ν → A} {g : μ → A} {t : Table κ ν} {u : Table κ μ} {k : κ} {v : ν}

/-- `select sum(f) where p`. -/
def sumWhere (p : ν → Prop) [DecidablePred p] (f : ν → A) (t : Table κ ν) : A :=
  total f (t.select p)

/-- A row that is not selected counts for nothing. -/
theorem sumWhere_eq_total : sumWhere p f t = total (fun v => if p v then f v else 0) t := by
  refine total_congr fun k => ?_
  simp only [part, lookup_select]
  cases t.lookup k with
  | none => rfl
  | some v => by_cases h : p v <;> simp [h, Option.filter]

/-- What the selected rows say determines the sum. -/
theorem sumWhere_congr (h : ∀ k, ((t.lookup k).filter p).map f = ((u.lookup k).filter q).map g) :
    sumWhere p f t = sumWhere q g u := by
  refine total_congr fun k => ?_
  have hpart : ∀ o : Option A, o.elim 0 id = o.getD 0 := fun o => by cases o <;> rfl
  have hk := congrArg (·.getD 0) (h k)
  simp only [part, lookup_select]
  cases ht : (t.lookup k).filter p with
  | none => cases hu : (u.lookup k).filter q with
    | none => rfl
    | some w => simpa [ht, hu] using hk
  | some v => cases hu : (u.lookup k).filter q with
    | none => simpa [ht, hu] using hk
    | some w => simpa [ht, hu] using hk

theorem sumWhere_insert :
    sumWhere p f (t.insert k v) = sumWhere p f (t.erase k) + if p v then f v else 0 := by
  rw [sumWhere_eq_total, sumWhere_eq_total, total_insert]

/-- A key without a selected row can be left out. -/
theorem sumWhere_erase (h : (t.lookup k).filter p = none) :
    sumWhere p f (t.erase k) = sumWhere p f t := by
  refine sumWhere_congr fun k' => ?_
  by_cases hk : k' = k
  · subst hk
    simp [h]
  · rw [AList.lookup_erase_ne hk]

end Where

/-! ## 3. Order -/

section Order

variable [AddCommGroup A] [PartialOrder A] [IsOrderedAddMonoid A] {p q : ν → Prop}
  [DecidablePred p] [DecidablePred q] {f : ν → A} {t u : Table κ ν}

/-- More selected rows, none of them negative, make the sum no smaller. -/
theorem sumWhere_mono (hpq : ∀ k v, u.lookup k = some v → p v → t.lookup k = some v ∧ q v)
    (hf : ∀ k v, t.lookup k = some v → q v → 0 ≤ f v) : sumWhere p f u ≤ sumWhere q f t := by
  rw [sumWhere_eq_total, sumWhere_eq_total, total_eq_sum _ u fun _ => mem_keysOf_left (u := t),
    total_eq_sum _ t fun _ => mem_keysOf_right (t := u)]
  refine Finset.sum_le_sum fun k _ => ?_
  have hq : 0 ≤ part (fun v => if q v then f v else 0) t k := by
    simp only [part]
    cases ht : t.lookup k with
    | none => simp
    | some v =>
      by_cases hq : q v
      · simpa [hq] using hf k v ht hq
      · simp [hq]
  cases hu : u.lookup k with
  | none => simpa [part, hu] using hq
  | some v =>
    by_cases hp : p v
    · obtain ⟨ht, hq⟩ := hpq k v hu hp
      simp [part, hu, ht, hp, hq]
    · simpa [part, hu, hp] using hq

end Order

end Table

end Effect
