/-
# Clusters of correlated assets

`risk/portfolio.py`, `cluster_exposure`: assets are put together while their correlation with one of
the group is large enough, and each group has the sum of its exposures, as `Decimal`s are added in
the order in which a set is iterated.

* `clusters_are_components`: the groups are the connected components of the graph that links each
  pair whose correlation is large enough, whatever order the assets come in; so are the sums where
  none of them is rounded;
* `sums_depend_on_order`: three exposures with another sum in another order.
-/
import Kripto.Effect.Components
import Kripto.Python.Rounding
import Mathlib.Algebra.BigOperators.Group.Finset.Basic
import Mathlib.Algebra.Order.Field.Rat
import Mathlib.Combinatorics.SimpleGraph.Connectivity.Connected
import Mathlib.Tactic.NormNum

namespace Kripto.Risk.Clusters

open Effect Python

open Python.DecimalContext (fix sum sum_concat)

variable {Symbol : Type} [DecidableEq Symbol]

/-! ## 1. `risk/portfolio.py` -/

/-- The exposures by symbol, in the order of the dictionary. -/
structure Exposures (Symbol : Type) where
  symbols : List Symbol
  exposure : Symbol → ℚ
  nodup : symbols.Nodup

/-- In what order a set is iterated, for the order of its elements in the map they come from. -/
class SetOrder (Symbol : Type) where
  elements : List Symbol → List Symbol
  perm_elements : ∀ symbols, (elements symbols).Perm symbols

section Source

variable [DecimalContext] [SetOrder Symbol]

variable (exposures : Exposures Symbol) (correlations : Symbol × Symbol → Option ℚ) (threshold : ℚ)

/-- `correlations.get((x, b), correlations.get((b, x), 0))`. -/
def correlation (x b : Symbol) : ℚ := (correlations (x, b)).getD ((correlations (b, x)).getD 0)

def correlated (x b : Symbol) : Bool := threshold ≤ |correlation correlations x b|

def group (a : Symbol) : Finset Symbol :=
  saturate (correlated correlations threshold) exposures.symbols {a}

/-- The elements of a group, as its set is iterated. -/
def elementsOf (g : Finset Symbol) : List Symbol :=
  SetOrder.elements (exposures.symbols.filter (· ∈ g))

def clusterExposure : List (Finset Symbol × ℚ) :=
  (blocks (group exposures correlations threshold) exposures.symbols ∅).map fun g =>
    (g, sum ((elementsOf exposures g).map fun x => fix |exposures.exposure x|))

end Source

/-! ## 2. The graph -/

/-- The table stores a pair of symbols one way at most. -/
def StoredOnce (correlations : Symbol × Symbol → Option ℚ) : Prop :=
  ∀ a b, a ≠ b → correlations (a, b) ≠ none → correlations (b, a) = none

/-- Symbols are linked by a stored correlation that is large enough. -/
def graph (exposures : Exposures Symbol) (correlations : Symbol × Symbol → Option ℚ)
    (threshold : ℚ) : SimpleGraph Symbol where
  Adj a b := a ≠ b ∧ a ∈ exposures.symbols ∧ b ∈ exposures.symbols ∧
    ∃ c, (correlations (a, b) = some c ∨ correlations (b, a) = some c) ∧ threshold ≤ |c|
  symm := ⟨fun _ _ ⟨hne, ha, hb, c, hc, hlarge⟩ => ⟨hne.symm, hb, ha, c, hc.symm, hlarge⟩⟩
  loopless := ⟨fun _ h => h.1 rfl⟩

/-- No sum of exposures of the group is rounded. -/
def Unrounded [DecimalContext] (exposure : Symbol → ℚ) (g : Finset Symbol) : Prop :=
  ∀ part, part ⊆ g → fix (∑ x ∈ part, |exposure x|) = ∑ x ∈ part, |exposure x|

/-- **The groups are the components of the graph**, each with the sum of its exposures in some order
of its own, which is the sum if none is rounded. -/
structure Clustered [DecimalContext] (exposures : Exposures Symbol)
    (correlations : Symbol × Symbol → Option ℚ) (threshold : ℚ) (groups : List (Finset Symbol × ℚ)) : Prop where
  disjoint : (groups.map Prod.fst).Pairwise Disjoint
  cover : ∀ a, a ∈ exposures.symbols ↔ ∃ g ∈ groups, a ∈ g.1
  components : ∀ block : Set Symbol, (∃ g ∈ groups, (g.1 : Set Symbol) = block) ↔
    ∃ a ∈ exposures.symbols,
      block = ((graph exposures correlations threshold).connectedComponentMk a).supp
  sums : ∀ g ∈ groups,
    (∃ order : List Symbol, order.Nodup ∧ order.toFinset = g.1 ∧
      g.2 = sum (order.map fun x => fix |exposures.exposure x|)) ∧
    (Unrounded exposures.exposure g.1 → g.2 = ∑ x ∈ g.1, |exposures.exposure x|)

variable {exposures : Exposures Symbol} {correlations : Symbol × Symbol → Option ℚ} {threshold : ℚ}

omit [DecidableEq Symbol] in
theorem correlated_iff (honce : StoredOnce correlations) (hthreshold : 0 < threshold)
    {a b : Symbol} (hne : a ≠ b) : correlated correlations threshold a b = true ↔
      ∃ c, (correlations (a, b) = some c ∨ correlations (b, a) = some c) ∧ threshold ≤ |c| := by
  rw [correlated, decide_eq_true_eq, correlation]
  rcases hab : correlations (a, b) with - | c
  · rcases hba : correlations (b, a) with - | c
    · refine iff_of_false ?_ (by simp)
      change ¬ threshold ≤ |(0 : ℚ)|
      rw [abs_zero]
      exact not_le.mpr hthreshold
    · simp
  · have hba : correlations (b, a) = none := honce a b hne (by rw [hab]; exact nofun)
    simp [hba]

omit [DecidableEq Symbol] in
/-- What a symbol reaches through the exposures is what it is connected to. -/
theorem reach_iff (honce : StoredOnce correlations) (hthreshold : 0 < threshold) {a b : Symbol}
    (ha : a ∈ exposures.symbols) :
    Relation.ReflTransGen (Linked (correlated correlations threshold) exposures.symbols) a b ↔
      (graph exposures correlations threshold).Reachable a b := by
  rw [SimpleGraph.reachable_iff_reflTransGen]
  constructor
  · intro hreach
    have hboth : Relation.ReflTransGen (graph exposures correlations threshold).Adj a b ∧
        b ∈ exposures.symbols := by
      induction hreach with
      | refl => exact ⟨.refl, ha⟩
      | @tail x b _ hlink ih =>
        refine ⟨?_, hlink.1⟩
        rcases eq_or_ne x b with rfl | hne
        · exact ih.1
        · exact ih.1.tail ⟨hne, ih.2, hlink.1, (correlated_iff honce hthreshold hne).mp hlink.2⟩
    exact hboth.1
  · intro hreach
    refine Relation.ReflTransGen.mono (fun x b hadj => ?_) _ _ hreach
    exact ⟨hadj.2.2.1, (correlated_iff honce hthreshold hadj.1).mpr hadj.2.2.2⟩

/-- **A group is a component.** -/
theorem mem_group_iff (honce : StoredOnce correlations) (hthreshold : 0 < threshold) {a b : Symbol}
    (ha : a ∈ exposures.symbols) : b ∈ group exposures correlations threshold a ↔
      (graph exposures correlations threshold).Reachable a b := by
  rw [group, mem_saturate_iff, ← reach_iff honce hthreshold ha]
  constructor
  · rintro ⟨a', ha', hreach⟩
    rwa [← Finset.mem_singleton.mp ha']
  · exact fun hreach => ⟨a, Finset.mem_singleton_self a, hreach⟩

theorem classes_group (honce : StoredOnce correlations) (hthreshold : 0 < threshold) :
    Classes (group exposures correlations threshold) exposures.symbols where
  self a ha := (mem_group_iff honce hthreshold ha).mpr (SimpleGraph.Reachable.refl a)
  same a ha b hb c hca hcb := by
    rw [mem_group_iff honce hthreshold ha] at hca
    rw [mem_group_iff honce hthreshold hb] at hcb
    ext d
    rw [mem_group_iff honce hthreshold ha, mem_group_iff honce hthreshold hb]
    exact ⟨fun h => hcb.trans (hca.symm.trans h), fun h => hca.trans (hcb.symm.trans h)⟩

/-- A group has symbols of the exposures only. -/
theorem mem_symbols_of_group {a b : Symbol} (ha : a ∈ exposures.symbols)
    (h : b ∈ group exposures correlations threshold a) : b ∈ exposures.symbols := by
  refine saturate_keeps (P := (· ∈ exposures.symbols)) (fun _ _ _ hb _ => hb) ?_ b h
  intro x hx
  rwa [Finset.mem_singleton.mp hx]

theorem coe_group (honce : StoredOnce correlations) (hthreshold : 0 < threshold) {a : Symbol}
    (ha : a ∈ exposures.symbols) : (group exposures correlations threshold a : Set Symbol) =
      ((graph exposures correlations threshold).connectedComponentMk a).supp := by
  ext b
  rw [Finset.mem_coe, mem_group_iff honce hthreshold ha,
    SimpleGraph.ConnectedComponent.mem_supp_iff, SimpleGraph.ConnectedComponent.eq]
  exact SimpleGraph.reachable_comm

/-! ## 3. Sums -/

section Sums

variable [SetOrder Symbol]

theorem nodup_elementsOf (exposures : Exposures Symbol) (g : Finset Symbol) :
    (elementsOf exposures g).Nodup :=
  (SetOrder.perm_elements _).nodup_iff.mpr (exposures.nodup.filter _)

theorem toFinset_elementsOf {g : Finset Symbol} (h : ∀ x ∈ g, x ∈ exposures.symbols) :
    (elementsOf exposures g).toFinset = g := by
  ext x
  rw [List.mem_toFinset, elementsOf, (SetOrder.perm_elements _).mem_iff, List.mem_filter,
    decide_eq_true_eq]
  exact ⟨fun hx => hx.2, fun hx => ⟨h x hx, hx⟩⟩

end Sums

section Unrounded

variable [DecimalContext] {exposure : Symbol → ℚ}

/-- **A sum that is not rounded** is the sum. -/
theorem sum_of_unrounded {order : List Symbol} (hnodup : order.Nodup)
    (h : Unrounded exposure order.toFinset) :
    sum (order.map fun x => fix |exposure x|) = ∑ x ∈ order.toFinset, |exposure x| := by
  induction order using List.reverseRecOn with
  | nil => rfl
  | append_singleton order x ih =>
    obtain ⟨hbefore, -, hnew⟩ := List.nodup_append.mp hnodup
    have hx : x ∉ order.toFinset := by
      rw [List.mem_toFinset]
      exact fun hmem => hnew x hmem x (List.mem_singleton_self x) rfl
    have hinsert : (order ++ [x]).toFinset = insert x order.toFinset := by
      rw [List.toFinset_append, List.toFinset_cons, List.toFinset_nil, insert_empty_eq,
        Finset.union_comm, Finset.insert_eq]
    rw [hinsert] at h ⊢
    have hsingle : fix |exposure x| = |exposure x| := by
      have hpart := h {x} (Finset.singleton_subset_iff.mpr (Finset.mem_insert_self x _))
      rwa [Finset.sum_singleton] at hpart
    have hpart : Unrounded exposure order.toFinset := fun part hsubset =>
      h part (hsubset.trans (Finset.subset_insert x _))
    have hsum : ∑ y ∈ order.toFinset, |exposure y| + |exposure x| =
        ∑ y ∈ insert x order.toFinset, |exposure y| := by
      rw [Finset.sum_insert hx, add_comm]
    rw [List.map_append, List.map_singleton, sum_concat, ih hbefore hpart, hsingle, hsum]
    exact h _ (Finset.Subset.refl _)

end Unrounded

/-! ## 4. The clusters -/

section Clusters

variable [DecimalContext] [SetOrder Symbol]

omit [DecimalContext] [SetOrder Symbol] in
theorem mem_blocks_group (honce : StoredOnce correlations) (hthreshold : 0 < threshold)
    {block : Finset Symbol} :
    block ∈ blocks (group exposures correlations threshold) exposures.symbols ∅ ↔
      ∃ a ∈ exposures.symbols, block = group exposures correlations threshold a := by
  rw [mem_blocks_iff (classes_group honce hthreshold) fun _ ha => ha]
  simp only [Finset.notMem_empty, not_false_eq_true, true_and]

theorem map_fst_clusterExposure : (clusterExposure exposures correlations threshold).map Prod.fst =
    blocks (group exposures correlations threshold) exposures.symbols ∅ := by
  rw [clusterExposure, List.map_map]
  exact List.map_id _

theorem exists_group_iff (p : Finset Symbol → Prop) :
    (∃ g ∈ clusterExposure exposures correlations threshold, p g.1) ↔
      ∃ block ∈ blocks (group exposures correlations threshold) exposures.symbols ∅, p block := by
  rw [← map_fst_clusterExposure]
  simp only [List.mem_map, exists_exists_and_eq_and]

omit [DecimalContext] [SetOrder Symbol] in
theorem mem_symbols_of_block (honce : StoredOnce correlations) (hthreshold : 0 < threshold)
    {block : Finset Symbol}
    (h : block ∈ blocks (group exposures correlations threshold) exposures.symbols ∅) :
    ∀ x ∈ block, x ∈ exposures.symbols := by
  obtain ⟨a, ha, rfl⟩ := (mem_blocks_group honce hthreshold).mp h
  exact fun x => mem_symbols_of_group ha

theorem clustered_clusterExposure (honce : StoredOnce correlations) (hthreshold : 0 < threshold) :
    Clustered exposures correlations threshold
      (clusterExposure exposures correlations threshold) where
  disjoint := by
    rw [map_fst_clusterExposure]
    exact pairwise_disjoint_blocks (classes_group honce hthreshold)
  cover a := by
    refine .trans ?_ (exists_group_iff (a ∈ ·)).symm
    constructor
    · intro ha
      exact ⟨_, (mem_blocks_group honce hthreshold).mpr ⟨a, ha, rfl⟩,
        (classes_group honce hthreshold).self a ha⟩
    · rintro ⟨block, hblock, hmem⟩
      exact mem_symbols_of_block honce hthreshold hblock a hmem
  components block := by
    refine .trans (exists_group_iff fun g : Finset Symbol => (g : Set Symbol) = block) ?_
    constructor
    · rintro ⟨g, hg, rfl⟩
      obtain ⟨a, ha, rfl⟩ := (mem_blocks_group honce hthreshold).mp hg
      exact ⟨a, ha, coe_group honce hthreshold ha⟩
    · rintro ⟨a, ha, rfl⟩
      exact ⟨_, (mem_blocks_group honce hthreshold).mpr ⟨a, ha, rfl⟩, coe_group honce hthreshold ha⟩
  sums g hg := by
    obtain ⟨block, hblock, rfl⟩ := List.mem_map.mp hg
    have hall := toFinset_elementsOf (mem_symbols_of_block honce hthreshold hblock)
    have hnodup := nodup_elementsOf exposures block
    refine ⟨⟨_, hnodup, hall, rfl⟩, fun hexact => ?_⟩
    have hsum := sum_of_unrounded hnodup (hall.symm ▸ hexact)
    rwa [hall] at hsum

omit [DecimalContext] [SetOrder Symbol] in
/-- The blocks of the same exposures in another order. -/
theorem blocks_group_perm (honce : StoredOnce correlations) (hthreshold : 0 < threshold)
    {exposures' : Exposures Symbol} (hperm : exposures.symbols.Perm exposures'.symbols) :
    (blocks (group exposures correlations threshold) exposures.symbols ∅).Perm
      (blocks (group exposures' correlations threshold) exposures'.symbols ∅) := by
  have hgroup : group exposures' correlations threshold =
      group exposures correlations threshold := by
    funext a
    exact saturate_perm hperm
  rw [hgroup]
  exact blocks_perm (classes_group honce hthreshold) hperm

/-- Where no sum is rounded, a cluster has the sum of its exposures. -/
theorem clusterExposure_of_unrounded (honce : StoredOnce correlations) (hthreshold : 0 < threshold)
    (h : ∀ g ∈ clusterExposure exposures correlations threshold,
      Unrounded exposures.exposure g.1) :
    clusterExposure exposures correlations threshold =
      (blocks (group exposures correlations threshold) exposures.symbols ∅).map fun g =>
        (g, ∑ x ∈ g, |exposures.exposure x|) := by
  refine List.map_congr_left fun g hg => ?_
  have hmem : (g, _) ∈ clusterExposure exposures correlations threshold := List.mem_map_of_mem hg
  exact Prod.ext rfl (((clustered_clusterExposure honce hthreshold).sums _ hmem).2 (h _ hmem))

/-- **Clusters are the connected components**, and the order of the exposures only orders them and,
where one is rounded, their sums. -/
theorem clusters_are_components (exposures : Exposures Symbol)
    (correlations : Symbol × Symbol → Option ℚ) (threshold : ℚ) (honce : StoredOnce correlations)
    (hthreshold : 0 < threshold) :
    Clustered exposures correlations threshold
        (clusterExposure exposures correlations threshold) ∧
      ∀ exposures' : Exposures Symbol, exposures.symbols.Perm exposures'.symbols →
        exposures'.exposure = exposures.exposure →
          ((clusterExposure exposures correlations threshold).map Prod.fst).Perm
            ((clusterExposure exposures' correlations threshold).map Prod.fst) ∧
          ((∀ g ∈ clusterExposure exposures correlations threshold,
            Unrounded exposures.exposure g.1) →
              (clusterExposure exposures correlations threshold).Perm
                (clusterExposure exposures' correlations threshold)) := by
  refine ⟨clustered_clusterExposure honce hthreshold, fun exposures' hperm hsame => ?_⟩
  have hblocks := blocks_group_perm honce hthreshold hperm
  have hfirst : ((clusterExposure exposures correlations threshold).map Prod.fst).Perm
      ((clusterExposure exposures' correlations threshold).map Prod.fst) := by
    rw [map_fst_clusterExposure, map_fst_clusterExposure]
    exact hblocks
  refine ⟨hfirst, fun hexact => ?_⟩
  have hexact' : ∀ g ∈ clusterExposure exposures' correlations threshold,
      Unrounded exposures'.exposure g.1 := by
    intro g hg
    obtain ⟨g', hg', heq⟩ :=
      List.mem_map.mp (hfirst.mem_iff.mpr (List.mem_map_of_mem (f := Prod.fst) hg))
    rw [hsame, ← heq]
    exact hexact g' hg'
  rw [clusterExposure_of_unrounded honce hthreshold hexact,
    clusterExposure_of_unrounded honce hthreshold hexact', hsame]
  exact hblocks.map _

end Clusters

section

attribute [local instance] defaultContext

/-- In the order in which they were put in. -/
abbrev insertionOrder : SetOrder String := ⟨id, List.Perm.refl⟩

attribute [local instance] insertionOrder

/-- Three assets, two of which move together. -/
def three : Exposures String where
  symbols := ["BTC", "ETH", "DOGE"]
  exposure x := if x = "BTC" then 10 else if x = "ETH" then 5 else 2
  nodup := by decide

def table (key : String × String) : Option ℚ := if key = ("BTC", "ETH") then some (9 / 10) else none

theorem clusters_are_components_three :
    Clustered three table (7 / 10) (clusterExposure three table (7 / 10)) := by
  refine (clusters_are_components three table (7 / 10) ?_ (by norm_num)).1
  intro a b hne hab
  rw [table] at hab ⊢
  split_ifs at hab with hkey
  · obtain ⟨rfl, rfl⟩ := Prod.mk.inj hkey
    rfl
  · exact absurd rfl hab

example : clusterExposure three table (7 / 10) = [({"BTC", "ETH"}, 15), ({"DOGE"}, 2)] := by
  decide +kernel

/-- One, and two of a half in the last of its places. -/
def crumbs : Exposures String where
  symbols := ["A", "B", "C"]
  exposure x := if x = "A" then 1 else 5 / 10 ^ 28
  nodup := by decide

def crumbsFirst : Exposures String where
  symbols := ["B", "C", "A"]
  exposure := crumbs.exposure
  nodup := by decide

def together (key : String × String) : Option ℚ :=
  if key = ("A", "B") ∨ key = ("B", "C") then some 1 else none

/-- **Another order, another sum**: the halves are lost one by one, and kept together. -/
theorem sums_depend_on_order : StoredOnce together ∧
    crumbs.symbols.Perm crumbsFirst.symbols ∧ crumbsFirst.exposure = crumbs.exposure ∧
      ¬ (clusterExposure crumbs together (7 / 10)).Perm
        (clusterExposure crumbsFirst together (7 / 10)) := by
  refine ⟨fun a b hne hab => ?_, by decide, rfl, by decide +kernel⟩
  rw [together] at hab ⊢
  split_ifs at hab with hkey
  · rcases hkey with hkey | hkey <;> obtain ⟨rfl, rfl⟩ := Prod.mk.inj hkey <;> rfl
  · exact absurd rfl hab

end

end Kripto.Risk.Clusters
