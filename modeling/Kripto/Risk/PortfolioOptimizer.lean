/-
# Weights for expected edges

`risk/portfolio_optimizer.py`: edges that are not finite, and those that are too small, are blocked,
and what is left has weights in proportion, each clipped.  With shorting allowed the size of an edge
is taken and its sign is lost.  If the sizes that are left add up to nothing, all is left in cash
and nothing is said of them.

* `faithful_iff_directed`: the edges for which every symbol is either blocked or has a weight of its
  edge's sign, within the caps;
* `short_edge_bought`: an edge to sell on that has a weight to buy.
-/
import Kripto.Effect.Outcome
import Mathlib.Algebra.BigOperators.Ring.List
import Mathlib.Algebra.Order.BigOperators.Group.List
import Mathlib.Algebra.Order.Field.Rat
import Mathlib.Data.List.Nodup
import Mathlib.Data.List.Sort
import Mathlib.Data.Sign.Basic
import Mathlib.Tactic.FieldSimp
import Mathlib.Tactic.Linarith

namespace Kripto.Risk.PortfolioOptimizer

open Effect

/-! ## 1. `risk/portfolio_optimizer.py` -/

inductive Exc
  | valueError (msg : String)
  deriving DecidableEq

/-- A least edge that is not finite is `none`. -/
structure OptimizerPolicy where
  maxSingleAssetWeight : ℚ := 20 / 100
  maxGrossWeight : ℚ := 85 / 100
  allowShort : Bool := false
  minExpectedEdgeBps : Option ℚ := some 0
  deriving DecidableEq

structure OptimizedPortfolio where
  weights : List (String × ℚ)
  cashWeight : ℚ
  grossWeight : ℚ
  blocked : List String

/-- Edges by symbol; one that is not finite is `none`. -/
structure Edges where
  items : List (String × Option ℚ)
  nodup : (items.map Prod.fst).Nodup

namespace OptimizerPolicy

variable (policy : OptimizerPolicy)

def validate : Except Exc OptimizerPolicy :=
  if ¬ (0 < policy.maxSingleAssetWeight ∧ policy.maxSingleAssetWeight ≤ 1) then
    .error (.valueError "max_single_asset_weight must be in (0,1]")
  else if ¬ (0 < policy.maxGrossWeight ∧ policy.maxGrossWeight ≤ 1) then
    .error (.valueError "max_gross_weight must be in (0,1]")
  else if policy.maxGrossWeight < policy.maxSingleAssetWeight then
    .error (.valueError "single-asset cap cannot exceed gross cap")
  else if policy.minExpectedEdgeBps = none then
    .error (.valueError "min_expected_edge_bps must be finite")
  else .ok policy

/-- The score of an edge, or why it is blocked. -/
def screen : Option ℚ → Except String ℚ
  | none => .error "NON_FINITE_EDGE"
  | some edge =>
    if edge ≤ policy.minExpectedEdgeBps.getD 0 ∧ ¬ policy.allowShort then
      .error "NON_POSITIVE_EDGE"
    else .ok (if policy.allowShort then |edge| else max 0 edge)

def clean (edges : Edges) : List (String × ℚ) :=
  edges.items.filterMap fun item => (policy.screen item.2).toOption.map fun score => (item.1, score)

def blocked (edges : Edges) : List String :=
  edges.items.filterMap fun item => match policy.screen item.2 with
    | .error reason => some (item.1 ++ ":" ++ reason)
    | .ok _ => none

def tentative (clean : List (String × ℚ)) : List (String × ℚ) :=
  let totalScore := (clean.map Prod.snd).sum
  clean.map fun item =>
    (item.1, min policy.maxSingleAssetWeight (policy.maxGrossWeight * item.2 / totalScore))

end OptimizerPolicy

def constrainedEdgeOptimizer (edges : Edges) (policy : OptimizerPolicy) :
    Except Exc OptimizedPortfolio := do
  let _ ← policy.validate
  let clean := policy.clean edges
  let blocked := (policy.blocked edges).insertionSort (· ≤ ·)
  if clean = [] ∨ (clean.map Prod.snd).sum ≤ 0 then .ok ⟨[], 1, 0, blocked⟩
  else
    let tentative := policy.tentative clean
    let gross := (tentative.map Prod.snd).sum
    if policy.maxGrossWeight < gross then
      let scale := policy.maxGrossWeight / gross
      let tentative := tentative.map fun item => (item.1, item.2 * scale)
      let gross := (tentative.map Prod.snd).sum
      .ok ⟨tentative, 1 - gross, gross, blocked⟩
    else .ok ⟨tentative, 1 - gross, gross, blocked⟩

/-! ## 2. What the portfolio should say -/

def Weighted (p : OptimizedPortfolio) (symbol : String) : Prop := ∃ w, (symbol, w) ∈ p.weights

def Blocked (p : OptimizedPortfolio) (symbol : String) : Prop :=
  ∃ reason ∈ ["NON_FINITE_EDGE", "NON_POSITIVE_EDGE"], symbol ++ ":" ++ reason ∈ p.blocked

/-- **Complete, directional and within the caps.** -/
structure Faithful (edges : Edges) (policy : OptimizerPolicy) (p : OptimizedPortfolio) : Prop where
  complete : ∀ item ∈ edges.items, Weighted p item.1 ↔ ¬ Blocked p item.1
  capped : ∀ item ∈ p.weights, |item.2| ≤ policy.maxSingleAssetWeight
  directed : ∀ item ∈ p.weights, ∃ edge, (item.1, some edge) ∈ edges.items ∧
    SignType.sign item.2 = SignType.sign edge
  gross : p.grossWeight = (p.weights.map fun item => |item.2|).sum
  within : p.grossWeight ≤ policy.maxGrossWeight
  whole : p.cashWeight + p.grossWeight = 1

/-- An edge that is not blocked. -/
def OptimizerPolicy.Passes (policy : OptimizerPolicy) (edge : ℚ) : Prop :=
  policy.allowShort = true ∨ policy.minExpectedEdgeBps.getD 0 < edge

/-- No edge that passes is negative, and if any passes one is positive. -/
def Directed (edges : Edges) (policy : OptimizerPolicy) : Prop :=
  (∀ symbol edge, (symbol, some edge) ∈ edges.items → policy.Passes edge → 0 ≤ edge) ∧
    ((∃ symbol edge, (symbol, some edge) ∈ edges.items ∧ policy.Passes edge) →
      ∃ symbol edge, (symbol, some edge) ∈ edges.items ∧ policy.Passes edge ∧ 0 < edge)

/-! ## 3. What is blocked -/

variable {edges : Edges} {policy : OptimizerPolicy} {symbol : String} {edge : Option ℚ}

theorem reason_mem {reason : String} (h : policy.screen edge = .error reason) :
    reason ∈ ["NON_FINITE_EDGE", "NON_POSITIVE_EDGE"] := by
  cases edge with
  | none =>
    obtain rfl := Except.error.inj h
    decide
  | some edge =>
    rw [OptimizerPolicy.screen] at h
    split_ifs at h
    all_goals
      obtain rfl := Except.error.inj h
      decide

/-- A text says of which symbol it is and why it is blocked. -/
theorem label_inj {symbol symbol' reason reason' : String}
    (hreason : reason ∈ ["NON_FINITE_EDGE", "NON_POSITIVE_EDGE"])
    (hreason' : reason' ∈ ["NON_FINITE_EDGE", "NON_POSITIVE_EDGE"])
    (h : symbol ++ ":" ++ reason = symbol' ++ ":" ++ reason') : symbol = symbol' := by
  have hlist := congrArg String.toList h
  simp only [String.toList_append] at hlist
  have hsuffix : reason.toList <:+ (symbol.toList ++ ":".toList) ++ reason.toList :=
    List.suffix_append _ _
  have hsuffix' : reason'.toList <:+ (symbol.toList ++ ":".toList) ++ reason.toList :=
    hlist ▸ List.suffix_append _ _
  have heq : reason = reason' := by
    rcases List.mem_pair.mp hreason with rfl | rfl <;>
      rcases List.mem_pair.mp hreason' with rfl | rfl
    · rfl
    · exact absurd (List.suffix_or_suffix_of_suffix hsuffix hsuffix') (by decide)
    · exact absurd (List.suffix_or_suffix_of_suffix hsuffix hsuffix') (by decide)
    · rfl
  subst heq
  exact String.toList_injective (List.append_cancel_right (List.append_cancel_right hlist))

theorem edge_unique {edge' : Option ℚ} (h : (symbol, edge) ∈ edges.items)
    (h' : (symbol, edge') ∈ edges.items) : edge = edge' :=
  (Prod.mk.inj (List.inj_on_of_nodup_map edges.nodup h h' rfl)).2

theorem mem_blocked_iff {text : String} : text ∈ policy.blocked edges ↔
    ∃ item ∈ edges.items, ∃ reason, policy.screen item.2 = .error reason ∧
      text = item.1 ++ ":" ++ reason := by
  rw [OptimizerPolicy.blocked, List.mem_filterMap]
  refine exists_congr fun item => and_congr_right fun _ => ?_
  split
  · next reason hscreen => simp [hscreen, eq_comm]
  · next score hscreen => simp [hscreen]

theorem mem_clean_iff {score : ℚ} : (symbol, score) ∈ policy.clean edges ↔
    ∃ edge, (symbol, edge) ∈ edges.items ∧ policy.screen edge = .ok score := by
  rw [OptimizerPolicy.clean, List.mem_filterMap]
  constructor
  · rintro ⟨⟨symbol', edge⟩, hmem, hscore⟩
    obtain ⟨score', hscreen, heq⟩ := Option.map_eq_some_iff.mp hscore
    obtain ⟨rfl, rfl⟩ := Prod.mk.inj heq
    rcases h : policy.screen edge with reason | score
    · rw [h] at hscreen
      exact nomatch hscreen
    · rw [h] at hscreen
      obtain rfl := Option.some.inj hscreen
      exact ⟨edge, hmem, h⟩
  · rintro ⟨edge, hmem, hscreen⟩
    exact ⟨_, hmem, by rw [hscreen]; rfl⟩

/-- **A symbol is blocked** if and only if its edge is. -/
theorem blocked_iff (hmem : (symbol, edge) ∈ edges.items) {p : OptimizedPortfolio}
    (hp : p.blocked = (policy.blocked edges).insertionSort (· ≤ ·)) :
    Blocked p symbol ↔ ∃ reason, policy.screen edge = .error reason := by
  have hblocked : ∀ text, text ∈ p.blocked ↔ text ∈ policy.blocked edges := fun text => by
    rw [hp, List.mem_insertionSort]
  constructor
  · rintro ⟨reason, hreason, htext⟩
    obtain ⟨item, hitem, reason', hscreen, heq⟩ := mem_blocked_iff.mp ((hblocked _).mp htext)
    obtain rfl := label_inj hreason (reason_mem hscreen) heq
    rw [edge_unique hmem hitem]
    exact ⟨reason', hscreen⟩
  · rintro ⟨reason, hscreen⟩
    exact ⟨reason, reason_mem hscreen,
      (hblocked _).mpr (mem_blocked_iff.mpr ⟨_, hmem, reason, hscreen, rfl⟩)⟩

/-! ## 4. What has a weight -/

theorem screen_eq_ok_iff {score : ℚ} : policy.screen edge = .ok score ↔
    ∃ e, edge = some e ∧ policy.Passes e ∧
      score = if policy.allowShort then |e| else max 0 e := by
  cases edge with
  | none => exact iff_of_false nofun fun ⟨_, h, _⟩ => nomatch h
  | some e =>
    have hpasses : policy.Passes e ↔
        ¬ (e ≤ policy.minExpectedEdgeBps.getD 0 ∧ ¬ policy.allowShort) := by
      rw [not_and_or, not_not, not_le, or_comm]
      rfl
    simp only [Option.some.injEq, exists_eq_left', hpasses]
    rw [OptimizerPolicy.screen]
    by_cases hblocked : e ≤ policy.minExpectedEdgeBps.getD 0 ∧ ¬ policy.allowShort
    · rw [if_pos hblocked]
      exact iff_of_false nofun fun h => h.1 hblocked
    · rw [if_neg hblocked, Except.ok.injEq, eq_comm, and_iff_right hblocked]

/-- **What has a score** is what passes. -/
theorem mem_clean_passes_iff {score : ℚ} : (symbol, score) ∈ policy.clean edges ↔
    ∃ e, (symbol, some e) ∈ edges.items ∧ policy.Passes e ∧
      score = if policy.allowShort then |e| else max 0 e := by
  rw [mem_clean_iff]
  constructor
  · rintro ⟨edge, hmem, hscreen⟩
    obtain ⟨e, rfl, hpasses, hscore⟩ := screen_eq_ok_iff.mp hscreen
    exact ⟨e, hmem, hpasses, hscore⟩
  · rintro ⟨e, hmem, hpasses, hscore⟩
    exact ⟨some e, hmem, screen_eq_ok_iff.mpr ⟨e, rfl, hpasses, hscore⟩⟩

theorem score_nonneg (allowShort : Bool) (e : ℚ) :
    0 ≤ if allowShort then |e| else max 0 e := by
  split_ifs
  · exact abs_nonneg e
  · exact le_max_left _ _

theorem score_of_nonneg (allowShort : Bool) {e : ℚ} (he : 0 ≤ e) :
    (if allowShort then |e| else max 0 e) = e := by
  rw [abs_of_nonneg he, max_eq_right he, ite_self]

theorem clean_nonneg {item : String × ℚ} (h : item ∈ policy.clean edges) : 0 ≤ item.2 := by
  obtain ⟨e, -, -, hscore⟩ := mem_clean_passes_iff.mp h
  rw [hscore]
  exact score_nonneg _ _

/-- The weight of a score. -/
def weightOf (policy : OptimizerPolicy) (total score : ℚ) : ℚ :=
  min policy.maxSingleAssetWeight (policy.maxGrossWeight * score / total)

def total (edges : Edges) (policy : OptimizerPolicy) : ℚ :=
  ((policy.clean edges).map Prod.snd).sum

theorem mem_tentative_iff {w : ℚ} : (symbol, w) ∈ policy.tentative (policy.clean edges) ↔
    ∃ score, (symbol, score) ∈ policy.clean edges ∧
      w = weightOf policy (total edges policy) score := by
  rw [OptimizerPolicy.tentative, List.mem_map]
  constructor
  · rintro ⟨⟨symbol', score⟩, hmem, heq⟩
    obtain ⟨rfl, rfl⟩ := Prod.mk.inj heq
    exact ⟨score, hmem, rfl⟩
  · rintro ⟨score, hmem, rfl⟩
    exact ⟨_, hmem, rfl⟩

/-- **The clipped weights fit**, so that they need not be scaled. -/
theorem gross_le (htotal : 0 < total edges policy) :
    ((policy.tentative (policy.clean edges)).map Prod.snd).sum ≤ policy.maxGrossWeight := by
  have hmap : (policy.tentative (policy.clean edges)).map Prod.snd =
      (policy.clean edges).map fun item => weightOf policy (total edges policy) item.2 := by
    rw [OptimizerPolicy.tentative, List.map_map]
    rfl
  calc ((policy.tentative (policy.clean edges)).map Prod.snd).sum
      ≤ ((policy.clean edges).map fun item =>
          policy.maxGrossWeight / total edges policy * item.2).sum := by
        rw [hmap]
        refine List.sum_le_sum fun item _ => (min_le_right _ _).trans (le_of_eq ?_)
        rw [mul_div_right_comm]
    _ = policy.maxGrossWeight / total edges policy * total edges policy := by
        rw [List.sum_map_mul_left]
        rfl
    _ = policy.maxGrossWeight := div_mul_cancel₀ _ htotal.ne'

theorem validate_pos (h : policy.validate = .ok policy) :
    0 < policy.maxSingleAssetWeight ∧ 0 < policy.maxGrossWeight := by
  unfold OptimizerPolicy.validate at h
  split_ifs at h with hsingle hgross
  exact ⟨hsingle.1, hgross.1⟩

/-- The portfolio, of a policy that is valid. -/
def optimized (edges : Edges) (policy : OptimizerPolicy) : OptimizedPortfolio :=
  let blocked := (policy.blocked edges).insertionSort (· ≤ ·)
  let tentative := policy.tentative (policy.clean edges)
  let gross := (tentative.map Prod.snd).sum
  if 0 < total edges policy then ⟨tentative, 1 - gross, gross, blocked⟩ else ⟨[], 1, 0, blocked⟩

theorem constrainedEdgeOptimizer_eq (h : policy.validate = .ok policy) :
    constrainedEdgeOptimizer edges policy = .ok (optimized edges policy) := by
  rw [constrainedEdgeOptimizer, h, ok_bind, optimized]
  change (if policy.clean edges = [] ∨ total edges policy ≤ 0 then _ else _) = _
  by_cases htotal : 0 < total edges policy
  · have hsome : ¬ (policy.clean edges = [] ∨ total edges policy ≤ 0) := by
      rintro (hnil | hle)
      · rw [total, hnil] at htotal
        exact lt_irrefl _ htotal
      · exact absurd htotal (not_lt.mpr hle)
    rw [if_neg hsome, if_pos htotal]
    exact if_neg (not_lt.mpr (gross_le htotal))
  · rw [if_pos (.inr (not_lt.mp htotal)), if_neg htotal]

theorem weightOf_nonneg {score t : ℚ} (hsingle : 0 < policy.maxSingleAssetWeight)
    (hgross : 0 < policy.maxGrossWeight) (ht : 0 < t) (hscore : 0 ≤ score) :
    0 ≤ weightOf policy t score :=
  le_min hsingle.le (div_nonneg (mul_nonneg hgross.le hscore) ht.le)

theorem sign_weightOf {score t : ℚ} (hsingle : 0 < policy.maxSingleAssetWeight)
    (hgross : 0 < policy.maxGrossWeight) (ht : 0 < t) (hscore : 0 ≤ score) :
    SignType.sign (weightOf policy t score) = SignType.sign score := by
  rcases hscore.eq_or_lt with rfl | hpos
  · rw [weightOf, mul_zero, zero_div, min_eq_right hsingle.le]
  · have hweight : 0 < weightOf policy t score :=
      lt_min hsingle (div_pos (mul_pos hgross hpos) ht)
    rw [sign_pos hpos, sign_pos hweight]

/-! ## 5. The portfolio -/

theorem not_blocked_iff (hmem : (symbol, edge) ∈ edges.items) :
    ¬ Blocked (optimized edges policy) symbol ↔ ∃ e, edge = some e ∧ policy.Passes e := by
  have hblocked : (optimized edges policy).blocked =
      (policy.blocked edges).insertionSort (· ≤ ·) := by
    rw [optimized]
    split_ifs <;> rfl
  rw [blocked_iff hmem hblocked]
  rcases hscreen : policy.screen edge with reason | score
  · refine iff_of_false (fun h => h ⟨reason, rfl⟩) ?_
    rintro ⟨e, rfl, hpasses⟩
    have hok := screen_eq_ok_iff.mpr ⟨e, rfl, hpasses, rfl⟩
    exact nomatch hscreen.symm.trans hok
  · obtain ⟨e, rfl, hpasses, -⟩ := screen_eq_ok_iff.mp hscreen
    exact iff_of_true (fun ⟨_, h⟩ => nomatch h) ⟨e, rfl, hpasses⟩

/-- Nothing has a weight: all must be blocked. -/
theorem faithful_of_not_pos (hgross : 0 < policy.maxGrossWeight)
    (htotal : ¬ 0 < total edges policy) :
    Faithful edges policy (optimized edges policy) ↔
      ¬ ∃ symbol e, (symbol, some e) ∈ edges.items ∧ policy.Passes e := by
  have hoptimized : optimized edges policy =
      ⟨[], 1, 0, (policy.blocked edges).insertionSort (· ≤ ·)⟩ := by
    rw [optimized]
    exact if_neg htotal
  constructor
  · rintro h ⟨symbol, e, hmem, hpasses⟩
    obtain ⟨w, hw⟩ := (h.complete _ hmem).mpr ((not_blocked_iff hmem).mpr ⟨e, rfl, hpasses⟩)
    rw [hoptimized] at hw
    exact nomatch hw
  · intro hnone
    refine ⟨fun item hitem => ?_, ?_, ?_, ?_, ?_, ?_⟩
    · rw [not_blocked_iff hitem]
      refine iff_of_false ?_ fun ⟨e, he, hpasses⟩ => hnone ⟨item.1, e, he ▸ hitem, hpasses⟩
      rw [hoptimized]
      exact fun ⟨_, hw⟩ => nomatch hw
    all_goals rw [hoptimized]
    · exact List.forall_mem_nil _
    · exact List.forall_mem_nil _
    · rfl
    · exact hgross.le
    · exact add_zero 1

/-- **Something has a weight**: what passes must not be negative. -/
theorem faithful_of_pos (hsingle : 0 < policy.maxSingleAssetWeight)
    (hgross : 0 < policy.maxGrossWeight) (htotal : 0 < total edges policy) :
    Faithful edges policy (optimized edges policy) ↔
      ∀ symbol e, (symbol, some e) ∈ edges.items → policy.Passes e → 0 ≤ e := by
  have hweights : (optimized edges policy).weights = policy.tentative (policy.clean edges) := by
    rw [optimized, if_pos htotal]
  have hnonneg : ∀ item ∈ policy.tentative (policy.clean edges), 0 ≤ item.2 := by
    intro item hitem
    obtain ⟨score, hscore, hw⟩ := mem_tentative_iff.mp hitem
    rw [hw]
    exact weightOf_nonneg hsingle hgross htotal (clean_nonneg hscore)
  constructor
  · intro h symbol e hmem hpasses
    obtain ⟨w, hw⟩ := (h.complete _ hmem).mpr ((not_blocked_iff hmem).mpr ⟨e, rfl, hpasses⟩)
    obtain ⟨e', hmem', hsign⟩ := h.directed _ hw
    obtain rfl := Option.some.inj (edge_unique hmem hmem')
    have hw0 : 0 ≤ w := hnonneg _ (hweights ▸ hw)
    exact sign_nonneg_iff.mp (hsign ▸ sign_nonneg_iff.mpr hw0)
  · intro h
    refine ⟨?_, ?_, ?_, ?_, ?_, ?_⟩
    · rintro ⟨symbol, edge⟩ hmem
      rw [not_blocked_iff hmem, Weighted, hweights]
      constructor
      · rintro ⟨w, hw⟩
        obtain ⟨score, hscore, -⟩ := mem_tentative_iff.mp hw
        obtain ⟨e, hmem', hpasses, -⟩ := mem_clean_passes_iff.mp hscore
        exact ⟨e, edge_unique hmem hmem', hpasses⟩
      · rintro ⟨e, rfl, hpasses⟩
        have hclean := mem_clean_passes_iff.mpr ⟨e, hmem, hpasses, rfl⟩
        exact ⟨_, mem_tentative_iff.mpr ⟨_, hclean, rfl⟩⟩
    · intro item hitem
      rw [hweights] at hitem
      obtain ⟨score, -, hw⟩ := mem_tentative_iff.mp hitem
      rw [abs_of_nonneg (hnonneg _ hitem), hw]
      exact min_le_left _ _
    · intro item hitem
      rw [hweights] at hitem
      obtain ⟨score, hscore, hw⟩ := mem_tentative_iff.mp hitem
      obtain ⟨e, hmem, hpasses, hscore'⟩ := mem_clean_passes_iff.mp hscore
      have hsize : score = e := hscore'.trans (score_of_nonneg _ (h _ e hmem hpasses))
      refine ⟨e, hmem, ?_⟩
      rw [hw, sign_weightOf hsingle hgross htotal (clean_nonneg hscore), hsize]
    · have habs : (policy.tentative (policy.clean edges)).map Prod.snd =
          (policy.tentative (policy.clean edges)).map fun item => |item.2| :=
        List.map_congr_left fun item hitem => (abs_of_nonneg (hnonneg _ hitem)).symm
      rw [hweights, ← habs, optimized, if_pos htotal]
    · rw [optimized, if_pos htotal]
      exact gross_le htotal
    · rw [optimized, if_pos htotal]
      exact sub_add_cancel 1 _

/-- The scores add up to something if and only if one of them is something. -/
theorem total_pos_iff : 0 < total edges policy ↔ ∃ item ∈ policy.clean edges, 0 < item.2 := by
  constructor
  · intro h
    have hsum : ((policy.clean edges).map fun _ => (0 : ℚ)).sum <
        ((policy.clean edges).map Prod.snd).sum := by simpa [total] using h
    exact List.exists_lt_of_sum_lt _ _ hsum
  · rintro ⟨item, hitem, hpos⟩
    refine hpos.trans_le (List.single_le_sum (fun x hx => ?_) _ (List.mem_map_of_mem hitem))
    obtain ⟨item', hitem', rfl⟩ := List.mem_map.mp hx
    exact clean_nonneg hitem'

/-- **The portfolio is faithful** if and only if no edge that passes is negative, and one is
positive if any passes. -/
theorem faithful_iff_directed (edges : Edges) (policy : OptimizerPolicy)
    (hpolicy : policy.validate = .ok policy) :
    (∃ p, constrainedEdgeOptimizer edges policy = .ok p ∧ Faithful edges policy p) ↔
      Directed edges policy := by
  obtain ⟨hsingle, hgross⟩ := validate_pos hpolicy
  rw [constrainedEdgeOptimizer_eq hpolicy]
  simp only [Except.ok.injEq, exists_eq_left']
  by_cases htotal : 0 < total edges policy
  · rw [faithful_of_pos hsingle hgross htotal, Directed, iff_self_and]
    intro h _
    obtain ⟨⟨symbol, score⟩, hitem, hpos⟩ := total_pos_iff.mp htotal
    obtain ⟨e, hmem, hpasses, rfl⟩ := mem_clean_passes_iff.mp hitem
    refine ⟨symbol, e, hmem, hpasses, ?_⟩
    rwa [score_of_nonneg _ (h _ e hmem hpasses)] at hpos
  · rw [faithful_of_not_pos hgross htotal]
    constructor
    · exact fun hnone => ⟨fun symbol e hmem hpasses => (hnone ⟨symbol, e, hmem, hpasses⟩).elim,
        fun hsome => (hnone hsome).elim⟩
    · intro h hsome
      obtain ⟨symbol, e, hmem, hpasses, hpos⟩ := h.2 hsome
      have hclean := mem_clean_passes_iff.mpr ⟨e, hmem, hpasses, rfl⟩
      refine htotal (total_pos_iff.mpr ⟨_, hclean, ?_⟩)
      rwa [score_of_nonneg _ hpos.le]

/-- One symbol and its edge. -/
def one (symbol : String) (edge : ℚ) : Edges := ⟨[(symbol, some edge)], List.nodup_singleton _⟩

theorem faithful_iff_directed_one :
    (∃ p, constrainedEdgeOptimizer (one "BTC" 10) {} = .ok p ∧ Faithful (one "BTC" 10) {} p) ↔
      Directed (one "BTC" 10) {} :=
  faithful_iff_directed (one "BTC" 10) {} (by decide +kernel)

/-- An edge of -10, with shorting allowed, has a weight of 20 per cent. -/
theorem short_edge_bought :
    ¬ ∃ p, constrainedEdgeOptimizer (one "BTC" (-10)) { allowShort := true } = .ok p ∧
      Faithful (one "BTC" (-10)) { allowShort := true } p := by
  rintro ⟨p, hp, h⟩
  have hweights : (constrainedEdgeOptimizer (one "BTC" (-10)) { allowShort := true }).map
      OptimizedPortfolio.weights = .ok [("BTC", 1 / 5)] := by decide +kernel
  rw [hp] at hweights
  obtain ⟨edge, hmem, hsign⟩ := h.directed ("BTC", 1 / 5)
    (Except.ok.inj hweights ▸ List.mem_singleton_self _)
  obtain rfl : edge = -10 := Option.some.inj (Prod.mk.inj (List.mem_singleton.mp hmem)).2
  rw [sign_pos (by norm_num), sign_neg (by norm_num)] at hsign
  exact nomatch hsign

end Kripto.Risk.PortfolioOptimizer
